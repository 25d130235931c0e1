import SpecEngine.Run.Lifecycle
import SpecEngine.Text.Trim

/-!
# Rehearsals

A rehearsal goes through the bodies of a run without evaluating them.  It notes each of them, and
binds its text as a name, so that the notes show what the bodies of a suite share.  It can be told
to fail at one body.
-/

namespace SpecEngine

/-- A body as a rehearsal notes it, with the number of bindings it finds. -/
structure Note where
  suite : String
  hook? : Option Hook
  spec? : Option String
  body : String
  bindings : Nat

/-- The note of a task. -/
def Task.note (t : Task) (bindings : Nat) : Note :=
  match t.phase with
  | .hook h => ⟨t.suite, some h, none, t.body, bindings⟩
  | .spec s => ⟨t.suite, none, some s.description, t.body, bindings⟩

/-- Notes bodies, and fails at those that are `failing` but for blanks around them. -/
def rehearsal (failing : Option String) : Executor (List Note) := fun notes task _ env =>
  let name := Text.trimmed task.body
  let env' := { env with scope := Table.set env.scope name .null }
  (notes ++ [task.note env.scope.length],
    { environment := env'
      failure? := if failing = some name then some (.raised (name ++ " broke")) else none })

end SpecEngine
