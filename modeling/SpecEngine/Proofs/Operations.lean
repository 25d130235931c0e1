import SpecEngine.Proofs.Grammar
import SpecEngine.Session

/-!
# Operations of sessions

What is done to a session after it was started, one operation after the other.

* `Operation`, `apply`, `applyAll`: operations, which leave a session behind whether they fail or
  not;
* `Operation.specs`: the specs that an operation runs;
* `RunsSucceed`: sequences of operations in which no run fails;
* `start_eq`: a session starts without suites and counts; `extends_apply`: what operations do that
  run nothing.
-/

namespace SpecEngine

/-- The specs of all suites. -/
def Catalogue.specs (c : Catalogue) : List Spec :=
  c.suites.flatMap Suite.specs

namespace Session

/-- What can be done to a session. -/
inductive Operation
  | parse (source : String)
  | load (path : String)
  | addMatchers (definitions : List (String × String))
  | register (name : String) (d : Definition)
  | run
  | runSuite (description : String)

namespace Operation

/-- Whether an operation runs suites. -/
def isRun : Operation → Bool
  | run | runSuite _ => true
  | _ => false

/-- The specs that an operation runs if no body fails. -/
def specs (s : Session) : Operation → List Spec
  | run => s.catalogue.specs
  | runSuite description => ((s.catalogue.suite? description).map Suite.specs).getD []
  | _ => []

end Operation

/-- A session is left as it was by what fails as a whole. -/
def orStay (s : Session) : Except SessionError Session → Session × Option SessionError
  | .ok s' => (s', none)
  | .error e => (s, some e)

/-- The session that an operation leaves behind, and how the operation failed. -/
def apply (s : Session) : Operation → Session × Option SessionError
  | .parse source => s.orStay (s.parse source)
  | .load path => s.orStay (s.load path)
  | .addMatchers definitions => s.addMatchers definitions
  | .register name d => s.orStay (s.register name d)
  | .run => s.run
  | .runSuite description => s.runSuite description

/-- The session after operations in a row. -/
def applyAll (s : Session) : List Operation → Session
  | [] => s
  | o :: os => (s.apply o).1.applyAll os

/-- Whether no run in a row of operations fails.  Other operations may fail. -/
def RunsSucceed (s : Session) : List Operation → Prop
  | [] => True
  | o :: os => (o.isRun → (s.apply o).2 = none) ∧ (s.apply o).1.RunsSucceed os

instance decidableRunsSucceed (s : Session) : (os : List Operation) → Decidable (s.RunsSucceed os)
  | [] => inferInstanceAs (Decidable True)
  | o :: os =>
    have := decidableRunsSucceed (s.apply o).1 os
    inferInstanceAs (Decidable ((o.isRun → (s.apply o).2 = none) ∧ (s.apply o).1.RunsSucceed os))

theorem start_eq {config : Config} {sources : Sources} {s : Session}
    (h : start config sources = .ok s) : s.catalogue = [] ∧ s.stats = {} := by
  unfold start at h
  split at h
  · cases h
  · cases h
    exact ⟨rfl, rfl⟩

/-- The counts of a session are kept, and suites are added to its catalogue if anything. -/
def Extends (s s' : Session) : Prop :=
  s'.stats = s.stats ∧
    (s'.catalogue = s.catalogue ∨ ∃ l, s'.catalogue = s.catalogue.merge (.ofContents l))

theorem extends_parse (s : Session) (source : String) :
    Extends s (s.orStay (s.parse source)).1 := by
  unfold parse
  cases hr : Outline.read source.toList with
  | error e => exact ⟨rfl, Or.inl rfl⟩
  | ok c =>
    -- whatever text was read, its suites could have been named and filled one by one
    obtain ⟨l, rfl⟩ := Outline.exists_contents_of_read hr
    exact ⟨rfl, Or.inr ⟨l, rfl⟩⟩

/-- Operations that run nothing extend a session. -/
theorem extends_apply (s : Session) {o : Operation} (ho : o.isRun = false) :
    Extends s (s.apply o).1 := by
  cases o with
  | parse source => exact extends_parse s source
  | load path =>
    rw [apply, load]
    cases s.sources.load path with
    | error e => exact ⟨rfl, Or.inl rfl⟩
    | ok source => exact extends_parse s source
  | addMatchers definitions => exact ⟨rfl, Or.inl rfl⟩
  | register name d =>
    rw [apply, register]
    cases s.engine.registry.register name d with
    | error e => exact ⟨rfl, Or.inl rfl⟩
    | ok registry => exact ⟨rfl, Or.inl rfl⟩
  | run => cases ho
  | runSuite description => cases ho

end Session

end SpecEngine
