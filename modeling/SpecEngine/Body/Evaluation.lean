import SpecEngine.Assertion
import SpecEngine.Body.Error
import SpecEngine.Body.Shorthand
import SpecEngine.Value.Text

/-!
# Evaluating bodies

A body runs its statements in the scope of a suite.  It changes the scope, numbers the values that
it makes, and logs the assertions it makes; a judge decides what an assertion comes to.  A callable
keeps the bindings of the place where it was made, runs in its own copy of them, and may not
assert.

* `evalExpr`, `runStatements`: what expressions and statements give;
* `Body.run`: a body, from its text;
* `Value.fails`: whether calling a value fails.

Evaluation always ends.  A name can only lead to a callable that was made before, and the rank of
a callable exceeds all that its body can need: `evalExpr` returns its value with the proof that the
rank of the value is at most the rank of the scope and the size of the expression together, and
that bound goes down with every call.
-/

namespace SpecEngine

/-- What decides on an assertion: of a matcher, the actual and the expected value, and whether it
is negated. -/
abbrev Judge := String → Value → Value → Bool → Except BodyError Assertion

/-- Callables may not assert. -/
def Judge.ofCallable : Judge := fun _ _ _ _ => .error .assertionInCallable

/-- What evaluation leaves behind: the next number for a value, and the assertions made. -/
structure Trail where
  next : Nat
  log : List Assertion := []

namespace Trail

/-- Passes over the number that was given to a value. -/
def number (t : Trail) : Trail :=
  { t with next := t.next + 1 }

/-- Logs an assertion behind those that were made. -/
def record (t : Trail) (a : Assertion) : Trail :=
  { t with log := t.log ++ [a] }

end Trail

/-- A value whose rank is at most `n`. -/
abbrev Ranked (n : Nat) := { v : Value // v.rank ≤ n }

namespace Body

/-- What a name stands for: a binding, or else a type. -/
def lookup (scope : Scope) (name : String) : Except BodyError (Ranked (Value.rankFields scope)) :=
  match h : Table.find? scope name with
  | some v => .ok ⟨v, Value.rank_find?_le h⟩
  | none =>
    match TypeName.ofText? name with
    | some t => .ok ⟨.type t, by simp [Value.rank]⟩
    | none => .error (.unknownName name)

/-- The outcome of an assertion. -/
def assert (judge : Judge) (matcher : String) (actual expected : Value) (negate : Bool)
    (t : Trail) : Trail × Except BodyError Bool :=
  match judge matcher actual expected negate with
  | .error e => (t, .error e)
  | .ok a => (t.record a, .ok a.passed)

/-- What statements leave behind: the trail, the scope, and the value of the last one, whose rank
is at most `n`. -/
structure Run (n : Nat) where
  trail : Trail
  scope : Scope
  result : Except BodyError (Ranked n)

/-- What one statement leaves behind: the scope and its value, whose ranks are at most `n`. -/
structure Step (n : Nat) where
  scope : Scope
  value : Value
  rankFields_scope_le : Value.rankFields scope ≤ n
  rank_value_le : value.rank ≤ n

/-- What a run leaves behind, with a larger bound. -/
def Run.widen {m n : Nat} (r : Run m) (h : m ≤ n) : Run n :=
  ⟨r.trail, r.scope, r.result.map fun v => ⟨v.1, Nat.le_trans v.2 h⟩⟩

mutual

/-- The value of an expression. -/
def evalExpr (judge : Judge) (scope : Scope) (e : Expr) (t : Trail) :
    Trail × Except BodyError (Ranked (Value.rankFields scope + e.size)) :=
  match e with
  | .undefined => (t, .ok ⟨.undefined, by simp [Value.rank]⟩)
  | .null => (t, .ok ⟨.null, by simp [Value.rank]⟩)
  | .bool b => (t, .ok ⟨.bool b, by simp [Value.rank]⟩)
  | .number n => (t, .ok ⟨.number n.toFloat, by simp [Value.rank]⟩)
  | .string s => (t, .ok ⟨.string s, by simp [Value.rank]⟩)
  | .list items =>
    match evalItems judge scope items t with
    | (t, .error e) => (t, .error e)
    | (t, .ok ⟨vs, h⟩) => (t.number, .ok ⟨.list t.next vs, by simp [Value.rank, Expr.size]; omega⟩)
  | .object fields =>
    match evalFields judge scope fields t with
    | (t, .error e) => (t, .error e)
    | (t, .ok ⟨fs, h⟩) =>
      (t.number, .ok ⟨.object t.next (Table.ofList fs), by
        have := Value.rankFields_ofList_le fs
        simp [Value.rank, Expr.size]; omega⟩)
  | .boxed inner =>
    match evalExpr judge scope inner t with
    | (t, .error e) => (t, .error e)
    | (t, .ok ⟨v, h⟩) => (t, .ok ⟨.boxed v, by simp [Value.rank, Expr.size]; omega⟩)
  | .name n =>
    match lookup scope n with
    | .error e => (t, .error e)
    | .ok ⟨v, h⟩ => (t, .ok ⟨v, by omega⟩)
  | .callable source body =>
    (t.number, .ok ⟨.callable t.next source body scope, by simp [Value.rank, Expr.size]; omega⟩)
  | .property target name =>
    match evalExpr judge scope target t with
    | (t, .error e) => (t, .error e)
    | (t, .ok ⟨v, h⟩) => (t, .ok ⟨v.property name, by
        have := Value.rank_property_le v name
        simp [Expr.size]; omega⟩)
  | .call target =>
    match evalExpr judge scope target t with
    | (t, .error e) => (t, .error e)
    | (t, .ok ⟨v, h⟩) =>
      match hc : v.closure? with
      | none => (t, .error (.notCallable v.text))
      | some (body, captured) =>
        have hr := Value.rank_of_closure? hc
        match runStatements .ofCallable captured body t with
        | ⟨t, _, .error e⟩ => (t, .error e)
        | ⟨t, _, .ok ⟨w, hw⟩⟩ => (t, .ok ⟨w, by simp only [Expr.size]; omega⟩)
  | .assertion actual matcher negate expected =>
    match evalExpr judge scope actual t with
    | (t, .error e) => (t, .error e)
    | (t, .ok ⟨a, _⟩) =>
      match evalExpected judge scope expected t with
      | (t, .error e) => (t, .error e)
      | (t, .ok x) =>
        match assert judge matcher a x negate t with
        | (t, .error e) => (t, .error e)
        | (t, .ok passed) => (t, .ok ⟨.bool passed, by simp [Value.rank]⟩)
termination_by Value.rankFields scope + e.size
decreasing_by
  all_goals try simp only [Expr.size]
  all_goals omega

/-- The expected value of an assertion; a missing one is undefined. -/
def evalExpected (judge : Judge) (scope : Scope) (e : Option Expr) (t : Trail) :
    Trail × Except BodyError Value :=
  match e with
  | none => (t, .ok .undefined)
  | some e =>
    match evalExpr judge scope e t with
    | (t, .error e) => (t, .error e)
    | (t, .ok ⟨v, _⟩) => (t, .ok v)
termination_by Value.rankFields scope + Expr.sizeExpected e
decreasing_by simp only [Expr.sizeExpected]; omega

/-- The values of expressions, from left to right. -/
def evalItems (judge : Judge) (scope : Scope) (items : List Expr) (t : Trail) :
    Trail × Except BodyError
      { vs : List Value // Value.rankItems vs ≤ Value.rankFields scope + Expr.sizeItems items } :=
  match items with
  | [] => (t, .ok ⟨[], by simp [Value.rankItems]⟩)
  | e :: es =>
    match evalExpr judge scope e t with
    | (t, .error e) => (t, .error e)
    | (t, .ok ⟨v, h⟩) =>
      match evalItems judge scope es t with
      | (t, .error e) => (t, .error e)
      | (t, .ok ⟨vs, hs⟩) => (t, .ok ⟨v :: vs, by simp [Value.rankItems, Expr.sizeItems]; omega⟩)
termination_by Value.rankFields scope + Expr.sizeItems items
decreasing_by all_goals simp only [Expr.sizeItems]; omega

/-- The values of fields, from left to right. -/
def evalFields (judge : Judge) (scope : Scope) (fields : List (String × Expr)) (t : Trail) :
    Trail × Except BodyError
      { fs : List (String × Value) //
        Value.rankFields fs ≤ Value.rankFields scope + Expr.sizeFields fields } :=
  match fields with
  | [] => (t, .ok ⟨[], by simp [Value.rankFields]⟩)
  | (key, e) :: es =>
    match evalExpr judge scope e t with
    | (t, .error e) => (t, .error e)
    | (t, .ok ⟨v, h⟩) =>
      match evalFields judge scope es t with
      | (t, .error e) => (t, .error e)
      | (t, .ok ⟨fs, hs⟩) =>
        (t, .ok ⟨(key, v) :: fs, by simp [Value.rankFields, Expr.sizeFields]; omega⟩)
termination_by Value.rankFields scope + Expr.sizeFields fields
decreasing_by all_goals simp only [Expr.sizeFields]; omega

/-- The value of a statement and the scope behind it. -/
def runStatement (judge : Judge) (scope : Scope) (s : Statement) (t : Trail) :
    Trail × Except BodyError (Step (Value.rankFields scope + s.size)) :=
  match s with
  | .bind name e =>
    match evalExpr judge scope e t with
    | (t, .error e) => (t, .error e)
    | (t, .ok ⟨v, h⟩) => (t, .ok ⟨Table.set scope name v, .undefined, by
        have := Value.rankFields_set_le scope name v
        simp only [Statement.size]; omega, by simp [Value.rank]⟩)
  | .raise e =>
    match evalExpr judge scope e t with
    | (t, .error e) => (t, .error e)
    | (t, .ok ⟨v, _⟩) => (t, .error (.raised v.text))
  | .expr e =>
    match evalExpr judge scope e t with
    | (t, .error e) => (t, .error e)
    | (t, .ok ⟨v, h⟩) => (t, .ok ⟨scope, v, by omega, by simp only [Statement.size]; omega⟩)
termination_by Value.rankFields scope + s.size
decreasing_by all_goals simp only [Statement.size]; omega

/-- Runs statements up to the first that fails. -/
def runStatements (judge : Judge) (scope : Scope) (body : List Statement) (t : Trail) :
    Run (Value.rankFields scope + Statement.sizeAll body) :=
  match body with
  | [] => ⟨t, scope, .ok ⟨.undefined, by simp [Value.rank]⟩⟩
  | s :: rest =>
    match runStatement judge scope s t with
    | (t, .error e) => ⟨t, scope, .error e⟩
    | (t, .ok ⟨scope', v, hs, hv⟩) =>
      -- the value of a body is the value of its last statement
      if rest.isEmpty then ⟨t, scope', .ok ⟨v, by simp only [Statement.sizeAll]; omega⟩⟩
      else (runStatements judge scope' rest t).widen (by simp only [Statement.sizeAll]; omega)
termination_by Value.rankFields scope + Statement.sizeAll body
decreasing_by
  · simp only [Statement.sizeAll]; omega
  · simp only [Statement.sizeAll]; omega

end

end Body

/-- The bindings of a suite, and the next number for a value. -/
structure Environment where
  scope : Scope := []
  next : Nat := 0

/-- What a body leaves behind: the environment, the assertions made, and how it failed. -/
structure Body.Outcome where
  environment : Environment
  log : List Assertion := []
  failure? : Option BodyError := none

/-- Runs a body.  One that cannot be read changes nothing. -/
def Body.run (judge : Judge) (body : String) (env : Environment) : Outcome :=
  match statements (Shorthand.expand body.toList) with
  | .error m => { environment := env, failure? := some (.malformed m) }
  | .ok body =>
    let r := runStatements judge env.scope body { next := env.next }
    { environment := ⟨r.scope, r.trail.next⟩
      log := r.trail.log
      failure? :=
        match r.result with
        | .ok _ => none
        | .error e => some e }

/-- Whether calling a value fails.  What cannot be called fails. -/
def Value.fails : Value → Bool
  | .callable _ _ body scope =>
    match (Body.runStatements .ofCallable scope body { next := 0 }).result with
    | .ok _ => false
    | .error _ => true
  | _ => true

end SpecEngine
