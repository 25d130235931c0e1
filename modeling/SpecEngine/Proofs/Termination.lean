import Mathlib.Order.Filter.AtTopBot.Basic
import SpecEngine.Engine

/-!
# Bodies come to an end

Bodies evaluated as they are written, without any knowledge of ranks: a call runs the body of the
callable, whatever that is, as long as an allowance of nested calls lasts.  Evaluation that went on
for ever would use up every allowance.

* `evalExpr?`, `runStatements?`: evaluation, given what carries out calls and what judges
  assertions; `call?`: calls with an allowance; `runBodies?`: bodies one after the other;
* `Ends`: what is given with all allowances of a kind; `Answers`: calls and judges that end;
* `ends_evalExpr?`, `ends_runStatements?`: evaluation then ends as well;
* `call?_of_rank_lt`: an allowance above its rank suffices for the call of a value;
* `Procedures`: how predicates of matchers are carried out; `ends_judge?`: judging assertions;
* `runStatements?_terminates`: bodies end if predicates do.
-/

namespace SpecEngine

/-- Judges that may not come to a decision. -/
abbrev PartialJudge := String → Value → Value → Bool → Option (Except BodyError Assertion)

/-- What evaluation gives, or nothing if an allowance was used up. -/
abbrev Attempt (α : Type) := Option (Trail × Except BodyError α)

/-- Goes on with the value that was given; an error is the end. -/
def Attempt.andThen {α β : Type} (x : Attempt α) (f : Trail → α → Attempt β) : Attempt β :=
  match x with
  | none => none
  | some (t, .error e) => some (t, .error e)
  | some (t, .ok a) => f t a

namespace Body

/-! ### Evaluation with an allowance -/

section

variable (call : Value → Trail → Attempt Value) (judge : PartialJudge)

/-- The outcome of an assertion. -/
def assert? (matcher : String) (actual expected : Value) (negate : Bool) (t : Trail) :
    Attempt Bool :=
  (judge matcher actual expected negate).map fun decision =>
    match decision with
    | .error e => (t, .error e)
    | .ok a => (t.record a, .ok a.passed)

mutual

/-- The value of an expression. -/
def evalExpr? (scope : Scope) : Expr → Trail → Attempt Value
  | .undefined, t => some (t, .ok .undefined)
  | .null, t => some (t, .ok .null)
  | .bool b, t => some (t, .ok (.bool b))
  | .number n, t => some (t, .ok (.number n.toFloat))
  | .string s, t => some (t, .ok (.string s))
  | .list items, t =>
    (evalItems? scope items t).andThen fun t vs => some (t.number, .ok (.list t.next vs))
  | .object fields, t =>
    (evalFields? scope fields t).andThen fun t fs =>
      some (t.number, .ok (.object t.next (Table.ofList fs)))
  | .boxed inner, t => (evalExpr? scope inner t).andThen fun t v => some (t, .ok (.boxed v))
  | .name n, t => some (t, (lookup scope n).map Subtype.val)
  | .callable source body, t => some (t.number, .ok (.callable t.next source body scope))
  | .property target name, t =>
    (evalExpr? scope target t).andThen fun t v => some (t, .ok (v.property name))
  | .call target, t => (evalExpr? scope target t).andThen fun t v => call v t
  | .assertion actual matcher negate expected, t =>
    (evalExpr? scope actual t).andThen fun t a =>
      (evalExpected? scope expected t).andThen fun t x =>
        (assert? judge matcher a x negate t).andThen fun t passed => some (t, .ok (.bool passed))

/-- Evaluates the expected value of an assertion, which may be missing. -/
def evalExpected? (scope : Scope) : Option Expr → Trail → Attempt Value
  | none, t => some (t, .ok .undefined)
  | some e, t => evalExpr? scope e t

/-- Evaluates the items of a list one after the other. -/
def evalItems? (scope : Scope) : List Expr → Trail → Attempt (List Value)
  | [], t => some (t, .ok [])
  | e :: es, t =>
    (evalExpr? scope e t).andThen fun t v =>
      (evalItems? scope es t).andThen fun t vs => some (t, .ok (v :: vs))

/-- Evaluates the fields of an object one after the other. -/
def evalFields? (scope : Scope) : List (String × Expr) → Trail → Attempt (List (String × Value))
  | [], t => some (t, .ok [])
  | (key, e) :: es, t =>
    (evalExpr? scope e t).andThen fun t v =>
      (evalFields? scope es t).andThen fun t fs => some (t, .ok ((key, v) :: fs))

end

/-- The scope behind a statement and its value. -/
def runStatement? (scope : Scope) (s : Statement) (t : Trail) : Attempt (Scope × Value) :=
  match s with
  | .bind name e =>
    (evalExpr? call judge scope e t).andThen fun t v =>
      some (t, .ok (Table.set scope name v, .undefined))
  | .raise e =>
    (evalExpr? call judge scope e t).andThen fun t v => some (t, .error (.raised v.text))
  | .expr e => (evalExpr? call judge scope e t).andThen fun t v => some (t, .ok (scope, v))

/-- Runs statements up to the first that fails. -/
def runStatements? : Scope → List Statement → Trail →
    Option (Trail × Scope × Except BodyError Value)
  | scope, [], t => some (t, scope, .ok .undefined)
  | scope, s :: rest, t =>
    match runStatement? call judge scope s t with
    | none => none
    | some (t, .error e) => some (t, scope, .error e)
    | some (t, .ok (scope', v)) =>
      if rest.isEmpty then some (t, scope', .ok v) else runStatements? scope' rest t

end

/-- Calls a value.  Each call that is made within the call has a smaller allowance. -/
def call? : Nat → Value → Trail → Attempt Value
  | 0, _, _ => none
  | n + 1, v, t =>
    match v.closure? with
    | none => some (t, .error (.notCallable v.text))
    | some (body, captured) =>
      (runStatements? (call? n) (fun _ _ _ _ => some (.error .assertionInCallable)) captured body
        t).map fun r => (r.1, r.2.2)

/-- Runs bodies one after the other, each in the scope that the one before it left, with a judge for
hooks and specs. -/
def runBodies? (call : Value → Trail → Attempt Value) (judge : Option Hook → PartialJudge) :
    Environment → List (Option Hook × List Statement) → Option Environment
  | env, [] => some env
  | env, (hook?, body) :: rest =>
    match runStatements? call (judge hook?) env.scope body { next := env.next } with
    | none => none
    | some (t, scope, _) => runBodies? call judge ⟨scope, t.next⟩ rest

/-- Whether calling a value fails. -/
def fails? (n : Nat) (v : Value) : Option Bool :=
  (call? n v { next := 0 }).map fun r => !r.2.isOk

/-! ### What evaluation ends with -/

/-- What is given without the bounds of ranks. -/
def unranked {α : Type} {p : α → Prop} (r : Trail × Except BodyError { a : α // p a }) :
    Trail × Except BodyError α :=
  (r.1, r.2.map Subtype.val)

/-- What a run leaves behind, without its bound. -/
def Run.unranked {n : Nat} (r : Run n) : Trail × Scope × Except BodyError Value :=
  (r.trail, r.scope, r.result.map Subtype.val)

theorem Run.unranked_widen {m n : Nat} (r : Run m) (h : m ≤ n) :
    (r.widen h).unranked = r.unranked := by
  unfold widen unranked
  cases r.result <;> rfl

/-- What the call of a value comes to. -/
def callValue (v : Value) (t : Trail) : Trail × Except BodyError Value :=
  match v.closure? with
  | none => (t, .error (.notCallable v.text))
  | some (body, captured) =>
    match runStatements .ofCallable captured body t with
    | ⟨t, _, result⟩ => (t, result.map Subtype.val)

/-- The environment that bodies leave which are run one after the other. -/
def runBodies (judge : Option Hook → Judge) (env : Environment) :
    List (Option Hook × List Statement) → Environment
  | [] => env
  | (hook?, body) :: rest =>
    let r := runStatements (judge hook?) env.scope body { next := env.next }
    runBodies judge ⟨r.scope, r.trail.next⟩ rest

/-- `f` gives `a` with all allowances of a kind, such as all large ones. -/
def Ends {α : Type} (l : Filter Nat) (f : Nat → Option α) (a : α) : Prop :=
  ∀ᶠ n in l, f n = some a

namespace Ends

variable {α β : Type} {l : Filter Nat} {f : Nat → Attempt α} {g : Nat → Trail → α → Attempt β}
  {t : Trail}

theorem always (l : Filter Nat) {f : Nat → Option α} {a : α} (h : ∀ n, f n = some a) :
    Ends l f a :=
  Filter.Eventually.of_forall h

theorem andThen {a : α} {b : Trail × Except BodyError β} (hf : Ends l f (t, .ok a))
    (hg : Ends l (fun n => g n t a) b) : Ends l (fun n => (f n).andThen (g n)) b := by
  filter_upwards [hf, hg] with n hn hb
  rw [hn]
  exact hb

theorem andThen_error {e : BodyError} (hf : Ends l f (t, .error e)) :
    Ends l (fun n => (f n).andThen (g n)) (t, .error e) := by
  filter_upwards [hf] with n hn
  rw [hn]
  rfl

end Ends

/-- Calls of values whose rank is below `bound` end, and all assertions are judged. -/
structure Answers (l : Filter Nat) (call : Nat → Value → Trail → Attempt Value)
    (judge? : Nat → PartialJudge) (judge : Judge) (bound : Nat) : Prop where
  call : ∀ v t, v.rank < bound → Ends l (fun n => call n v t) (callValue v t)
  judge : ∀ matcher actual expected negate,
    Ends l (fun n => judge? n matcher actual expected negate)
      (judge matcher actual expected negate)

section

variable {l : Filter Nat} {call : Nat → Value → Trail → Attempt Value} {judge? : Nat → PartialJudge}
  {judge : Judge} {bound : Nat}

theorem ends_assert? (ha : Answers l call judge? judge bound) (matcher : String)
    (actual expected : Value) (negate : Bool) (t : Trail) :
    Ends l (fun n => assert? (judge? n) matcher actual expected negate t)
      (assert judge matcher actual expected negate t) := by
  unfold Ends assert? assert
  filter_upwards [ha.judge matcher actual expected negate] with n hn
  rw [hn]
  cases judge matcher actual expected negate <;> rfl

mutual

/-- An expression is evaluated to its end if `bound` exceeds its size and the ranks of the values
that it sees. -/
theorem ends_evalExpr? (ha : Answers l call judge? judge bound) (scope : Scope) (e : Expr)
    (t : Trail) (h : Value.rankFields scope + e.size < bound) :
    Ends l (fun n => evalExpr? (call n) (judge? n) scope e t)
      (unranked (evalExpr judge scope e t)) := by
  cases e with
  | undefined | null | bool | number | string | callable =>
    rw [evalExpr]
    exact .always l fun _ => rfl
  | name n =>
    rw [evalExpr]
    refine .always l fun _ => ?_
    rw [evalExpr?]
    cases lookup scope n <;> rfl
  | list items =>
    have hi := ends_evalItems? ha scope items t (by simp only [Expr.size] at h; omega)
    rw [evalExpr]
    rcases hr : evalItems judge scope items t with ⟨t₁, e | vs⟩ <;> rw [hr] at hi
    · exact hi.andThen_error
    · exact hi.andThen (.always l fun _ => rfl)
  | object fields =>
    have hf := ends_evalFields? ha scope fields t (by simp only [Expr.size] at h; omega)
    rw [evalExpr]
    rcases hr : evalFields judge scope fields t with ⟨t₁, e | fs⟩ <;> rw [hr] at hf
    · exact hf.andThen_error
    · exact hf.andThen (.always l fun _ => rfl)
  | boxed inner =>
    have hi := ends_evalExpr? ha scope inner t (by simp only [Expr.size] at h; omega)
    rw [evalExpr]
    rcases hr : evalExpr judge scope inner t with ⟨t₁, e | v⟩ <;> rw [hr] at hi
    · exact hi.andThen_error
    · exact hi.andThen (.always l fun _ => rfl)
  | property target name =>
    have ht := ends_evalExpr? ha scope target t (by simp only [Expr.size] at h; omega)
    rw [evalExpr]
    rcases hr : evalExpr judge scope target t with ⟨t₁, e | v⟩ <;> rw [hr] at ht
    · exact ht.andThen_error
    · exact ht.andThen (.always l fun _ => rfl)
  | call target =>
    have ht := ends_evalExpr? ha scope target t (by simp only [Expr.size] at h; omega)
    rw [evalExpr]
    rcases hr : evalExpr judge scope target t with ⟨t₁, e | ⟨v, hv⟩⟩ <;> rw [hr] at ht
    · exact ht.andThen_error
    · -- what is called has at most the rank of the expression, whatever body it brings with it
      have hc := ha.call v t₁ (by simp only [Expr.size] at h; omega)
      refine ht.andThen ?_
      dsimp only
      split
      · next hn =>
        rw [callValue, hn] at hc
        exact hc
      · next body captured hn =>
        rw [callValue, hn] at hc
        dsimp only at hc
        rcases hs : runStatements .ofCallable captured body t₁ with ⟨t₂, scope₂, e | w⟩ <;>
          rw [hs] at hc <;> exact hc
  | assertion actual matcher negate expected =>
    have hactual := ends_evalExpr? ha scope actual t (by simp only [Expr.size] at h; omega)
    rw [evalExpr]
    rcases hr : evalExpr judge scope actual t with ⟨t₁, e | ⟨a, hrank⟩⟩ <;> rw [hr] at hactual
    · exact hactual.andThen_error
    · have hx := ends_evalExpected? ha scope expected t₁ (by simp only [Expr.size] at h; omega)
      refine hactual.andThen ?_
      dsimp only
      rcases hrx : evalExpected judge scope expected t₁ with ⟨t₂, e | x⟩ <;> rw [hrx] at hx
      · exact hx.andThen_error
      · have hj := ends_assert? ha matcher a x negate t₂
        refine hx.andThen ?_
        dsimp only
        rcases hrj : assert judge matcher a x negate t₂ with ⟨t₃, e | passed⟩ <;> rw [hrj] at hj
        · exact hj.andThen_error
        · exact hj.andThen (.always l fun _ => rfl)

theorem ends_evalExpected? (ha : Answers l call judge? judge bound) (scope : Scope)
    (e : Option Expr) (t : Trail) (h : Value.rankFields scope + Expr.sizeExpected e < bound) :
    Ends l (fun n => evalExpected? (call n) (judge? n) scope e t)
      (evalExpected judge scope e t) := by
  cases e with
  | none =>
    rw [evalExpected]
    exact .always l fun _ => rfl
  | some e =>
    have he := ends_evalExpr? ha scope e t (by simp only [Expr.sizeExpected] at h; omega)
    rw [evalExpected]
    rcases hr : evalExpr judge scope e t with ⟨t₁, e | v⟩ <;> rw [hr] at he <;> exact he

theorem ends_evalItems? (ha : Answers l call judge? judge bound) (scope : Scope)
    (items : List Expr) (t : Trail) (h : Value.rankFields scope + Expr.sizeItems items < bound) :
    Ends l (fun n => evalItems? (call n) (judge? n) scope items t)
      (unranked (evalItems judge scope items t)) := by
  cases items with
  | nil =>
    rw [evalItems]
    exact .always l fun _ => rfl
  | cons e es =>
    have he := ends_evalExpr? ha scope e t (by simp only [Expr.sizeItems] at h; omega)
    rw [evalItems]
    rcases hr : evalExpr judge scope e t with ⟨t₁, e | v⟩ <;> rw [hr] at he
    · exact he.andThen_error
    · have hs := ends_evalItems? ha scope es t₁ (by simp only [Expr.sizeItems] at h; omega)
      refine he.andThen ?_
      dsimp only
      rcases hrs : evalItems judge scope es t₁ with ⟨t₂, e | vs⟩ <;> rw [hrs] at hs
      · exact hs.andThen_error
      · exact hs.andThen (.always l fun _ => rfl)

theorem ends_evalFields? (ha : Answers l call judge? judge bound) (scope : Scope)
    (fields : List (String × Expr)) (t : Trail)
    (h : Value.rankFields scope + Expr.sizeFields fields < bound) :
    Ends l (fun n => evalFields? (call n) (judge? n) scope fields t)
      (unranked (evalFields judge scope fields t)) := by
  cases fields with
  | nil =>
    rw [evalFields]
    exact .always l fun _ => rfl
  | cons f fs =>
    obtain ⟨key, e⟩ := f
    have he := ends_evalExpr? ha scope e t (by simp only [Expr.sizeFields] at h; omega)
    rw [evalFields]
    rcases hr : evalExpr judge scope e t with ⟨t₁, e | v⟩ <;> rw [hr] at he
    · exact he.andThen_error
    · have hs := ends_evalFields? ha scope fs t₁ (by simp only [Expr.sizeFields] at h; omega)
      refine he.andThen ?_
      dsimp only
      rcases hrs : evalFields judge scope fs t₁ with ⟨t₂, e | vs⟩ <;> rw [hrs] at hs
      · exact hs.andThen_error
      · exact hs.andThen (.always l fun _ => rfl)

end

theorem ends_runStatement? (ha : Answers l call judge? judge bound) (scope : Scope) (s : Statement)
    (t : Trail) (h : Value.rankFields scope + s.size < bound) :
    Ends l (fun n => runStatement? (call n) (judge? n) scope s t)
      ((runStatement judge scope s t).map id
        (Except.map fun step => (step.scope, step.value))) := by
  cases s with
  | bind name e | raise e | expr e =>
    have he := ends_evalExpr? ha scope e t (by simp only [Statement.size] at h; omega)
    rw [runStatement]
    rcases hr : evalExpr judge scope e t with ⟨t₁, e | v⟩ <;> rw [hr] at he
    · exact he.andThen_error
    · exact he.andThen (.always l fun _ => rfl)

/-- Statements are run to their end. -/
theorem ends_runStatements? (ha : Answers l call judge? judge bound) (scope : Scope)
    (body : List Statement) (t : Trail)
    (h : Value.rankFields scope + Statement.sizeAll body < bound) :
    Ends l (fun n => runStatements? (call n) (judge? n) scope body t)
      (runStatements judge scope body t).unranked := by
  induction body generalizing scope t with
  | nil =>
    rw [runStatements]
    exact .always l fun _ => rfl
  | cons s rest ih =>
    have hs := ends_runStatement? ha scope s t (by simp only [Statement.sizeAll] at h; omega)
    rw [runStatements]
    simp only [runStatements?]
    rcases hr : runStatement judge scope s t with ⟨t₁, e | ⟨scope₁, v, hscope, hv⟩⟩ <;>
      rw [hr] at hs
    · filter_upwards [hs] with n hn
      rw [hn]
      rfl
    · cases rest with
      | nil =>
        filter_upwards [hs] with n hn
        rw [hn]
        rfl
      | cons s' rest =>
        have hrank : Value.rankFields scope₁ + Statement.sizeAll (s' :: rest) ≤
            Value.rankFields scope + Statement.sizeAll (s :: s' :: rest) := by
          simp only [Statement.sizeAll]
          omega
        have hrest := ih scope₁ t₁ (by omega)
        rw [← Run.unranked_widen _ hrank] at hrest
        filter_upwards [hs, hrest] with n hn hm
        rw [hn]
        exact hm

end

/-- An allowance above its rank suffices for the call of a value. -/
theorem call?_of_rank_lt {n : Nat} {v : Value} (h : v.rank < n) (t : Trail) :
    call? n v t = some (callValue v t) := by
  induction n generalizing v t with
  | zero => omega
  | succ n ih =>
    rw [call?, callValue]
    cases hc : v.closure? with
    | none => rfl
    | some closure =>
      obtain ⟨body, captured⟩ := closure
      have hrank := Value.rank_of_closure? hc
      have ha : Answers (pure n) call? (fun _ _ _ _ _ => some (.error .assertionInCallable))
          .ofCallable n :=
        ⟨fun v t hv => Filter.eventually_pure.2 (ih hv t), fun _ _ _ _ => .always _ fun _ => rfl⟩
      have hrun := Filter.eventually_pure.1 (ends_runStatements? ha captured body t (by omega))
      simp only [hrun]
      rfl

/-- Statements are run to their end with each large allowance, if assertions are judged. -/
theorem ends_runStatements?_call? {judge? : Nat → PartialJudge} {judge : Judge}
    (h : ∀ matcher actual expected negate,
      Ends Filter.atTop (fun n => judge? n matcher actual expected negate)
        (judge matcher actual expected negate))
    (scope : Scope) (body : List Statement) (t : Trail) :
    Ends Filter.atTop (fun n => runStatements? (call? n) (judge? n) scope body t)
      (runStatements judge scope body t).unranked := by
  have ha : Answers Filter.atTop call? judge? judge
      (Value.rankFields scope + Statement.sizeAll body + 1) := by
    refine ⟨fun v t _ => ?_, h⟩
    filter_upwards [Filter.eventually_gt_atTop v.rank] with n hn
    exact call?_of_rank_lt hn t
  exact ends_runStatements? ha scope body t (Nat.lt_succ_self _)

/-- A callable that calls another one needs more than one call. -/
example : call? 1 (.callable 0 "" [.expr (.call (.callable "" []))] []) ⟨0, []⟩ = none := rfl

theorem isOk_callValue (v : Value) : (callValue v { next := 0 }).2.isOk = !v.fails := by
  cases v with
  | callable id source body scope =>
    unfold callValue Value.fails
    simp only [Value.closure?]
    rcases runStatements .ofCallable scope body { next := 0 } with ⟨t, _, _ | _⟩ <;> rfl
  | _ => rfl

theorem fails?_of_rank_lt {n : Nat} {v : Value} (h : v.rank < n) : fails? n v = some v.fails := by
  rw [fails?, call?_of_rank_lt h, Option.map_some, isOk_callValue, Bool.not_not]

end Body

/-! ### Predicates that are carried out -/

/-- How the predicates of matchers are carried out, given an allowance of nested calls. -/
abbrev Procedures := (Value → Value → Bool) → Nat → Value → Value → Option Bool

/-- The predicate of `throw_error`. -/
def Standard.throws : Value → Value → Bool := fun _ actual => actual.fails

/-- Whether a rule holds, if its predicate comes to an end. -/
def Rule.holds? (run : Procedures) (n : Nat) (r : Rule) (expected actual : Value) : Option Bool :=
  match r with
  | .operator o => some (o.apply actual expected)
  | .formula _ f => some (f.holds expected actual)
  | .predicate p _ => run p n expected actual

/-- Judges the assertions of specs. -/
def Registry.judge? (r : Registry) (run : Procedures) (n : Nat) : PartialJudge :=
  fun matcher actual expected negate =>
    match r.resolve matcher with
    | .error e => some (.error (.matcher e))
    | .ok rule =>
      (rule.holds? run n expected.unboxed actual.unboxed).map fun holds =>
        .ok {
          matcher, negate
          actual := actual.unboxed
          expected := expected.unboxed
          passed := holds != negate
          message := (rule.message? expected.unboxed actual.unboxed negate).getD
            (Assertion.sentence matcher actual.unboxed expected.unboxed negate) }

/-- The judge of hooks, or of specs. -/
def Registry.judgeOf (r : Registry) : Option Hook → Judge
  | none => r.judge
  | some h => .ofHook h

/-- The judge of hooks, or of specs, with an allowance of nested calls. -/
def Registry.judgeOf? (r : Registry) (run : Procedures) (n : Nat) : Option Hook → PartialJudge
  | none => r.judge? run n
  | some h => fun _ _ _ _ => some (.error (.assertionInHook h))

/-- `throw_error` is carried out by calling; all other predicates of a registry come to an end. -/
structure Procedures.Terminate (run : Procedures) (r : Registry) : Prop where
  throws : ∀ n expected actual, run Standard.throws n expected actual = Body.fails? n actual
  others : ∀ matcher p message?, r.resolve matcher = .ok (.predicate p message?) →
    p ≠ Standard.throws → ∀ expected actual, ∃ n, ∀ m, n ≤ m →
      run p m expected actual = some (p expected actual)

open Classical in
/-- Predicates that are carried out at once, and `throw_error`. -/
noncomputable def Procedures.direct : Procedures := fun p n expected actual =>
  if p = Standard.throws then Body.fails? n actual else some (p expected actual)

theorem Procedures.terminate_direct (r : Registry) : direct.Terminate r where
  throws _ _ _ := if_pos rfl
  others _ _ _ _ hp _ _ := ⟨0, fun _ _ => if_neg hp⟩

namespace Body

open Filter (atTop)

theorem ends_judge? {run : Procedures} {r : Registry} (h : run.Terminate r) (matcher : String)
    (actual expected : Value) (negate : Bool) :
    Ends atTop (fun n => r.judge? run n matcher actual expected negate)
      (r.judge matcher actual expected negate) := by
  unfold Ends Registry.judge? Registry.judge Registry.evaluate
  cases hr : r.resolve matcher with
  | error e => exact .of_forall fun _ => rfl
  | ok rule =>
    cases rule with
    | operator o => exact .of_forall fun _ => rfl
    | formula source f => exact .of_forall fun _ => rfl
    | predicate p message? =>
      have hp : Ends atTop (fun n => run p n expected.unboxed actual.unboxed)
          (p expected.unboxed actual.unboxed) := by
        by_cases hthrows : p = Standard.throws
        · subst hthrows
          filter_upwards [Filter.eventually_gt_atTop actual.unboxed.rank] with n hn
          rw [h.throws]
          exact fails?_of_rank_lt hn
        · exact Filter.eventually_atTop.2 (h.others matcher p message? hr hthrows _ _)
      filter_upwards [hp] with n hn
      simp only [Rule.holds?, hn]
      rfl

theorem ends_judgeOf? {run : Procedures} {r : Registry} (h : run.Terminate r)
    (hook? : Option Hook) (matcher : String) (actual expected : Value) (negate : Bool) :
    Ends atTop (fun n => r.judgeOf? run n hook? matcher actual expected negate)
      (r.judgeOf hook? matcher actual expected negate) := by
  cases hook? with
  | none => exact ends_judge? h matcher actual expected negate
  | some hook => exact .always _ fun _ => rfl

/-- The statements of specs and hooks are run to their end. -/
theorem ends_body? {run : Procedures} {r : Registry} (h : run.Terminate r) (hook? : Option Hook)
    (scope : Scope) (body : List Statement) (t : Trail) :
    Ends atTop (fun n => runStatements? (call? n) (r.judgeOf? run n hook?) scope body t)
      (runStatements (r.judgeOf hook?) scope body t).unranked :=
  ends_runStatements?_call? (ends_judgeOf? h hook?) scope body t

theorem ends_runBodies? {run : Procedures} {r : Registry} (h : run.Terminate r) (env : Environment)
    (bodies : List (Option Hook × List Statement)) :
    Ends atTop (fun n => runBodies? (call? n) (r.judgeOf? run n) env bodies)
      (runBodies r.judgeOf env bodies) := by
  induction bodies generalizing env with
  | nil => exact .always _ fun _ => rfl
  | cons b rest ih =>
    obtain ⟨hook?, body⟩ := b
    -- the scope that a body leaves is one like any other
    filter_upwards [ends_body? h hook? env.scope body { next := env.next }, ih _] with n hn hrest
    rw [runBodies?, hn]
    exact hrest

/-- **Bodies come to an end**, if the predicates of matchers do: the statements of specs and hooks
are run to their end in all scopes, and so are bodies that are run one after the other, and all
calls of values, with any allowance that exceeds the rank of the value. -/
theorem runStatements?_terminates {run : Procedures} {r : Registry} (h : run.Terminate r) :
    (∀ hook? scope body t, ∃ n, ∀ m, n ≤ m →
      runStatements? (call? m) (r.judgeOf? run m hook?) scope body t =
        some (runStatements (r.judgeOf hook?) scope body t).unranked) ∧
    (∀ env bodies, ∃ n, ∀ m, n ≤ m →
      runBodies? (call? m) (r.judgeOf? run m) env bodies = some (runBodies r.judgeOf env bodies)) ∧
    (∀ v t n, v.rank < n → call? n v t = some (callValue v t)) ∧
    ∀ v n, v.rank < n → fails? n v = some v.fails := by
  refine ⟨fun hook? scope body t => ?_, fun env bodies => ?_, ?_, ?_⟩
  · exact Filter.eventually_atTop.1 (ends_body? h hook? scope body t)
  · exact Filter.eventually_atTop.1 (ends_runBodies? h env bodies)
  · exact fun v t n hv => call?_of_rank_lt hv t
  · exact fun v n hv => fails?_of_rank_lt hv

/-- A name is bound to a callable that calls what the name was bound to before, and that fails. -/
theorem runStatements?_terminates_rebound :
    let body : List Statement := [
      .bind "f" (.callable "-> \x7b raise 'a' \x7d" [.raise (.string "a")]),
      .bind "f" (.callable "-> \x7b f() \x7d" [.expr (.call (.name "f"))]),
      .expr (.assertion (.name "f") "throw_error" false none)]
    Procedures.direct.Terminate Standard.registry ∧
      ∃ n, ∀ m, n ≤ m →
        (runStatements? (call? m) (Standard.registry.judgeOf? .direct m none) [] body ⟨0, []⟩).map
          (fun r => r.1.log.map (·.passed)) = some [true] := by
  intro body
  have h := Procedures.terminate_direct Standard.registry
  obtain ⟨n, hn⟩ := (runStatements?_terminates h).1 none [] body ⟨0, []⟩
  refine ⟨h, n, fun m hm => ?_⟩
  rw [hn m hm]
  unfold body
  decide +kernel

end Body

end SpecEngine
