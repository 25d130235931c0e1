import SpecEngine.Engine
import SpecEngine.Proofs.Lifecycle

/-!
# What bodies change

A body can do three things: log assertions, bind names, and fail.  Nothing that it does in a
callable shows outside the callable but its value or its failure.

* `Trail.Follows`: a trail that goes on from another one; `follows_evalExpr`,
  `follows_runStatements`: all that evaluation logs was made by its judge, so a hook logs nothing;
* `Reaches`, `ReachesIn`: evaluation comes to an assertion outside callables whose operands
  evaluate; `fails_of_reaches`, `reaches_of_evalExpr`: that is when a hook fails for asserting;
* `Completes`: statements that are run to their end; `find?_of_completes`: they change the scope at
  the names that they bind;
* `run_effects`: a whole body.
-/

namespace SpecEngine

/-! ### What is logged -/

/-- An assertion that a judge makes. -/
def Judge.Makes (judge : Judge) (a : Assertion) : Prop :=
  ∃ matcher actual expected negate, judge matcher actual expected negate = .ok a

/-- A trail goes on from another one: its log has more assertions, which the judge makes. -/
def Trail.Follows (judge : Judge) (t t' : Trail) : Prop :=
  ∃ new, t'.log = t.log ++ new ∧ ∀ a ∈ new, judge.Makes a

namespace Trail.Follows

variable {judge : Judge} {t t' t'' : Trail}

theorem refl (judge : Judge) (t : Trail) : Follows judge t t :=
  ⟨[], by simp, by simp⟩

theorem trans (h : Follows judge t t') (h' : Follows judge t' t'') : Follows judge t t'' := by
  obtain ⟨new, ht, hnew⟩ := h
  obtain ⟨new', ht', hnew'⟩ := h'
  refine ⟨new ++ new', by rw [ht', ht, List.append_assoc], ?_⟩
  intro a ha
  exact (List.mem_append.1 ha).elim (hnew a) (hnew' a)

/-- A judge that makes no assertion adds none. -/
theorem log_eq (hj : ∀ a, ¬ judge.Makes a) (h : Follows judge t t') : t'.log = t.log := by
  obtain ⟨new, ht, hnew⟩ := h
  have hn : new = [] := List.eq_nil_iff_forall_not_mem.2 fun a ha => hj a (hnew a ha)
  rw [ht, hn, List.append_nil]

theorem of_log_eq (h : t'.log = t.log) : Follows judge t t' :=
  ⟨[], by simp [h], by simp⟩

end Trail.Follows

theorem Judge.not_makes_ofCallable (a : Assertion) : ¬ ofCallable.Makes a :=
  fun ⟨_, _, _, _, h⟩ => nomatch h

theorem Judge.not_makes_ofHook (h : Hook) (a : Assertion) : ¬ (ofHook h).Makes a :=
  fun ⟨_, _, _, _, h⟩ => nomatch h

namespace Body

open Trail (Follows)

theorem follows_assert (judge : Judge) (matcher : String) (actual expected : Value) (negate : Bool)
    (t : Trail) : Follows judge t (assert judge matcher actual expected negate t).1 := by
  unfold assert
  cases h : judge matcher actual expected negate with
  | error e => exact .refl judge t
  | ok a => exact ⟨[a], rfl, by simpa using ⟨matcher, actual, expected, negate, h⟩⟩

mutual

theorem follows_evalExpr (judge : Judge) (scope : Scope) (e : Expr) (t : Trail) :
    Follows judge t (evalExpr judge scope e t).1 := by
  cases e with
  | undefined | null | bool | number | string | callable =>
    rw [evalExpr]
    exact .refl judge t
  | name n =>
    rw [evalExpr]
    cases lookup scope n <;> exact .refl judge t
  | list items =>
    have h := follows_evalItems judge scope items t
    rw [evalExpr]
    rcases hr : evalItems judge scope items t with ⟨t₁, e | vs⟩ <;> rw [hr] at h <;> exact h
  | object fields =>
    have h := follows_evalFields judge scope fields t
    rw [evalExpr]
    rcases hr : evalFields judge scope fields t with ⟨t₁, e | fs⟩ <;> rw [hr] at h <;> exact h
  | boxed inner =>
    have h := follows_evalExpr judge scope inner t
    rw [evalExpr]
    rcases hr : evalExpr judge scope inner t with ⟨t₁, e | v⟩ <;> rw [hr] at h <;> exact h
  | property target name =>
    have h := follows_evalExpr judge scope target t
    rw [evalExpr]
    rcases hr : evalExpr judge scope target t with ⟨t₁, e | v⟩ <;> rw [hr] at h <;> exact h
  | call target =>
    have h := follows_evalExpr judge scope target t
    rw [evalExpr]
    rcases hr : evalExpr judge scope target t with ⟨t₁, e | ⟨v, hv⟩⟩
    · rw [hr] at h
      exact h
    · rw [hr] at h
      dsimp only
      split
      · exact h
      · next body captured hc =>
        have hrank := Value.rank_of_closure? hc
        -- whatever the judge outside makes, the callable logs nothing
        have hb := (follows_runStatements .ofCallable captured body t₁).log_eq
          Judge.not_makes_ofCallable
        rcases hs : runStatements .ofCallable captured body t₁ with ⟨t₂, scope₂, e | w⟩ <;>
          rw [hs] at hb <;> exact h.trans (.of_log_eq hb)
  | assertion actual matcher negate expected =>
    have h := follows_evalExpr judge scope actual t
    rw [evalExpr]
    rcases hr : evalExpr judge scope actual t with ⟨t₁, e | ⟨a, ha⟩⟩
    · rw [hr] at h
      exact h
    · have hx := follows_evalExpected judge scope expected t₁
      rw [hr] at h
      dsimp only
      rcases hrx : evalExpected judge scope expected t₁ with ⟨t₂, e | x⟩
      · rw [hrx] at hx
        exact h.trans hx
      · rw [hrx] at hx
        have hj := follows_assert judge matcher a x negate t₂
        dsimp only
        rcases hrj : assert judge matcher a x negate t₂ with ⟨t₃, e | passed⟩ <;>
          rw [hrj] at hj <;> exact (h.trans hx).trans hj
termination_by Value.rankFields scope + e.size
decreasing_by
  all_goals try simp only [Expr.size]
  all_goals omega

theorem follows_evalExpected (judge : Judge) (scope : Scope) (e : Option Expr) (t : Trail) :
    Follows judge t (evalExpected judge scope e t).1 := by
  cases e with
  | none =>
    rw [evalExpected]
    exact .refl judge t
  | some e =>
    have h := follows_evalExpr judge scope e t
    rw [evalExpected]
    rcases hr : evalExpr judge scope e t with ⟨t₁, e | v⟩ <;> rw [hr] at h <;> exact h
termination_by Value.rankFields scope + Expr.sizeExpected e
decreasing_by simp only [Expr.sizeExpected]; omega

theorem follows_evalItems (judge : Judge) (scope : Scope) (items : List Expr) (t : Trail) :
    Follows judge t (evalItems judge scope items t).1 := by
  cases items with
  | nil =>
    rw [evalItems]
    exact .refl judge t
  | cons e es =>
    have h := follows_evalExpr judge scope e t
    rw [evalItems]
    rcases hr : evalExpr judge scope e t with ⟨t₁, e | v⟩
    · rw [hr] at h
      exact h
    · have hs := follows_evalItems judge scope es t₁
      rw [hr] at h
      dsimp only
      rcases hrs : evalItems judge scope es t₁ with ⟨t₂, e | vs⟩ <;> rw [hrs] at hs <;>
        exact h.trans hs
termination_by Value.rankFields scope + Expr.sizeItems items
decreasing_by all_goals simp only [Expr.sizeItems]; omega

theorem follows_evalFields (judge : Judge) (scope : Scope) (fields : List (String × Expr))
    (t : Trail) : Follows judge t (evalFields judge scope fields t).1 := by
  cases fields with
  | nil =>
    rw [evalFields]
    exact .refl judge t
  | cons f fs =>
    obtain ⟨key, e⟩ := f
    have h := follows_evalExpr judge scope e t
    rw [evalFields]
    rcases hr : evalExpr judge scope e t with ⟨t₁, e | v⟩
    · rw [hr] at h
      exact h
    · have hs := follows_evalFields judge scope fs t₁
      rw [hr] at h
      dsimp only
      rcases hrs : evalFields judge scope fs t₁ with ⟨t₂, e | vs⟩ <;> rw [hrs] at hs <;>
        exact h.trans hs
termination_by Value.rankFields scope + Expr.sizeFields fields
decreasing_by all_goals simp only [Expr.sizeFields]; omega

theorem follows_runStatement (judge : Judge) (scope : Scope) (s : Statement) (t : Trail) :
    Follows judge t (runStatement judge scope s t).1 := by
  cases s with
  | bind name e | raise e | expr e =>
    have h := follows_evalExpr judge scope e t
    rw [runStatement]
    rcases hr : evalExpr judge scope e t with ⟨t₁, e | v⟩ <;> rw [hr] at h <;> exact h
termination_by Value.rankFields scope + s.size
decreasing_by all_goals simp only [Statement.size]; omega

theorem follows_runStatements (judge : Judge) (scope : Scope) (body : List Statement) (t : Trail) :
    Follows judge t (runStatements judge scope body t).trail := by
  cases body with
  | nil =>
    rw [runStatements]
    exact .refl judge t
  | cons s rest =>
    have h := follows_runStatement judge scope s t
    rw [runStatements]
    rcases hr : runStatement judge scope s t with ⟨t₁, e | ⟨scope₁, v, hs, hv⟩⟩
    · rw [hr] at h
      exact h
    · rw [hr] at h
      dsimp only
      split
      · exact h
      · exact h.trans (follows_runStatements judge scope₁ rest t₁)
termination_by Value.rankFields scope + Statement.sizeAll body
decreasing_by all_goals simp only [Statement.sizeAll]; omega

end

end Body

/-! ### Assertions that are reached -/

/-- The expression that a statement evaluates. -/
def Statement.operand : Statement → Expr
  | .bind _ e | .raise e | .expr e => e

/-- The name that a statement binds. -/
def Statement.bound? : Statement → Option String
  | .bind name _ => some name
  | _ => none

/-- A judge refuses assertions as those of a hook. -/
def Judge.RefusesFor (judge : Judge) (h : Hook) : Prop :=
  ∃ matcher actual expected negate,
    judge matcher actual expected negate = .error (.assertionInHook h)

theorem Judge.not_refusesFor_ofCallable (h : Hook) : ¬ ofCallable.RefusesFor h :=
  fun ⟨_, _, _, _, h⟩ => nomatch h

namespace Body

section

variable (judge : Judge)

mutual

/-- Evaluating an expression comes to an assertion that stands in no callable, and the operands of
the assertion evaluate. -/
inductive Reaches (scope : Scope) : Expr → Trail → Prop
  | here {actual matcher negate expected t t₁ u a x}
      (ha : evalExpr judge scope actual t = (t₁, .ok a))
      (hx : evalExpected judge scope expected t₁ = (u, .ok x)) :
      Reaches scope (.assertion actual matcher negate expected) t
  | actual {actual matcher negate expected t} (h : Reaches scope actual t) :
      Reaches scope (.assertion actual matcher negate expected) t
  | expected {actual matcher negate e t t₁ a} (ha : evalExpr judge scope actual t = (t₁, .ok a))
      (h : Reaches scope e t₁) : Reaches scope (.assertion actual matcher negate (some e)) t
  | list {items t} (h : ReachesItems scope items t) : Reaches scope (.list items) t
  | object {fields t} (h : ReachesFields scope fields t) : Reaches scope (.object fields) t
  | boxed {inner t} (h : Reaches scope inner t) : Reaches scope (.boxed inner) t
  | property {target name t} (h : Reaches scope target t) : Reaches scope (.property target name) t
  | call {target t} (h : Reaches scope target t) : Reaches scope (.call target) t

/-- One of the items comes to an assertion, and those before it evaluate. -/
inductive ReachesItems (scope : Scope) : List Expr → Trail → Prop
  | head {e es t} (h : Reaches scope e t) : ReachesItems scope (e :: es) t
  | tail {e es t t₁ v} (he : evalExpr judge scope e t = (t₁, .ok v))
      (h : ReachesItems scope es t₁) : ReachesItems scope (e :: es) t

/-- One of the fields comes to an assertion, and those before it evaluate. -/
inductive ReachesFields (scope : Scope) : List (String × Expr) → Trail → Prop
  | head {key e fs t} (h : Reaches scope e t) : ReachesFields scope ((key, e) :: fs) t
  | tail {key e fs t t₁ v} (he : evalExpr judge scope e t = (t₁, .ok v))
      (h : ReachesFields scope fs t₁) : ReachesFields scope ((key, e) :: fs) t

end

/-- One of the statements comes to an assertion, and those before it are run to their end. -/
inductive ReachesIn : Scope → List Statement → Trail → Prop
  | head {scope s rest t} (h : Reaches judge scope s.operand t) : ReachesIn scope (s :: rest) t
  | tail {scope s rest t t₁ step} (hs : runStatement judge scope s t = (t₁, .ok step))
      (h : ReachesIn step.scope rest t₁) : ReachesIn scope (s :: rest) t

end

theorem Run.result_widen_eq_error {m n : Nat} (r : Run m) (h : m ≤ n) (e : BodyError) :
    (r.widen h).result = .error e ↔ r.result = .error e := by
  unfold widen
  cases r.result <;> simp [Except.map]

theorem lookup_ne_assertionInHook {scope : Scope} {name : String} {h : Hook} :
    lookup scope name ≠ .error (.assertionInHook h) := by
  unfold lookup
  split
  · simp
  · cases TypeName.ofText? name <;> simp

theorem refusesFor_of_assert {judge : Judge} {matcher : String} {actual expected : Value}
    {negate : Bool} {t : Trail} {h : Hook}
    (he : (assert judge matcher actual expected negate t).2 = .error (.assertionInHook h)) :
    judge.RefusesFor h := by
  unfold assert at he
  cases hj : judge matcher actual expected negate with
  | ok a => simp [hj] at he
  | error e =>
    rw [hj] at he
    cases he
    exact ⟨matcher, actual, expected, negate, hj⟩

mutual

/-- Only a judge of a hook makes evaluation fail for asserting in a hook, and only at an assertion
that stands in no callable. -/
theorem reaches_of_evalExpr (judge : Judge) (scope : Scope) (e : Expr) (t : Trail) (h : Hook) :
    (evalExpr judge scope e t).2 = .error (.assertionInHook h) →
      judge.RefusesFor h ∧ Reaches judge scope e t := by
  cases e with
  | undefined | null | bool | number | string | callable =>
    intro he
    rw [evalExpr] at he
    cases he
  | name n =>
    intro he
    rw [evalExpr] at he
    rcases hr : lookup scope n with e | v <;> rw [hr] at he <;> cases he
    exact absurd hr lookup_ne_assertionInHook
  | list items =>
    intro he
    rw [evalExpr] at he
    rcases hr : evalItems judge scope items t with ⟨t₁, e | vs⟩ <;> rw [hr] at he <;> cases he
    obtain ⟨hj, hi⟩ := reaches_of_evalItems judge scope items t h (congrArg Prod.snd hr)
    exact ⟨hj, .list hi⟩
  | object fields =>
    intro he
    rw [evalExpr] at he
    rcases hr : evalFields judge scope fields t with ⟨t₁, e | fs⟩ <;> rw [hr] at he <;> cases he
    obtain ⟨hj, hi⟩ := reaches_of_evalFields judge scope fields t h (congrArg Prod.snd hr)
    exact ⟨hj, .object hi⟩
  | boxed inner =>
    intro he
    rw [evalExpr] at he
    rcases hr : evalExpr judge scope inner t with ⟨t₁, e | v⟩ <;> rw [hr] at he <;> cases he
    obtain ⟨hj, hi⟩ := reaches_of_evalExpr judge scope inner t h (congrArg Prod.snd hr)
    exact ⟨hj, .boxed hi⟩
  | property target name =>
    intro he
    rw [evalExpr] at he
    rcases hr : evalExpr judge scope target t with ⟨t₁, e | v⟩ <;> rw [hr] at he <;> cases he
    obtain ⟨hj, hi⟩ := reaches_of_evalExpr judge scope target t h (congrArg Prod.snd hr)
    exact ⟨hj, .property hi⟩
  | call target =>
    intro he
    rw [evalExpr] at he
    rcases hr : evalExpr judge scope target t with ⟨t₁, e | ⟨v, hv⟩⟩
    · rw [hr] at he
      cases he
      obtain ⟨hj, hi⟩ := reaches_of_evalExpr judge scope target t h (congrArg Prod.snd hr)
      exact ⟨hj, .call hi⟩
    · rw [hr] at he
      dsimp only at he
      split at he
      · cases he
      · next body captured hc =>
        have hrank := Value.rank_of_closure? hc
        rcases hs : runStatements .ofCallable captured body t₁ with ⟨t₂, scope₂, e | w⟩ <;>
          rw [hs] at he <;> cases he
        -- a callable has its own error for assertions
        have hb := reaches_of_runStatements .ofCallable captured body t₁ h (congrArg Run.result hs)
        exact absurd hb.1 (Judge.not_refusesFor_ofCallable h)
  | assertion actual matcher negate expected =>
    intro he
    rw [evalExpr] at he
    rcases hr : evalExpr judge scope actual t with ⟨t₁, e | a⟩
    · rw [hr] at he
      cases he
      obtain ⟨hj, hi⟩ := reaches_of_evalExpr judge scope actual t h (congrArg Prod.snd hr)
      exact ⟨hj, .actual hi⟩
    · rw [hr] at he
      dsimp only at he
      rcases hx : evalExpected judge scope expected t₁ with ⟨t₂, e | x⟩
      · rw [hx] at he
        cases he
        obtain ⟨hj, e, rfl, hi⟩ :=
          reaches_of_evalExpected judge scope expected t₁ h (congrArg Prod.snd hx)
        exact ⟨hj, .expected hr hi⟩
      · rw [hx] at he
        dsimp only at he
        rcases hj : assert judge matcher a x negate t₂ with ⟨t₃, e | passed⟩ <;> rw [hj] at he <;>
          cases he
        exact ⟨refusesFor_of_assert (congrArg Prod.snd hj), .here hr hx⟩
termination_by Value.rankFields scope + e.size
decreasing_by
  all_goals try simp only [Expr.size]
  all_goals omega

theorem reaches_of_evalExpected (judge : Judge) (scope : Scope) (expected : Option Expr) (t : Trail)
    (h : Hook) :
    (evalExpected judge scope expected t).2 = .error (.assertionInHook h) →
      judge.RefusesFor h ∧ ∃ e, expected = some e ∧ Reaches judge scope e t := by
  cases expected with
  | none =>
    intro he
    rw [evalExpected] at he
    cases he
  | some e =>
    intro he
    rw [evalExpected] at he
    rcases hr : evalExpr judge scope e t with ⟨t₁, err | v⟩ <;> rw [hr] at he <;> cases he
    obtain ⟨hj, hi⟩ := reaches_of_evalExpr judge scope e t h (congrArg Prod.snd hr)
    exact ⟨hj, e, rfl, hi⟩
termination_by Value.rankFields scope + Expr.sizeExpected expected
decreasing_by simp only [Expr.sizeExpected]; omega

theorem reaches_of_evalItems (judge : Judge) (scope : Scope) (items : List Expr) (t : Trail)
    (h : Hook) :
    (evalItems judge scope items t).2 = .error (.assertionInHook h) →
      judge.RefusesFor h ∧ ReachesItems judge scope items t := by
  cases items with
  | nil =>
    intro he
    rw [evalItems] at he
    cases he
  | cons e es =>
    intro he
    rw [evalItems] at he
    rcases hr : evalExpr judge scope e t with ⟨t₁, err | v⟩
    · rw [hr] at he
      cases he
      obtain ⟨hj, hi⟩ := reaches_of_evalExpr judge scope e t h (congrArg Prod.snd hr)
      exact ⟨hj, .head hi⟩
    · rw [hr] at he
      dsimp only at he
      rcases hs : evalItems judge scope es t₁ with ⟨t₂, err | vs⟩ <;> rw [hs] at he <;> cases he
      obtain ⟨hj, hi⟩ := reaches_of_evalItems judge scope es t₁ h (congrArg Prod.snd hs)
      exact ⟨hj, .tail hr hi⟩
termination_by Value.rankFields scope + Expr.sizeItems items
decreasing_by all_goals simp only [Expr.sizeItems]; omega

theorem reaches_of_evalFields (judge : Judge) (scope : Scope) (fields : List (String × Expr))
    (t : Trail) (h : Hook) :
    (evalFields judge scope fields t).2 = .error (.assertionInHook h) →
      judge.RefusesFor h ∧ ReachesFields judge scope fields t := by
  cases fields with
  | nil =>
    intro he
    rw [evalFields] at he
    cases he
  | cons f fs =>
    intro he
    obtain ⟨key, e⟩ := f
    rw [evalFields] at he
    rcases hr : evalExpr judge scope e t with ⟨t₁, err | v⟩
    · rw [hr] at he
      cases he
      obtain ⟨hj, hi⟩ := reaches_of_evalExpr judge scope e t h (congrArg Prod.snd hr)
      exact ⟨hj, .head hi⟩
    · rw [hr] at he
      dsimp only at he
      rcases hs : evalFields judge scope fs t₁ with ⟨t₂, err | vs⟩ <;> rw [hs] at he <;> cases he
      obtain ⟨hj, hi⟩ := reaches_of_evalFields judge scope fs t₁ h (congrArg Prod.snd hs)
      exact ⟨hj, .tail hr hi⟩
termination_by Value.rankFields scope + Expr.sizeFields fields
decreasing_by all_goals simp only [Expr.sizeFields]; omega

theorem reaches_of_runStatement (judge : Judge) (scope : Scope) (s : Statement) (t : Trail)
    (h : Hook) :
    (runStatement judge scope s t).2 = .error (.assertionInHook h) →
      judge.RefusesFor h ∧ Reaches judge scope s.operand t := by
  cases s with
  | bind name e | raise e | expr e =>
    intro he
    rw [runStatement] at he
    rcases hr : evalExpr judge scope e t with ⟨t₁, err | v⟩ <;> rw [hr] at he <;> cases he
    exact reaches_of_evalExpr judge scope e t h (congrArg Prod.snd hr)
termination_by Value.rankFields scope + s.size
decreasing_by all_goals simp only [Statement.size]; omega

theorem reaches_of_runStatements (judge : Judge) (scope : Scope) (body : List Statement) (t : Trail)
    (h : Hook) :
    (runStatements judge scope body t).result = .error (.assertionInHook h) →
      judge.RefusesFor h ∧ ReachesIn judge scope body t := by
  cases body with
  | nil =>
    intro he
    rw [runStatements] at he
    cases he
  | cons s rest =>
    intro he
    rw [runStatements] at he
    rcases hr : runStatement judge scope s t with ⟨t₁, err | step⟩
    · rw [hr] at he
      cases he
      obtain ⟨hj, hi⟩ := reaches_of_runStatement judge scope s t h (congrArg Prod.snd hr)
      exact ⟨hj, .head hi⟩
    · have hrank := step.rankFields_scope_le
      rw [hr] at he
      dsimp only at he
      split at he
      · cases he
      · obtain ⟨hj, hi⟩ := reaches_of_runStatements judge step.scope rest t₁ h
          ((Run.result_widen_eq_error _ _ _).1 he)
        exact ⟨hj, .tail hr hi⟩
termination_by Value.rankFields scope + Statement.sizeAll body
decreasing_by all_goals simp only [Statement.sizeAll]; omega

end

section

variable {h : Hook} {scope : Scope}

mutual

/-- An assertion that is reached makes a hook fail. -/
theorem fails_of_reaches {e : Expr} {t : Trail} :
    Reaches (.ofHook h) scope e t →
      ∃ t', evalExpr (.ofHook h) scope e t = (t', .error (.assertionInHook h))
  | .here (u := u) ha hx => by
    refine ⟨u, ?_⟩
    rw [evalExpr, ha]
    dsimp only
    rw [hx]
    rfl
  | .actual hr => by
    obtain ⟨t', he⟩ := fails_of_reaches hr
    exact ⟨t', by rw [evalExpr, he]⟩
  | .expected ha hr => by
    obtain ⟨t', he⟩ := fails_of_reaches hr
    refine ⟨t', ?_⟩
    rw [evalExpr, ha]
    dsimp only
    rw [evalExpected, he]
  | .list hr => by
    obtain ⟨t', he⟩ := fails_of_reachesItems hr
    exact ⟨t', by rw [evalExpr, he]⟩
  | .object hr => by
    obtain ⟨t', he⟩ := fails_of_reachesFields hr
    exact ⟨t', by rw [evalExpr, he]⟩
  | .boxed hr | .property hr | .call hr => by
    obtain ⟨t', he⟩ := fails_of_reaches hr
    exact ⟨t', by rw [evalExpr, he]⟩

theorem fails_of_reachesItems {items : List Expr} {t : Trail} :
    ReachesItems (.ofHook h) scope items t →
      ∃ t', evalItems (.ofHook h) scope items t = (t', .error (.assertionInHook h))
  | .head hr => by
    obtain ⟨t', he⟩ := fails_of_reaches hr
    exact ⟨t', by rw [evalItems, he]⟩
  | .tail he hr => by
    obtain ⟨t', hs⟩ := fails_of_reachesItems hr
    refine ⟨t', ?_⟩
    rw [evalItems, he]
    dsimp only
    rw [hs]

theorem fails_of_reachesFields {fields : List (String × Expr)} {t : Trail} :
    ReachesFields (.ofHook h) scope fields t →
      ∃ t', evalFields (.ofHook h) scope fields t = (t', .error (.assertionInHook h))
  | .head hr => by
    obtain ⟨t', he⟩ := fails_of_reaches hr
    exact ⟨t', by rw [evalFields, he]⟩
  | .tail he hr => by
    obtain ⟨t', hs⟩ := fails_of_reachesFields hr
    refine ⟨t', ?_⟩
    rw [evalFields, he]
    dsimp only
    rw [hs]

end

end

theorem fails_of_reachesIn {h : Hook} {scope : Scope} {body : List Statement} {t : Trail}
    (hr : ReachesIn (.ofHook h) scope body t) :
    (runStatements (.ofHook h) scope body t).result = .error (.assertionInHook h) := by
  induction hr with
  | @head scope s rest t hr =>
    obtain ⟨t', he⟩ := fails_of_reaches hr
    have hs : runStatement (.ofHook h) scope s t = (t', .error (.assertionInHook h)) := by
      cases s <;> rw [runStatement] <;> rw [Statement.operand] at he <;> rw [he]
    rw [runStatements, hs]
  | @tail scope s rest t t₁ step hs hr ih =>
    have hrest : ¬ rest.isEmpty = true := by cases hr <;> simp
    rw [runStatements, hs]
    dsimp only
    rw [if_neg hrest, Run.result_widen_eq_error]
    exact ih

/-! ### The scope -/

/-- Statements that are run to their end, from one scope and trail to another. -/
inductive Completes (judge : Judge) : Scope → Trail → List Statement → Scope → Trail → Prop
  | nil (scope t) : Completes judge scope t [] scope t
  | cons {scope t s t₁ step rest scope' t'} (hs : runStatement judge scope s t = (t₁, .ok step))
      (h : Completes judge step.scope t₁ rest scope' t') :
      Completes judge scope t (s :: rest) scope' t'

theorem find?_of_runStatement {judge : Judge} {scope : Scope} {s : Statement} {t t₁ : Trail}
    {step : Step (Value.rankFields scope + s.size)}
    (hs : runStatement judge scope s t = (t₁, .ok step)) {name : String}
    (hn : s.bound? ≠ some name) : Table.find? step.scope name = Table.find? scope name := by
  cases s with
  | bind n e =>
    rw [runStatement] at hs
    rcases he : evalExpr judge scope e t with ⟨t₁, err | v⟩ <;> rw [he] at hs <;> cases hs
    exact Table.find?_upsert_of_ne scope _ fun hne => hn (congrArg some hne.symm)
  | raise e =>
    rw [runStatement] at hs
    rcases he : evalExpr judge scope e t with ⟨t₁, err | v⟩ <;> rw [he] at hs <;> cases hs
  | expr e =>
    rw [runStatement] at hs
    rcases he : evalExpr judge scope e t with ⟨t₁, err | v⟩ <;> rw [he] at hs <;> cases hs
    rfl

/-- Completed statements change the scope at the names that they bind. -/
theorem find?_of_completes {judge : Judge} {scope scope' : Scope} {t t' : Trail}
    {done : List Statement} (h : Completes judge scope t done scope' t') {name : String}
    (hn : name ∉ done.filterMap Statement.bound?) :
    Table.find? scope' name = Table.find? scope name := by
  induction h with
  | nil => rfl
  | @cons scope t s t₁ step rest scope' t' hs h ih =>
    have hhead : s.bound? ≠ some name := fun hb => hn (List.mem_filterMap.2 ⟨s, by simp, hb⟩)
    have hrest : name ∉ rest.filterMap Statement.bound? := by
      intro hm
      obtain ⟨s', hs', hb⟩ := List.mem_filterMap.1 hm
      exact hn (List.mem_filterMap.2 ⟨s', List.mem_cons_of_mem _ hs', hb⟩)
    rw [ih hrest, find?_of_runStatement hs hhead]

/-- A body completes its statements up to the first that fails, and leaves their scope. -/
theorem completes_runStatements (judge : Judge) (scope : Scope) (body : List Statement)
    (t : Trail) :
    ∃ done rest t', body = done ++ rest ∧
      Completes judge scope t done (runStatements judge scope body t).scope t' ∧
      (rest ≠ [] ↔ ∃ e, (runStatements judge scope body t).result = .error e) := by
  induction body generalizing scope t with
  | nil =>
    rw [runStatements]
    exact ⟨[], [], t, rfl, .nil scope t, by simp⟩
  | cons s rest ih =>
    rw [runStatements]
    rcases hs : runStatement judge scope s t with ⟨t₁, err | step⟩
    · exact ⟨[], s :: rest, t, rfl, .nil scope t, by simp⟩
    · dsimp only
      by_cases hrest : rest.isEmpty = true
      · obtain rfl := List.isEmpty_iff.1 hrest
        exact ⟨[s], [], t₁, rfl, .cons hs (.nil step.scope t₁), by simp⟩
      · obtain ⟨done, later, t', rfl, hdone, hlater⟩ := ih step.scope t₁
        rw [if_neg hrest]
        refine ⟨s :: done, later, t', rfl, .cons hs hdone, ?_⟩
        simpa [Run.result_widen_eq_error] using hlater

/-! ### Whole bodies -/

/-- The statements of a body, from its text. -/
def ReadsAs (text : String) (body : List Statement) : Prop :=
  statements (Shorthand.expand text.toList) = .ok body

section

variable {judge : Judge} {text : String} {env : Environment}

/-- A body that cannot be read changes nothing, and it does not fail for asserting. -/
theorem run_of_not_readsAs (judge : Judge) (env : Environment)
    (hb : ∀ body, ¬ ReadsAs text body) :
    ∃ m, run judge text env = { environment := env, failure? := some (.malformed m) } := by
  unfold run
  cases hs : statements (Shorthand.expand text.toList) with
  | ok body => exact absurd hs (hb body)
  | error m => exact ⟨m, rfl⟩

theorem run_of_readsAs (judge : Judge) (env : Environment) {body : List Statement}
    (hb : ReadsAs text body) :
    ∃ r : Run (Value.rankFields env.scope + Statement.sizeAll body),
      r = runStatements judge env.scope body { next := env.next } ∧
      (run judge text env).environment.scope = r.scope ∧
      (run judge text env).log = r.trail.log ∧
      ∀ e, (run judge text env).failure? = some e ↔ r.result = .error e := by
  refine ⟨_, rfl, ?_⟩
  unfold run
  rw [show statements (Shorthand.expand text.toList) = .ok body from hb]
  refine ⟨rfl, rfl, fun e => ?_⟩
  dsimp only
  cases (runStatements judge env.scope body { next := env.next }).result <;> simp

/-- What a body logs was made by its judge. -/
theorem makes_of_mem_log : ∀ a ∈ (run judge text env).log, judge.Makes a := by
  by_cases hb : ∃ body, ReadsAs text body
  · obtain ⟨body, hb⟩ := hb
    obtain ⟨r, hr, -, hlog, -⟩ := run_of_readsAs judge env hb
    obtain ⟨new, ht, hnew⟩ := follows_runStatements judge env.scope body { next := env.next }
    rw [hlog, hr, ht]
    exact hnew
  · obtain ⟨m, hm⟩ := run_of_not_readsAs judge env (not_exists.1 hb)
    simp [hm]

/-- A hook fails for asserting if and only if it comes to an assertion that stands in no callable
and whose operands evaluate. -/
theorem failure?_ofHook_iff {h : Hook} :
    (run (.ofHook h) text env).failure? = some (.assertionInHook h) ↔
      ∃ body, ReadsAs text body ∧ ReachesIn (.ofHook h) env.scope body { next := env.next } := by
  constructor
  · intro hf
    by_cases hb : ∃ body, ReadsAs text body
    · obtain ⟨body, hb⟩ := hb
      obtain ⟨r, rfl, -, -, hfail⟩ := run_of_readsAs (.ofHook h) env hb
      exact ⟨body, hb, (reaches_of_runStatements _ _ _ _ h ((hfail _).1 hf)).2⟩
    · obtain ⟨m, hm⟩ := run_of_not_readsAs (.ofHook h) env (not_exists.1 hb)
      simp [hm] at hf
  · rintro ⟨body, hb, hr⟩
    obtain ⟨r, rfl, -, -, hfail⟩ := run_of_readsAs (.ofHook h) env hb
    exact (hfail _).2 (fails_of_reachesIn hr)

end

/-- The scope behind a body is that behind the statements that it completed, which are all of them
or those before one that failed: it differs from the scope before the body only at the names that
these statements bind.  A body that cannot be read completes nothing. -/
def BindsOnly (judge : Judge) (text : String) (env : Environment) : Prop :=
  ∃ done rest t',
    Completes judge env.scope { next := env.next } done (run judge text env).environment.scope t' ∧
    (ReadsAs text (done ++ rest) ∧ (rest ≠ [] ↔ (run judge text env).failure? ≠ none) ∨
      done = [] ∧ ∀ body, ¬ ReadsAs text body) ∧
    ∀ name ∉ done.filterMap Statement.bound?,
      Table.find? (run judge text env).environment.scope name = Table.find? env.scope name

theorem bindsOnly (judge : Judge) (text : String) (env : Environment) :
    BindsOnly judge text env := by
  by_cases hb : ∃ body, ReadsAs text body
  · obtain ⟨body, hb⟩ := hb
    obtain ⟨r, rfl, hscope, -, hfail⟩ := run_of_readsAs judge env hb
    obtain ⟨done, rest, t', rfl, hdone, hrest⟩ :=
      completes_runStatements judge env.scope body { next := env.next }
    rw [← hscope] at hdone
    refine ⟨done, rest, t', hdone, Or.inl ⟨hb, ?_⟩, fun name hn => find?_of_completes hdone hn⟩
    rw [hrest, Option.ne_none_iff_exists']
    exact exists_congr fun e => (hfail e).symm
  · obtain ⟨m, hm⟩ := run_of_not_readsAs judge env (not_exists.1 hb)
    refine ⟨[], [], { next := env.next }, ?_, Or.inr ⟨rfl, not_exists.1 hb⟩, ?_⟩
    · rw [hm]
      exact .nil _ _
    · intro name _
      rw [hm]

/-- **What a body changes**, whether it fails or not.  As the body of a spec it adds assertions to
the spec, which the registry of the engine made and which are counted as passed or failed, and it
leaves the rest of the spec and of the engine as it was.  As the body of a hook it leaves both as
they were, and fails for asserting if and only if it comes to an assertion outside callables whose
operands evaluate.  In both cases the scope changes only at the names that completed statements of
the body itself bind. -/
theorem run_effects (e : Engine) (s : Spec) (text : String) (env : Environment) :
    (let out := run e.registry.judge text env
     BindsOnly e.registry.judge text env ∧
     ∃ new : List Assertion,
       s.record out.log = { s with assertions := s.assertions ++ new } ∧
       e.count out.log =
         { e with
           stats := { e.stats with
             passes := e.stats.passes + new.countP (·.passed)
             failures := e.stats.failures + new.countP (!·.passed) } } ∧
       ∀ a ∈ new, ∃ matcher actual expected negate,
         e.registry.evaluate matcher actual expected negate = .ok a) ∧
    ∀ h : Hook,
      let out := run (.ofHook h) text env
      BindsOnly (.ofHook h) text env ∧
      s.record out.log = s ∧ e.count out.log = e ∧
      (out.failure? = some (.assertionInHook h) ↔
        ∃ body, ReadsAs text body ∧
          ReachesIn (.ofHook h) env.scope body { next := env.next }) := by
  refine ⟨⟨bindsOnly _ _ _, _, rfl, ?_, ?_⟩, fun h => ?_⟩
  · rw [Engine.count, Stats.countAssertions_eq]
  · intro a ha
    obtain ⟨matcher, actual, expected, negate, hj⟩ := makes_of_mem_log a ha
    refine ⟨matcher, actual, expected, negate, ?_⟩
    unfold Registry.judge at hj
    cases he : e.registry.evaluate matcher actual expected negate with
    | ok b => simpa [he] using hj
    | error err => simp [he] at hj
  · have hlog : (run (.ofHook h) text env).log = [] :=
      List.eq_nil_iff_forall_not_mem.2 fun a ha =>
        Judge.not_makes_ofHook h a (makes_of_mem_log a ha)
    dsimp only
    rw [hlog]
    exact ⟨bindsOnly _ _ _, by simp [Spec.record], rfl, failure?_ofHook_iff⟩

end Body

end SpecEngine
