import SpecEngine.Proofs.Effects
import SpecEngine.Proofs.Termination

/-!
# Asserting that a call fails

`throw_error` calls its actual value, with numbers of its own, to see whether the call fails.  What
a call comes to does not depend on the numbers of values, so the matcher sees what a call in the
place of the assertion comes to.  All failures count, not only those that a callable asks for.

* `Value.unnumbered`: values apart from their numbers, and what they tell of the values;
* `Attempt.Agrees`: attempts that come to the same; `agrees_evalExpr?`, `agrees_result?`: in
  callables, evaluation agrees if calls do;
* `callsAgree_call?`, `callValue_agrees`: calls agree; `evalExpr_call_fails_iff`: so `Value.fails`
  tells whether a call fails, wherever it is made;
* `runStatements_append`: statements behind those that are run to their end;
* `run_throws`: an assertion of a body that a call fails.
-/

namespace SpecEngine

namespace Value

/-! ### Values apart from their numbers -/

mutual

/-- A value, with all numbers forgotten. -/
def unnumbered : Value → Value
  | .list _ items => .list 0 (unnumberedItems items)
  | .object _ fs => .object 0 (unnumberedFields fs)
  | .boxed v => .boxed v.unnumbered
  | .callable _ source body scope => .callable 0 source body (unnumberedFields scope)
  | .undefined => .undefined
  | .null => .null
  | .bool b => .bool b
  | .number x => .number x
  | .string s => .string s
  | .type t => .type t

/-- The items of a list, with all numbers forgotten. -/
def unnumberedItems : List Value → List Value
  | [] => []
  | v :: vs => v.unnumbered :: unnumberedItems vs

/-- The fields of an object, with all numbers forgotten. -/
def unnumberedFields : List (String × Value) → List (String × Value)
  | [] => []
  | (k, v) :: fs => (k, v.unnumbered) :: unnumberedFields fs

end

theorem find?_unnumberedFields (fs : Scope) (name : String) :
    Table.find? (unnumberedFields fs) name = (Table.find? fs name).map unnumbered := by
  induction fs with
  | nil => rfl
  | cons f fs ih =>
    obtain ⟨k, v⟩ := f
    rw [unnumberedFields, Table.find?_cons, Table.find?_cons, ih]
    split <;> rfl

theorem unnumberedFields_set (fs : Scope) (name : String) (v : Value) :
    unnumberedFields (Table.set fs name v) = Table.set (unnumberedFields fs) name v.unnumbered := by
  unfold Table.set
  induction fs with
  | nil => rfl
  | cons f fs ih =>
    obtain ⟨k, w⟩ := f
    rw [unnumberedFields, Table.upsert, Table.upsert]
    split
    · rfl
    · rw [unnumberedFields, ih]

theorem unnumberedFields_ofList (fs : List (String × Value)) :
    unnumberedFields (Table.ofList fs) = Table.ofList (unnumberedFields fs) := by
  suffices h : ∀ t : Scope, unnumberedFields (fs.foldl (fun t e => Table.set t e.1 e.2) t) =
      (unnumberedFields fs).foldl (fun t e => Table.set t e.1 e.2) (unnumberedFields t) from h []
  induction fs with
  | nil => exact fun _ => rfl
  | cons f fs ih =>
    intro t
    rw [List.foldl_cons, ih, unnumberedFields_set]
    rfl

theorem length_unnumberedItems (items : List Value) :
    (unnumberedItems items).length = items.length := by
  induction items with
  | nil => rfl
  | cons v vs ih => rw [unnumberedItems, List.length_cons, List.length_cons, ih]

theorem getElem?_unnumberedItems (items : List Value) (i : Nat) :
    (unnumberedItems items)[i]? = items[i]?.map unnumbered := by
  induction items generalizing i with
  | nil => rfl
  | cons v vs ih =>
    cases i with
    | zero => rfl
    | succ i => simpa [unnumberedItems] using ih i

mutual

theorem text_unnumbered (v : Value) : v.unnumbered.text = v.text := by
  cases v with
  | list id items => rw [unnumbered, text, text, itemTexts_unnumbered items]
  | boxed v => rw [unnumbered, text, text, text_unnumbered v]
  | _ => rfl

theorem itemTexts_unnumbered (items : List Value) :
    itemTexts (unnumberedItems items) = itemTexts items := by
  cases items with
  | nil => rfl
  | cons v vs =>
    have hv := text_unnumbered v
    have hvs := itemTexts_unnumbered vs
    cases v <;> simp only [unnumbered, unnumberedItems, itemTexts] at hv ⊢ <;> simp only [hv, hvs]

end

theorem text_eq_of_unnumbered {v v' : Value} (h : v.unnumbered = v'.unnumbered) :
    v.text = v'.text := by
  rw [← text_unnumbered v, h, text_unnumbered]

theorem length?_unnumbered (v : Value) : v.unnumbered.length? = v.length? := by
  cases v with
  | list id items => rw [unnumbered, length?, length?, length_unnumberedItems]
  | boxed v => exact length?_unnumbered v
  | _ => rfl

theorem constructor?_unnumbered (v : Value) : v.unnumbered.constructor? = v.constructor? := by
  cases v with
  | boxed v => exact constructor?_unnumbered v
  | _ => rfl

theorem unnumbered_intrinsic (v : Value) (name : String) :
    (intrinsic v name).unnumbered = intrinsic v.unnumbered name := by
  unfold intrinsic
  rw [length?_unnumbered, constructor?_unnumbered]
  split
  · cases v.length? <;> rfl
  · split
    · cases v.constructor? <;> rfl
    · rfl

theorem unnumbered_property (v : Value) (name : String) :
    (v.property name).unnumbered = v.unnumbered.property name := by
  cases v with
  | object id fs =>
    simp only [unnumbered, property, find?_unnumberedFields]
    cases Table.find? fs name with
    | none => exact unnumbered_intrinsic (.object id fs) name
    | some v => rfl
  | list id items =>
    simp only [unnumbered, property]
    cases indexOfName? name with
    | none => exact unnumbered_intrinsic (.list id items) name
    | some i =>
      simp only [getElem?_unnumberedItems]
      cases items[i]? <;> rfl
  | boxed v => exact unnumbered_property v name
  | _ => exact unnumbered_intrinsic _ name

theorem closure?_unnumbered (v : Value) :
    v.unnumbered.closure? = v.closure?.map (Prod.map id unnumberedFields) := by
  cases v <;> rfl

end Value

/-! ### Attempts that come to the same -/

/-- Two attempts come to the same, seen through `f`: the same error, the same value, or nothing.
Their trails may differ. -/
def Attempt.Agrees {α β : Type} (f : α → β) (x y : Attempt α) : Prop :=
  x.map (fun r => r.2.map f) = y.map (fun r => r.2.map f)

theorem Attempt.Agrees.ok {α β : Type} {f : α → β} {a b : α} (h : f a = f b) (t t' : Trail) :
    Agrees f (some (t, .ok a)) (some (t', .ok b)) :=
  congrArg (fun c => some (Except.ok c : Except BodyError β)) h

theorem Attempt.Agrees.andThen {α β α' β' : Type} {f : α → β} {f' : α' → β'} {x y : Attempt α}
    {g h : Trail → α → Attempt α'} (hxy : Agrees f x y)
    (hgh : ∀ t t' a b, f a = f b → Agrees f' (g t a) (h t' b)) :
    Agrees f' (x.andThen g) (y.andThen h) := by
  unfold Agrees at hxy
  rcases x with _ | ⟨t, e | a⟩ <;> rcases y with _ | ⟨t', e' | b⟩ <;>
    simp only [Option.map_none, Option.map_some, Except.map, reduceCtorEq, Option.some.injEq,
      Except.error.injEq, Except.ok.injEq] at hxy
  · rfl
  · exact hxy ▸ rfl
  · exact hgh t t' a b hxy

/-- Calls come to the same, whatever the numbers of the value that is called. -/
def CallsAgree (call : Value → Trail → Attempt Value) : Prop :=
  ∀ v v' t t', v.unnumbered = v'.unnumbered →
    Attempt.Agrees Value.unnumbered (call v t) (call v' t')

namespace Body

open Attempt (Agrees)
open Value (unnumbered unnumberedItems unnumberedFields)

/-! ### Evaluation in callables -/

theorem map_val_lookup (scope : Scope) (name : String) :
    (lookup scope name).map Subtype.val =
      match Table.find? scope name with
      | some v => .ok v
      | none =>
        match TypeName.ofText? name with
        | some t => .ok (.type t)
        | none => .error (.unknownName name) := by
  unfold lookup
  split
  · next v hv =>
    simp only [hv]
    rfl
  · next hn =>
    simp only [hn]
    cases TypeName.ofText? name <;> rfl

theorem unnumbered_lookup (scope : Scope) (name : String) :
    ((lookup scope name).map Subtype.val).map unnumbered =
      (lookup (unnumberedFields scope) name).map Subtype.val := by
  rw [map_val_lookup, map_val_lookup, Value.find?_unnumberedFields]
  cases Table.find? scope name with
  | some v => rfl
  | none => cases TypeName.ofText? name <;> rfl

/-- The judge of callables. -/
def refuse? : PartialJudge := fun _ _ _ _ => some (.error .assertionInCallable)

section

variable {call : Value → Trail → Attempt Value} {scope scope' : Scope}

mutual

/-- Evaluation in callables agrees if calls do. -/
theorem agrees_evalExpr? (hcall : CallsAgree call)
    (hs : unnumberedFields scope = unnumberedFields scope') (e : Expr) (t t' : Trail) :
    Agrees unnumbered (evalExpr? call refuse? scope e t) (evalExpr? call refuse? scope' e t') := by
  cases e with
  | undefined | null | bool | number | string => exact rfl
  | list items =>
    refine (agrees_evalItems? hcall hs items t t').andThen fun u u' vs vs' h => .ok ?_ _ _
    rw [unnumbered, unnumbered, h]
  | object fields =>
    refine (agrees_evalFields? hcall hs fields t t').andThen fun u u' fs fs' h => .ok ?_ _ _
    rw [unnumbered, unnumbered, Value.unnumberedFields_ofList, h, Value.unnumberedFields_ofList]
  | boxed inner =>
    refine (agrees_evalExpr? hcall hs inner t t').andThen fun u u' v v' h => .ok ?_ _ _
    rw [unnumbered, unnumbered, h]
  | name n =>
    refine congrArg some ?_
    dsimp only
    rw [unnumbered_lookup, unnumbered_lookup, hs]
  | callable source body =>
    refine .ok ?_ _ _
    rw [unnumbered, unnumbered, hs]
  | property target name =>
    refine (agrees_evalExpr? hcall hs target t t').andThen fun u u' v v' h => .ok ?_ _ _
    rw [Value.unnumbered_property, h, Value.unnumbered_property]
  | call target =>
    exact (agrees_evalExpr? hcall hs target t t').andThen fun u u' v v' h => hcall v v' u u' h
  | assertion actual matcher negate expected =>
    refine (agrees_evalExpr? hcall hs actual t t').andThen fun u u' _ _ _ => ?_
    -- whatever the operands are, the assertion is refused
    exact (agrees_evalExpected? hcall hs expected u u').andThen fun _ _ _ _ _ => rfl

theorem agrees_evalExpected? (hcall : CallsAgree call)
    (hs : unnumberedFields scope = unnumberedFields scope') (e : Option Expr) (t t' : Trail) :
    Agrees unnumbered (evalExpected? call refuse? scope e t)
      (evalExpected? call refuse? scope' e t') := by
  cases e with
  | none => exact rfl
  | some e => exact agrees_evalExpr? hcall hs e t t'

theorem agrees_evalItems? (hcall : CallsAgree call)
    (hs : unnumberedFields scope = unnumberedFields scope') (items : List Expr) (t t' : Trail) :
    Agrees unnumberedItems (evalItems? call refuse? scope items t)
      (evalItems? call refuse? scope' items t') := by
  cases items with
  | nil => exact rfl
  | cons e es =>
    refine (agrees_evalExpr? hcall hs e t t').andThen fun u u' v v' h => ?_
    refine (agrees_evalItems? hcall hs es u u').andThen fun w w' vs vs' hvs => .ok ?_ _ _
    rw [unnumberedItems, unnumberedItems, h, hvs]

theorem agrees_evalFields? (hcall : CallsAgree call)
    (hs : unnumberedFields scope = unnumberedFields scope') (fields : List (String × Expr))
    (t t' : Trail) :
    Agrees unnumberedFields (evalFields? call refuse? scope fields t)
      (evalFields? call refuse? scope' fields t') := by
  cases fields with
  | nil => exact rfl
  | cons f fs =>
    obtain ⟨key, e⟩ := f
    refine (agrees_evalExpr? hcall hs e t t').andThen fun u u' v v' h => ?_
    refine (agrees_evalFields? hcall hs fs u u').andThen fun w w' fs fs' hfs => .ok ?_ _ _
    rw [unnumberedFields, unnumberedFields, h, hfs]

end

theorem agrees_runStatement? (hcall : CallsAgree call)
    (hs : unnumberedFields scope = unnumberedFields scope') (s : Statement) (t t' : Trail) :
    Agrees (Prod.map unnumberedFields unnumbered) (runStatement? call refuse? scope s t)
      (runStatement? call refuse? scope' s t') := by
  cases s with
  | bind name e =>
    refine (agrees_evalExpr? hcall hs e t t').andThen fun u u' v v' h => .ok ?_ _ _
    simp only [Prod.map, Value.unnumberedFields_set, hs, h]
  | raise e =>
    refine (agrees_evalExpr? hcall hs e t t').andThen fun u u' v v' h => ?_
    rw [Value.text_eq_of_unnumbered h]
    rfl
  | expr e =>
    refine (agrees_evalExpr? hcall hs e t t').andThen fun u u' v v' h => .ok ?_ _ _
    simp only [Prod.map, hs, h]

end

/-- What the body of a callable comes to. -/
def result? (call : Value → Trail → Attempt Value) (scope : Scope) (body : List Statement)
    (t : Trail) : Attempt Value :=
  (runStatements? call refuse? scope body t).map fun r => (r.1, r.2.2)

theorem result?_cons (call : Value → Trail → Attempt Value) (scope : Scope) (s : Statement)
    (rest : List Statement) (t : Trail) :
    result? call scope (s :: rest) t =
      (runStatement? call refuse? scope s t).andThen fun t r =>
        if rest.isEmpty then some (t, .ok r.2) else result? call r.1 rest t := by
  unfold result?
  rw [runStatements?]
  rcases runStatement? call refuse? scope s t with _ | ⟨u, e | ⟨scope', v⟩⟩
  · rfl
  · rfl
  · dsimp only [Attempt.andThen]
    split <;> rfl

theorem agrees_result? {call : Value → Trail → Attempt Value} (hcall : CallsAgree call)
    {scope scope' : Scope} (hs : unnumberedFields scope = unnumberedFields scope')
    (body : List Statement) (t t' : Trail) :
    Agrees unnumbered (result? call scope body t) (result? call scope' body t') := by
  induction body generalizing scope scope' t t' with
  | nil => exact rfl
  | cons s rest ih =>
    rw [result?_cons, result?_cons]
    refine (agrees_runStatement? hcall hs s t t').andThen fun u u' r r' h => ?_
    obtain ⟨hscope, hv⟩ := Prod.mk.inj h
    split
    · exact .ok hv u u'
    · exact ih hscope u u'

/-! ### Calls -/

/-- Calls agree, with any allowance. -/
theorem callsAgree_call? (n : Nat) : CallsAgree (call? n) := by
  induction n with
  | zero => exact fun _ _ _ _ _ => rfl
  | succ n ih =>
    intro v v' t t' h
    have hc := congrArg Value.closure? h
    rw [Value.closure?_unnumbered, Value.closure?_unnumbered] at hc
    rw [call?, call?]
    rcases hv : v.closure? with _ | ⟨body, scope⟩ <;>
      rcases hv' : v'.closure? with _ | ⟨body', scope'⟩ <;>
      rw [hv, hv'] at hc <;>
      simp only [Option.map_none, Option.map_some, reduceCtorEq, Option.some.injEq, Prod.map, id,
        Prod.mk.injEq] at hc
    · dsimp only
      rw [Value.text_eq_of_unnumbered h]
      rfl
    · obtain ⟨rfl, hs⟩ := hc
      exact agrees_result? ih hs body t t'

/-- What a call comes to does not depend on where it is made. -/
theorem callValue_agrees (v : Value) (t t' : Trail) :
    (callValue v t).2.map unnumbered = (callValue v t').2.map unnumbered := by
  have h := callsAgree_call? (v.rank + 1) v v t t' rfl
  rw [call?_of_rank_lt (Nat.lt_succ_self _), call?_of_rank_lt (Nat.lt_succ_self _)] at h
  exact Option.some.inj h

theorem isOk_callValue_eq (v : Value) (t : Trail) : (callValue v t).2.isOk = !v.fails := by
  have hmap : ∀ x : Except BodyError Value, (x.map unnumbered).isOk = x.isOk := by
    intro x
    cases x <;> rfl
  rw [← isOk_callValue v, ← hmap, callValue_agrees v t { next := 0 }, hmap]

/-- The value of a call is what the value that is called gives. -/
theorem unranked_evalExpr_call {judge : Judge} {scope : Scope} {e : Expr} {t t₁ : Trail}
    {v : Ranked (Value.rankFields scope + e.size)} (he : evalExpr judge scope e t = (t₁, .ok v)) :
    unranked (evalExpr judge scope (.call e) t) = callValue v.1 t₁ := by
  obtain ⟨v, hv⟩ := v
  rw [evalExpr, he, callValue]
  dsimp only
  split
  · next hc =>
    rw [hc]
    rfl
  · next body captured hc =>
    simp only [hc]
    rcases runStatements .ofCallable captured body t₁ with ⟨t₂, scope₂, err | w⟩ <;> rfl

/-- `Value.fails` tells whether a call fails, wherever it is made. -/
theorem evalExpr_call_fails_iff {judge : Judge} {scope : Scope} {e : Expr} {t t₁ : Trail}
    {v : Ranked (Value.rankFields scope + e.size)} (he : evalExpr judge scope e t = (t₁, .ok v)) :
    (∃ err, (evalExpr judge scope (.call e) t).2 = .error err) ↔ v.1.fails = true := by
  have hok := isOk_callValue_eq v.1 t₁
  rw [← unranked_evalExpr_call he] at hok
  rcases hr : evalExpr judge scope (.call e) t with ⟨t₂, err | w⟩ <;> rw [hr] at hok
  · have hfails : false = !v.1.fails := hok
    simpa using hfails
  · have hfails : true = !v.1.fails := hok
    simpa using hfails

/-! ### Statements that are run to their end -/

theorem Completes.append {judge : Judge} {scope scope' scope'' : Scope} {t t' t'' : Trail}
    {done later : List Statement} (h : Completes judge scope t done scope' t')
    (h' : Completes judge scope' t' later scope'' t'') :
    Completes judge scope t (done ++ later) scope'' t'' := by
  induction h with
  | nil => exact h'
  | cons hs _ ih => exact .cons hs (ih h')

/-- Statements come to the same behind others that are run to their end. -/
theorem runStatements_append {judge : Judge} {scope scope' : Scope} {t t' : Trail}
    {done : List Statement} (h : Completes judge scope t done scope' t') (rest : List Statement) :
    (runStatements judge scope (done ++ rest) t).trail =
      (runStatements judge scope' rest t').trail ∧
    ∀ e, (runStatements judge scope (done ++ rest) t).result = .error e ↔
      (runStatements judge scope' rest t').result = .error e := by
  induction h with
  | nil => exact ⟨rfl, fun _ => Iff.rfl⟩
  | @cons scope t s t₁ step later scope' t' hs h ih =>
    rw [List.cons_append, runStatements, hs]
    dsimp only
    split
    · next hempty =>
      obtain ⟨rfl, rfl⟩ := List.append_eq_nil_iff.1 (List.isEmpty_iff.1 hempty)
      cases h
      rw [runStatements]
      simp
    · refine ⟨ih.1, fun e => ?_⟩
      rw [Run.result_widen_eq_error]
      exact ih.2 e

/-! ### Assertions that a call fails -/

/-- An assertion that is judged leaves its outcome in the trail. -/
theorem completes_assertion {judge : Judge} {scope : Scope} {e : Expr} {t t₁ : Trail}
    {v : Ranked (Value.rankFields scope + e.size)} {matcher : String} {negate : Bool}
    {a : Assertion} (he : evalExpr judge scope e t = (t₁, .ok v))
    (ha : judge matcher v.1 .undefined negate = .ok a) :
    Completes judge scope t [.expr (.assertion e matcher negate none)] scope (t₁.record a) := by
  have hassert : assert judge matcher v.1 .undefined negate t₁ = (t₁.record a, .ok a.passed) := by
    rw [assert, ha]
  have hs : ∃ step, step.scope = scope ∧
      runStatement judge scope (.expr (.assertion e matcher negate none)) t =
        (t₁.record a, .ok step) := by
    rw [runStatement, evalExpr, he]
    dsimp only
    rw [evalExpected]
    dsimp only
    rw [hassert]
    exact ⟨_, rfl, rfl⟩
  obtain ⟨step, hscope, hs⟩ := hs
  refine .cons hs ?_
  rw [hscope]
  exact .nil _ _

end Body

/-- What the judge of specs makes of an assertion that a call fails. -/
theorem Registry.judge_throws {r : Registry} {matcher : String}
    {message? : Option (Value → Value → Bool → String)}
    (hm : r.resolve matcher = .ok (.predicate Standard.throws message?)) (actual expected : Value)
    (negate : Bool) :
    ∃ a, r.judge matcher actual expected negate = .ok a ∧ a.matcher = matcher ∧
      a.actual = actual.unboxed ∧ a.negate = negate ∧
      a.passed = (actual.unboxed.fails != negate) := by
  unfold judge evaluate
  rw [hm]
  exact ⟨_, rfl, rfl, rfl, rfl, rfl⟩

namespace Body

/-- **An assertion that a call fails** is recorded by a body that comes to it, for a value in no
box, and the body goes on behind it.  Whatever the call of the value fails with, the assertion
passes if the call fails and it is not negated, or if the call does not fail and it is negated.  So
if the call can fail only by raising, raising is what counts. -/
theorem run_throws {r : Registry} {text matcher : String}
    {message? : Option (Value → Value → Bool → String)} {env : Environment}
    {done rest : List Statement} {e : Expr} {negate : Bool} {scope : Scope} {t t₁ : Trail}
    {v : Ranked (Value.rankFields scope + e.size)}
    (hm : r.resolve matcher = .ok (.predicate Standard.throws message?))
    (hb : ReadsAs text (done ++ .expr (.assertion e matcher negate none) :: rest))
    (hdone : Completes r.judge env.scope { next := env.next } done scope t)
    (he : evalExpr r.judge scope e t = (t₁, .ok v)) (hv : v.1.unboxed = v.1) :
    let call := (evalExpr r.judge scope (.call e) t).2
    ∃ a later,
      a.matcher = matcher ∧ a.actual = v.1 ∧ a.negate = negate ∧
      (run r.judge text env).log = t₁.log ++ a :: later ∧
      (∀ err, (run r.judge text env).failure? = some err ↔
        (runStatements r.judge scope rest (t₁.record a)).result = .error err) ∧
      (a.passed = true ↔ ((∃ err, call = .error err) ↔ negate = false)) ∧
      ((∀ err, call = .error err → ∃ message, err = .raised message) →
        (a.passed = true ↔ ((∃ message, call = .error (.raised message)) ↔ negate = false))) := by
  intro call
  obtain ⟨a, hj, hmatcher, hactual, hnegate, hpassed⟩ := r.judge_throws hm v.1 .undefined negate
  rw [hv] at hactual hpassed
  have hcall : (∃ err, call = .error err) ↔ v.1.fails = true := evalExpr_call_fails_iff he
  have hpasses : a.passed = true ↔ ((∃ err, call = .error err) ↔ negate = false) := by
    rw [hcall, hpassed]
    cases v.1.fails <;> cases negate <;> decide
  obtain ⟨out, hout, -, hlog, hfailure⟩ := run_of_readsAs r.judge env hb
  have hall := hdone.append (completes_assertion he hj)
  obtain ⟨htrail, hresult⟩ := runStatements_append hall rest
  obtain ⟨later, hlater, -⟩ := follows_runStatements r.judge scope rest (t₁.record a)
  rw [List.append_assoc, List.singleton_append] at htrail hresult
  refine ⟨a, later, hmatcher, hactual, hnegate, ?_, fun err => ?_, hpasses, fun hraises => ?_⟩
  · rw [hlog, hout, htrail, hlater, Trail.record, List.append_assoc, List.singleton_append]
  · rw [hfailure, hout, hresult]
  · have hraised : (∃ err, call = .error err) ↔ ∃ message, call = .error (.raised message) := by
      constructor
      · rintro ⟨err, herr⟩
        obtain ⟨message, rfl⟩ := hraises err herr
        exact ⟨message, herr⟩
      · rintro ⟨message, hmessage⟩
        exact ⟨_, hmessage⟩
    rw [hpasses, hraised]

/-- A callable that calls another one, which raises. -/
theorem run_throws_nested :
    let text := "-> \x7b -> \x7b raise 'bad' \x7d() \x7d.should_throw_error()"
    let callable : Expr := .callable "-> \x7b -> \x7b raise 'bad' \x7d() \x7d"
      [.expr (.call (.callable "-> \x7b raise 'bad' \x7d" [.raise (.string "bad")]))]
    Standard.registry.resolve "throw_error" = .ok (.predicate Standard.throws none) ∧
      ReadsAs text [.expr (.assertion callable "throw_error" false none)] ∧
      ∃ a later, (run Standard.registry.judge text {}).log = a :: later ∧ a.passed = true := by
  intro text callable
  have hm : Standard.registry.resolve "throw_error" = .ok (.predicate Standard.throws none) := by
    rw [Registry.resolve, Registry.follow]
    rfl
  have hb : ReadsAs text [.expr (.assertion callable "throw_error" false none)] := by
    unfold ReadsAs text callable
    decide +kernel
  obtain ⟨v, hv, he⟩ : ∃ v : Ranked (Value.rankFields [] + callable.size),
      v.1 = .callable 0 "-> \x7b -> \x7b raise 'bad' \x7d() \x7d"
        [.expr (.call (.callable "-> \x7b raise 'bad' \x7d" [.raise (.string "bad")]))] [] ∧
      evalExpr Standard.registry.judge [] callable { next := 0 } = ({ next := 1 }, .ok v) := by
    unfold callable
    rw [evalExpr]
    exact ⟨_, rfl, rfl⟩
  obtain ⟨a, later, -, -, -, hlog, -, hpassed, -⟩ :=
    @run_throws Standard.registry text "throw_error" none {} [] [] callable false [] _ _ v hm hb
      (.nil [] { next := 0 }) he (by rw [hv]; rfl)
  refine ⟨hm, hb, a, later, hlog, hpassed.2 ?_⟩
  rw [evalExpr_call_fails_iff he, hv]
  decide +kernel

/-- A name that is not defined makes a body fail, but not where a callable is asserted to fail:
there the assertion passes, and nothing else tells of the name. -/
theorem run_throws_unknownName :
    let out := run Standard.registry.judge "-> \x7b missing \x7d.should_throw_error()" {}
    (run Standard.registry.judge "-> \x7b missing \x7d()" {}).failure? =
        some (.unknownName "missing") ∧
      out.failure? = none ∧ out.log.map (·.matcher) = ["throw_error"] ∧
      out.log.map (·.passed) = [true] := by
  decide +kernel

end Body

end SpecEngine
