import SpecEngine.Proofs.Contents
import SpecEngine.Proofs.Throwing

/-!
# What the numbers of values stand for

Lists, objects and callables carry the number they were given when they were made.  The heap of a
run is the list of all that was made, in the order of the numbers.  The values that a run holds at
one time live in one heap, so that two of them with one number are the same value.

* `Value.Lives`: values whose numbered parts stand in a heap under their numbers; `Lives.mono`: they
  go on to live in it when more is made; `lives_property`, `lives_lookup`: what is read from them;
* `Attempt.Keeps`: attempts that make more of a heap, with a rule for going on;
  `keeps_evalExpr?`, `keeps_runStatements?`: evaluation is one, if calls are; `callsKeep_call?`;
* `Body.run_keeps`: a body makes more of the heap in which its bindings live;
  `Environment.Reached.exists_heap`: what bodies bind and assert one after the other lives in one.
-/

namespace SpecEngine

/-- All that was made so far, in the order of the numbers. -/
abbrev Heap := List Value

theorem Heap.getElem?_mono {w w' : Heap} (hw : w <+: w') {i : Nat} {v : Value}
    (h : w[i]? = some v) : w'[i]? = some v := by
  obtain ⟨made, rfl⟩ := hw
  rw [List.getElem?_append_left (List.getElem?_eq_some_iff.1 h).1, h]

namespace Value

/-- Values without parts, apart from numbers. -/
def isAtom : Value → Bool
  | .undefined | .null | .bool _ | .string _ | .type _ => true
  | _ => false

/-- The numbered parts of a value stand in a heap under their numbers, and no key of an object
stands twice. -/
inductive Lives (w : Heap) : Value → Prop
  | atom {v} (h : v.isAtom = true) : Lives w v
  | number (x : Float) : Lives w (.number x)
  | list {i items} (stands : w[i]? = some (.list i items)) (parts : ∀ v ∈ items, Lives w v) :
      Lives w (.list i items)
  | object {i fs} (stands : w[i]? = some (.object i fs)) (keys : (Table.keys fs).Nodup)
      (parts : ∀ e ∈ fs, Lives w e.2) : Lives w (.object i fs)
  | boxed {v} (inner : Lives w v) : Lives w (.boxed v)
  | callable {i source body scope} (stands : w[i]? = some (.callable i source body scope))
      (kept : ∀ e ∈ scope, Lives w e.2) : Lives w (.callable i source body scope)

variable {w w' : Heap} {v : Value}

theorem lives_list_iff {i : Nat} {items : List Value} :
    (list i items).Lives w ↔ w[i]? = some (.list i items) ∧ ∀ v ∈ items, v.Lives w := by
  refine ⟨fun h => ?_, fun ⟨stands, parts⟩ => .list stands parts⟩
  cases h with
  | atom h => cases h
  | list stands parts => exact ⟨stands, parts⟩

theorem lives_object_iff {i : Nat} {fs : List (String × Value)} :
    (object i fs).Lives w ↔
      w[i]? = some (.object i fs) ∧ (Table.keys fs).Nodup ∧ ∀ e ∈ fs, e.2.Lives w := by
  refine ⟨fun h => ?_, fun ⟨stands, keys, parts⟩ => .object stands keys parts⟩
  cases h with
  | atom h => cases h
  | object stands keys parts => exact ⟨stands, keys, parts⟩

theorem lives_boxed_iff : (boxed v).Lives w ↔ v.Lives w := by
  refine ⟨fun h => ?_, .boxed⟩
  cases h with
  | atom h => cases h
  | boxed h => exact h

theorem Lives.mono (hw : w <+: w') (h : v.Lives w) : v.Lives w' := by
  induction h with
  | atom h => exact .atom h
  | number x => exact .number x
  | list stands _ ih => exact .list (Heap.getElem?_mono hw stands) ih
  | object stands keys _ ih => exact .object (Heap.getElem?_mono hw stands) keys ih
  | boxed _ ih => exact .boxed ih
  | callable stands _ ih => exact .callable (Heap.getElem?_mono hw stands) ih

theorem Lives.unboxed (h : v.Lives w) : v.unboxed.Lives w := by
  induction h with
  | atom h =>
    rename_i v
    cases v <;> first | exact .atom h | cases h
  | number x => exact .number x
  | list stands parts => exact .list stands parts
  | object stands keys parts => exact .object stands keys parts
  | boxed _ ih => exact ih
  | callable stands kept => exact .callable stands kept

theorem lives_intrinsic (v : Value) (name : String) : (v.intrinsic name).Lives w := by
  unfold intrinsic
  split
  · cases v.length? with
    | none => exact .atom rfl
    | some n => exact .number _
  · split
    · cases v.constructor? <;> exact .atom rfl
    · exact .atom rfl

/-- What is read from a value lives where the value does. -/
theorem lives_property (h : v.Lives w) (name : String) : (v.property name).Lives w := by
  induction h with
  | atom h =>
    rename_i v
    cases v <;> first | exact lives_intrinsic _ name | cases h
  | number x => exact lives_intrinsic _ name
  | @list i items _ parts =>
    rw [property]
    split
    · next k _ =>
      cases hk : items[k]? with
      | none => exact .atom rfl
      | some x => exact parts x (List.mem_of_getElem? hk)
    · exact lives_intrinsic _ name
  | object _ _ parts =>
    rw [property]
    split
    · next x hx => exact parts (name, x) (Table.mem_of_find? hx)
    · exact lives_intrinsic _ name
  | boxed _ ih => exact ih
  | callable => exact lives_intrinsic _ name

end Value

/-! ### Bindings -/

/-- All bindings live in a heap. -/
def Scope.Lives (w : Heap) (scope : Scope) : Prop :=
  ∀ e ∈ scope, e.2.Lives w

namespace Scope.Lives

variable {w w' : Heap} {scope : Scope}

theorem mono (hw : w <+: w') (h : scope.Lives w) : scope.Lives w' :=
  fun e he => (h e he).mono hw

theorem set {name : String} {v : Value} (h : scope.Lives w) (hv : v.Lives w) :
    Scope.Lives w (Table.set scope name v) :=
  Table.forall_mem_upsert (P := fun _ (v : Value) => v.Lives w) (fun _ _ => hv) hv h

theorem ofList {fs : List (String × Value)} (h : Scope.Lives w fs) :
    Scope.Lives w (Table.ofList fs) := by
  suffices hall : ∀ t : Scope, t.Lives w → Scope.Lives w (Table.setAll t fs) from
    hall [] fun _ he => nomatch he
  induction fs with
  | nil => exact fun _ ht => ht
  | cons e fs ih =>
    intro t ht
    exact ih (fun x hx => h x (List.mem_cons_of_mem _ hx)) _ (ht.set (h e List.mem_cons_self))

end Scope.Lives

/-! ### Attempts that make more of a heap -/

/-- The heap is numbered as far as the trail, and what was asserted lives in it. -/
structure Trail.Fills (t : Trail) (w : Heap) : Prop where
  length : w.length = t.next
  log : ∀ a ∈ t.log, a.actual.Lives w ∧ a.expected.Lives w

namespace Trail.Fills

variable {t : Trail} {w w' : Heap}

theorem number (h : t.Fills w) (v : Value) : t.number.Fills (w ++ [v]) where
  length := by
    rw [List.length_append, h.length]
    rfl
  log a ha := (h.log a ha).imp (·.mono (w.prefix_append [v])) (·.mono (w.prefix_append [v]))

theorem stands (h : t.Fills w) (v : Value) : (w ++ [v])[t.next]? = some v := by
  rw [← h.length]
  exact List.getElem?_concat_length

theorem record (h : t.Fills w) {a : Assertion} (hactual : a.actual.Lives w)
    (hexpected : a.expected.Lives w) : (t.record a).Fills w where
  length := h.length
  log b hb := by
    rcases List.mem_append.1 hb with hb | hb
    · exact h.log b hb
    · rw [List.mem_singleton.1 hb]
      exact ⟨hactual, hexpected⟩

end Trail.Fills

/-- An attempt makes more of a heap, and what it gives has `P` there. -/
def Attempt.Keeps {α : Type} (w : Heap) (P : Heap → α → Prop) (x : Attempt α) : Prop :=
  ∀ t r, x = some (t, r) → ∃ w', w <+: w' ∧ t.Fills w' ∧ ∀ a, r = .ok a → P w' a

namespace Attempt.Keeps

variable {α β : Type} {w w' : Heap} {P : Heap → α → Prop} {Q : Heap → β → Prop} {t : Trail}

theorem ok (ht : t.Fills w) {a : α} (ha : P w a) : Keeps w P (some (t, .ok a)) := by
  intro t' r h
  cases h
  refine ⟨w, List.prefix_rfl, ht, fun b hb => ?_⟩
  cases hb
  exact ha

theorem error (ht : t.Fills w) (e : BodyError) : Keeps w P (some (t, .error e)) := by
  intro t' r h
  cases h
  exact ⟨w, List.prefix_rfl, ht, fun _ hb => nomatch hb⟩

theorem andThen {x : Attempt α} {f : Trail → α → Attempt β} (hx : Keeps w P x)
    (hf : ∀ w' t a, w <+: w' → t.Fills w' → P w' a → Keeps w' Q (f t a)) :
    Keeps w Q (x.andThen f) := by
  intro t' r h
  rcases x with _ | ⟨t, e | a⟩
  · cases h
  · obtain ⟨w', hw, ht, -⟩ := hx t _ rfl
    cases h
    exact ⟨w', hw, ht, fun _ hb => nomatch hb⟩
  · obtain ⟨w', hw, ht, ha⟩ := hx t _ rfl
    obtain ⟨w'', hw', ht', hr⟩ := hf w' t a hw ht (ha a rfl) t' r h
    exact ⟨w'', hw.trans hw', ht', hr⟩

/-- A value is given the next number when it is made. -/
theorem made (ht : t.Fills w) {v : Value} (hv : v.Lives (w ++ [v])) :
    Keeps w (fun w v => v.Lives w) (some (t.number, .ok v)) := by
  intro t' r h
  cases h
  refine ⟨w ++ [v], w.prefix_append [v], ht.number v, fun b hb => ?_⟩
  cases hb
  exact hv

end Attempt.Keeps

/-- Calls make more of a heap in which the value that is called lives. -/
def CallsKeep (call : Value → Trail → Attempt Value) : Prop :=
  ∀ w v t, v.Lives w → t.Fills w → Attempt.Keeps w (fun w v => v.Lives w) (call v t)

/-- What a judge puts into assertions lives where its operands do. -/
def PartialJudge.Keeps (judge : PartialJudge) : Prop :=
  ∀ matcher actual expected negate a w, judge matcher actual expected negate = some (.ok a) →
    actual.Lives w → expected.Lives w → a.actual.Lives w ∧ a.expected.Lives w

/-- The same of judges that come to a decision. -/
def Judge.Keeps (judge : Judge) : Prop :=
  PartialJudge.Keeps fun matcher actual expected negate =>
    some (judge matcher actual expected negate)

namespace Body

open Attempt (Keeps)

theorem lives_lookup {w : Heap} {scope : Scope} (hs : scope.Lives w) {name : String} {v : Value}
    (h : (lookup scope name).map Subtype.val = .ok v) : v.Lives w := by
  rw [map_val_lookup] at h
  split at h
  · next x hx =>
    cases h
    exact hs (name, v) (Table.mem_of_find? hx)
  · split at h
    · cases h
      exact .atom rfl
    · cases h

section

variable {call : Value → Trail → Attempt Value} {judge : PartialJudge} {scope : Scope}

theorem keeps_assert? {w : Heap} (hjudge : judge.Keeps) (matcher : String) {actual expected : Value}
    (hactual : actual.Lives w) (hexpected : expected.Lives w) (negate : Bool) {t : Trail}
    (ht : t.Fills w) :
    Keeps w (fun _ _ => True) (assert? judge matcher actual expected negate t) := by
  unfold assert?
  rcases hj : judge matcher actual expected negate with _ | e | a
  · exact fun _ _ h => nomatch h
  · exact .error ht e
  · obtain ⟨ha, hx⟩ := hjudge _ _ _ _ a w hj hactual hexpected
    exact .ok (ht.record ha hx) trivial

mutual

/-- Evaluation makes more of the heap in which the bindings live, and its value lives there. -/
theorem keeps_evalExpr? (hcall : CallsKeep call) (hjudge : judge.Keeps) {w : Heap}
    (hs : scope.Lives w) (e : Expr) {t : Trail} (ht : t.Fills w) :
    Keeps w (fun w v => v.Lives w) (evalExpr? call judge scope e t) := by
  cases e with
  | undefined | null | bool | string => exact .ok ht (.atom rfl)
  | number n => exact .ok ht (.number _)
  | list items =>
    refine (keeps_evalItems? hcall hjudge hs items ht).andThen fun w t vs _ ht hvs => .made ht ?_
    exact .list (ht.stands _) fun v hv => (hvs v hv).mono (w.prefix_append _)
  | object fields =>
    refine (keeps_evalFields? hcall hjudge hs fields ht).andThen fun w t fs _ ht hfs => .made ht ?_
    -- a key that is written twice keeps its first place, so none stands twice in the object
    exact .object (ht.stands _) (Table.keys_nodup_setAll (t := []) List.nodup_nil fs)
      (hfs.ofList.mono (w.prefix_append _))
  | boxed inner =>
    exact (keeps_evalExpr? hcall hjudge hs inner ht).andThen fun w t v _ ht hv => .ok ht (.boxed hv)
  | name n =>
    intro t' r h
    cases h
    exact ⟨w, List.prefix_rfl, ht, fun v hv => lives_lookup hs hv⟩
  | callable source body =>
    -- the callable keeps the bindings as they are now
    exact .made ht (.callable (ht.stands _) (hs.mono (w.prefix_append _)))
  | property target name =>
    exact (keeps_evalExpr? hcall hjudge hs target ht).andThen fun w t v _ ht hv =>
      .ok ht (Value.lives_property hv name)
  | call target =>
    exact (keeps_evalExpr? hcall hjudge hs target ht).andThen fun w t v _ ht hv => hcall w v t hv ht
  | assertion actual matcher negate expected =>
    refine (keeps_evalExpr? hcall hjudge hs actual ht).andThen fun w t a hw ht ha => ?_
    refine (keeps_evalExpected? hcall hjudge (hs.mono hw) expected ht).andThen
      fun w t x hw ht hx => ?_
    exact (keeps_assert? hjudge matcher (ha.mono hw) hx negate ht).andThen
      fun w t passed _ ht _ => .ok ht (.atom rfl)

theorem keeps_evalExpected? (hcall : CallsKeep call) (hjudge : judge.Keeps) {w : Heap}
    (hs : scope.Lives w) (e : Option Expr) {t : Trail} (ht : t.Fills w) :
    Keeps w (fun w v => v.Lives w) (evalExpected? call judge scope e t) := by
  cases e with
  | none => exact .ok ht (.atom rfl)
  | some e => exact keeps_evalExpr? hcall hjudge hs e ht

theorem keeps_evalItems? (hcall : CallsKeep call) (hjudge : judge.Keeps) {w : Heap}
    (hs : scope.Lives w) (items : List Expr) {t : Trail} (ht : t.Fills w) :
    Keeps w (fun w vs => ∀ v ∈ vs, v.Lives w) (evalItems? call judge scope items t) := by
  cases items with
  | nil => exact .ok ht fun _ hv => nomatch hv
  | cons e es =>
    refine (keeps_evalExpr? hcall hjudge hs e ht).andThen fun w t v hw ht hv => ?_
    refine (keeps_evalItems? hcall hjudge (hs.mono hw) es ht).andThen fun w t vs hw ht hvs => ?_
    exact .ok ht (List.forall_mem_cons.2 ⟨hv.mono hw, hvs⟩)

theorem keeps_evalFields? (hcall : CallsKeep call) (hjudge : judge.Keeps) {w : Heap}
    (hs : scope.Lives w) (fields : List (String × Expr)) {t : Trail} (ht : t.Fills w) :
    Keeps w (fun w fs => Scope.Lives w fs) (evalFields? call judge scope fields t) := by
  cases fields with
  | nil => exact .ok ht fun _ he => nomatch he
  | cons f es =>
    obtain ⟨key, e⟩ := f
    refine (keeps_evalExpr? hcall hjudge hs e ht).andThen fun w t v hw ht hv => ?_
    refine (keeps_evalFields? hcall hjudge (hs.mono hw) es ht).andThen fun w t fs hw ht hfs => ?_
    exact .ok ht (List.forall_mem_cons.2 ⟨hv.mono hw, hfs⟩)

end

theorem keeps_runStatement? (hcall : CallsKeep call) (hjudge : judge.Keeps) {w : Heap}
    (hs : scope.Lives w) (s : Statement) {t : Trail} (ht : t.Fills w) :
    Keeps w (fun w r => Scope.Lives w r.1 ∧ r.2.Lives w) (runStatement? call judge scope s t) := by
  cases s with
  | bind name e =>
    exact (keeps_evalExpr? hcall hjudge hs e ht).andThen fun w t v hw ht hv =>
      .ok ht ⟨(hs.mono hw).set hv, .atom rfl⟩
  | raise e =>
    exact (keeps_evalExpr? hcall hjudge hs e ht).andThen fun w t v _ ht _ => .error ht _
  | expr e =>
    exact (keeps_evalExpr? hcall hjudge hs e ht).andThen fun w t v hw ht hv =>
      .ok ht ⟨hs.mono hw, hv⟩

/-- Statements make more of the heap, and the bindings that they leave live there, also where they
fail. -/
theorem keeps_runStatements? (hcall : CallsKeep call) (hjudge : judge.Keeps) {w : Heap}
    (hs : scope.Lives w) (body : List Statement) {t t' : Trail} (ht : t.Fills w) {scope' : Scope}
    {r : Except BodyError Value}
    (h : runStatements? call judge scope body t = some (t', scope', r)) :
    ∃ w', w <+: w' ∧ t'.Fills w' ∧ scope'.Lives w' ∧ ∀ v, r = .ok v → v.Lives w' := by
  induction body generalizing scope w t with
  | nil =>
    cases h
    refine ⟨w, List.prefix_rfl, ht, hs, fun v hv => ?_⟩
    cases hv
    exact .atom rfl
  | cons s rest ih =>
    rw [runStatements?] at h
    have hstep := keeps_runStatement? hcall hjudge hs s ht
    rcases hr : runStatement? call judge scope s t with _ | ⟨t₁, e | ⟨scope₁, v⟩⟩ <;>
      rw [hr] at h hstep
    · cases h
    · obtain ⟨w₁, hw, ht₁, -⟩ := hstep t₁ _ rfl
      cases h
      refine ⟨w₁, hw, ht₁, hs.mono hw, fun v hv => ?_⟩
      cases hv
    · obtain ⟨w₁, hw, ht₁, hok⟩ := hstep t₁ _ rfl
      obtain ⟨hs₁, hv₁⟩ := hok _ rfl
      dsimp only at h
      split at h
      · cases h
        refine ⟨w₁, hw, ht₁, hs₁, fun x hx => ?_⟩
        cases hx
        exact hv₁
      · obtain ⟨w₂, hw', hrest⟩ := ih hs₁ ht₁ h
        exact ⟨w₂, hw.trans hw', hrest⟩

end

/-! ### Calls -/

theorem refuse?_keeps : refuse?.Keeps :=
  fun _ _ _ _ _ _ h => nomatch h

/-- A callable brings the bindings that it kept, which live where it does. -/
theorem callsKeep_call? (n : Nat) : CallsKeep (call? n) := by
  induction n with
  | zero => exact fun _ _ _ _ _ _ _ h => nomatch h
  | succ n ih =>
    intro w v t hv ht
    rw [call?]
    cases hv with
    | @callable i source body scope _ kept =>
      intro t' r h
      obtain ⟨⟨t₁, scope₁, r₁⟩, hrun, heq⟩ := Option.map_eq_some_iff.1 h
      cases heq
      obtain ⟨w', hw, ht', -, hr⟩ := keeps_runStatements? ih refuse?_keeps kept body ht hrun
      exact ⟨w', hw, ht', hr⟩
    | @atom v h => cases v <;> first | exact .error ht _ | cases h
    | _ => exact .error ht _

/-- Statements make more of the heap, with all their calls. -/
theorem keeps_runStatements {judge : Judge} (hjudge : judge.Keeps) {w : Heap} {scope : Scope}
    (hs : scope.Lives w) (body : List Statement) {t : Trail} (ht : t.Fills w) :
    let r := runStatements judge scope body t
    ∃ w', w <+: w' ∧ r.trail.Fills w' ∧ r.scope.Lives w' := by
  have hjudged : ∀ matcher actual expected negate,
      Ends Filter.atTop (fun _ => some (judge matcher actual expected negate))
        (judge matcher actual expected negate) := fun _ _ _ _ => .always _ fun _ => rfl
  obtain ⟨n, hn⟩ := (ends_runStatements?_call? hjudged scope body t).exists
  obtain ⟨w', hw, ht', hs', -⟩ := keeps_runStatements? (callsKeep_call? n) hjudge hs body ht hn
  exact ⟨w', hw, ht', hs'⟩

end Body

/-! ### Bodies one after the other -/

/-- Assertions hold their operands, taken out of their boxes. -/
theorem Registry.keeps_judgeOf (r : Registry) (hook? : Option Hook) : (r.judgeOf hook?).Keeps := by
  intro matcher actual expected negate a w h hactual hexpected
  have h := Option.some.inj h
  cases hook? with
  | some hook => cases h
  | none =>
    rw [judgeOf, judge, evaluate] at h
    cases hrule : r.resolve matcher with
    | error e =>
      rw [hrule] at h
      cases h
    | ok rule =>
      rw [hrule] at h
      cases h
      exact ⟨hactual.unboxed, hexpected.unboxed⟩

/-- The bindings of an environment live in a heap that is numbered as far as it. -/
structure Environment.LivesIn (w : Heap) (env : Environment) : Prop where
  length : w.length = env.next
  scope : env.scope.Lives w

theorem Environment.livesIn_nil : LivesIn [] {} :=
  ⟨rfl, fun _ h => nomatch h⟩

/-- A body makes more of the heap; what it binds and what it asserts lives there. -/
theorem Body.run_keeps {judge : Judge} (hjudge : judge.Keeps) (body : String) {env : Environment}
    {w : Heap} (henv : env.LivesIn w) :
    ∃ w', w <+: w' ∧ (run judge body env).environment.LivesIn w' ∧
      ∀ a ∈ (run judge body env).log, a.actual.Lives w' ∧ a.expected.Lives w' := by
  unfold run
  cases statements (Shorthand.expand body.toList) with
  | error m => exact ⟨w, List.prefix_rfl, henv, fun _ ha => nomatch ha⟩
  | ok body =>
    have hstart : ({ next := env.next } : Trail).Fills w := ⟨henv.length, fun _ ha => nomatch ha⟩
    obtain ⟨w', hw, ht, hs⟩ := keeps_runStatements hjudge henv.scope body hstart
    exact ⟨w', hw, ⟨ht.length, hs⟩, ht.log⟩

/-- The environments that bodies of specs and hooks leave which are run one after the other, with
all assertions that were made. -/
inductive Environment.Reached : Environment → List Assertion → Prop
  | start : Reached {} []
  | run {env log} (r : Registry) (hook? : Option Hook) (body : String) (h : Reached env log) :
      Reached (Body.run (r.judgeOf hook?) body env).environment
        (log ++ (Body.run (r.judgeOf hook?) body env).log)

/-- All that a run binds and asserts lives in one heap. -/
theorem Environment.Reached.exists_heap {env : Environment} {log : List Assertion}
    (h : Reached env log) :
    ∃ w, env.LivesIn w ∧ ∀ a ∈ log, a.actual.Lives w ∧ a.expected.Lives w := by
  induction h with
  | start => exact ⟨[], livesIn_nil, fun _ h => nomatch h⟩
  | run r hook? body _ ih =>
    obtain ⟨w, henv, hlog⟩ := ih
    obtain ⟨w', hw, henv', hlog'⟩ := Body.run_keeps (r.keeps_judgeOf hook?) body henv
    refine ⟨w', henv', fun a ha => ?_⟩
    rcases List.mem_append.1 ha with ha | ha
    · exact (hlog a ha).imp (·.mono hw) (·.mono hw)
    · exact hlog' a ha

end SpecEngine
