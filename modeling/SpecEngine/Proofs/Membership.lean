import SpecEngine.Engine
import SpecEngine.Proofs.Equality
import SpecEngine.Proofs.Mirroring

/-!
# Membership in lists

When a list includes a value, and whether that agrees with one of its items being `eql` to it.  An
assertion takes both of its values out of their boxes before it compares them, but not the items of
a list.

* `looseEq_unboxed`: loose equality opens boxes by itself, except in front of an absent value;
* `eql_boxed`, `eql_unboxed`: what becomes of an item in a box;
* `resolve_of_rule`, `passes_iff`: which assertions pass;
* `passes_include_iff`: when a list includes a value; `not_passes_include_boxed`: items in boxes
  that are `eql` to a value which the list does not include.
-/

namespace SpecEngine

namespace Value

/-! ### Items in boxes -/

/-- Whether a value stands in a box. -/
def isBoxed : Value → Bool
  | .boxed _ => true
  | _ => false

theorem unboxed_eq_self {v : Value} (h : v.isBoxed = false) : v.unboxed = v := by
  cases v with
  | boxed v => cases h
  | _ => rfl

/-- Loose equality opens boxes, except where it meets an absent value. -/
theorem looseEq_unboxed (v : Value) {x : Value} (hx : x.isAbsent = false) :
    v.looseEq x = v.unboxed.looseEq x := by
  induction v using unboxed.induct with
  | case1 v ih => rw [looseEq_boxed_left v hx, unboxed, ih]
  | case2 v hv =>
    rw [unboxed]
    exact hv

/-- What is in a box is never compared by its content, and no box equals an absent value. -/
theorem eql_boxed (x v : Value) :
    eql x (.boxed v) = (!x.isAbsent && v.unboxed.looseEq x) := by
  have hloose : eql x (.boxed v) = (boxed v).looseEq x := rfl
  cases hx : x.isAbsent with
  | true => rw [hloose, looseEq_absent_right _ hx, isAbsent_boxed, Bool.not_true, Bool.false_and]
  | false =>
    rw [hloose, looseEq_boxed_left v hx, looseEq_unboxed v hx, Bool.not_false, Bool.true_and]

/-- An item is compared as it would be outside of its box, if a box holds no composite, and no
absent value where one is expected. -/
theorem eql_unboxed {x e : Value}
    (h : e.isBoxed → e.unboxed.isComposite = false ∧ (x.isAbsent → e.unboxed.isAbsent = false)) :
    eql x e = eql x e.unboxed := by
  cases e with
  | boxed v =>
    obtain ⟨hc, ha⟩ := h rfl
    rw [unboxed] at hc ha ⊢
    rw [eql_boxed, eql, hc, if_neg (by decide)]
    cases hx : x.isAbsent with
    | true => rw [looseEq_absent_right _ hx, ha hx, Bool.and_false]
    | false => rw [Bool.not_false, Bool.true_and]
  | _ => rfl

end Value

/-! ### Assertions that pass -/

namespace Registry

/-- An assertion is evaluated and passes. -/
def Passes (r : Registry) (matcher : String) (actual expected : Value) : Prop :=
  ∃ a, r.evaluate matcher actual expected false = .ok a ∧ a.passed = true

variable {r : Registry}

theorem resolve_of_rule {name : String} {rule : Rule}
    (h : Table.find? r name = some (.rule rule)) : r.resolve name = .ok rule := by
  have hf : follow r [] name = .ok (name, some rule) := by
    rw [follow, if_neg List.not_mem_nil]
    split
    · next hn => cases h.symm.trans hn
    · next hr => cases h.symm.trans hr; rfl
    · next ha => cases h.symm.trans ha
  rw [resolve, hf]

theorem passes_iff {name : String} {rule : Rule} (h : Table.find? r name = some (.rule rule))
    (actual expected : Value) :
    r.Passes name actual expected ↔ rule.holds expected.unboxed actual.unboxed = true := by
  unfold Passes evaluate
  rw [resolve_of_rule h]
  constructor
  · rintro ⟨a, ha, hp⟩
    cases ha
    simpa using hp
  · intro hh
    exact ⟨_, rfl, by simpa using hh⟩

/-- **Membership in a list.**  A list includes a value if and only if it has an item that passes as
`eql` to it, or an item in a box that equals it loosely while it is no absent value.  If no box
holds a composite, nor an absent value where one is expected, that is to say: if and only if it has
an item that passes as `eql` to the value. -/
theorem passes_include_iff
    (hi : Table.find? r "include" = some (Standard.predicate Standard.includes))
    (he : Table.find? r "eql" = some (Standard.predicate Value.eql))
    (id : Nat) (items : List Value) (x : Value) :
    (r.Passes "include" (.list id items) x ↔
      ∃ e ∈ items,
        if e.isBoxed then x.unboxed.isAbsent = false ∧ e.unboxed.looseEq x.unboxed = true
        else r.Passes "eql" e x) ∧
    ((∀ e ∈ items, e.isBoxed → e.unboxed.isComposite = false ∧
        (x.unboxed.isAbsent → e.unboxed.isAbsent = false)) →
      (r.Passes "include" (.list id items) x ↔ ∃ e ∈ items, r.Passes "eql" e x)) := by
  have hincludes : r.Passes "include" (.list id items) x ↔
      ∃ e ∈ items, Value.eql x.unboxed e = true :=
    (passes_iff hi _ _).trans List.any_eq_true
  have heql : ∀ e, r.Passes "eql" e x ↔ Value.eql x.unboxed e.unboxed = true :=
    fun e => passes_iff he e x
  rw [hincludes]
  constructor
  · refine exists_congr fun e => and_congr_right fun _ => ?_
    by_cases hb : e.isBoxed
    · cases e with
      | boxed v => simp [Value.eql_boxed, hb, Value.unboxed]
      | _ => cases hb
    · have hself : e.unboxed = e := Value.unboxed_eq_self (by simpa using hb)
      rw [if_neg hb, heql, hself]
  · intro h
    refine exists_congr fun e => and_congr_right fun hmem => ?_
    rw [heql, Value.eql_unboxed (h e hmem)]

/-- Texts and numbers in boxes, and a list in none. -/
theorem passes_include_iff_boxed :
    let items : List Value := [.boxed (.boxed (.string "7")), .list 1 [.null]]
    Table.find? Standard.registry "include" = some (Standard.predicate Standard.includes) ∧
      Table.find? Standard.registry "eql" = some (Standard.predicate Value.eql) ∧
      (∀ e ∈ items, e.isBoxed → e.unboxed.isComposite = false ∧
        ((Value.string "7").unboxed.isAbsent → e.unboxed.isAbsent = false)) ∧
      (Standard.registry.Passes "include" (.list 0 items) (.string "7") ↔
        ∃ e ∈ items, Standard.registry.Passes "eql" e (.string "7")) := by
  intro items
  have h : ∀ e ∈ items, e.isBoxed → e.unboxed.isComposite = false ∧
      ((Value.string "7").unboxed.isAbsent → e.unboxed.isAbsent = false) := by
    simp [items, Value.isBoxed, Value.unboxed, Value.isComposite, Value.isAbsent]
  exact ⟨rfl, rfl, h, (passes_include_iff rfl rfl 0 items (.string "7")).2 h⟩

/-- A box of nothing and a box of a list: each is `eql` to what it holds, but the list that has them
as items includes neither. -/
theorem not_passes_include_boxed :
    let r := Standard.registry
    (r.Passes "eql" (.boxed .null) .null ∧ ¬ r.Passes "include" (.list 0 [.boxed .null]) .null) ∧
      r.Passes "eql" (.boxed (.list 1 [.null])) (.list 2 [.null]) ∧
        ¬ r.Passes "include" (.list 0 [.boxed (.list 1 [.null])]) (.list 2 [.null]) := by
  intro r
  have hi : Table.find? r "include" = some (.rule (.predicate Standard.includes none)) := rfl
  have he : Table.find? r "eql" = some (.rule (.predicate Value.eql none)) := rfl
  simp only [passes_iff hi, passes_iff he]
  decide +kernel

end Registry

end SpecEngine
