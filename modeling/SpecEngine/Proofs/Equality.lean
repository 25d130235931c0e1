import Mathlib.Data.String.Basic
import SpecEngine.Value.Comparison

/-!
# Equality of content

What it means that two values are `eql` when a list or an object is among them.

* `leaves`: the scalars of a composite at any depth, with their keys; `content?_eq`: they make up
  its content;
* `coercesTo`, `looseEq_composite`: what loose equality asks of a value that is compared with a
  composite;
* `Matches`: composites that are alike field by field;
* `eql_composite_iff`: when a value is `eql` to another one; `eql_not_matches`: values that are
  `eql` without being alike.
-/

namespace SpecEngine.Value

/-! ### Leaves -/

mutual

/-- What a field adds to the leaves of a composite.  The keys of nested composites are left out,
and so are callables and types. -/
def leavesAt (key : String) : Value → List (String × String)
  | .list _ items => leavesOfItems 0 items
  | .object _ fs => leavesOfFields fs
  | .type _ | .callable .. => []
  | v => [(key, v.text)]

/-- What items add to the leaves, the first of them under the key `start`. -/
def leavesOfItems (start : Nat) : List Value → List (String × String)
  | [] => []
  | v :: vs => v.leavesAt (toString start) ++ leavesOfItems (start + 1) vs

/-- What fields add to the leaves. -/
def leavesOfFields : List (String × Value) → List (String × String)
  | [] => []
  | (k, v) :: fs => v.leavesAt k ++ leavesOfFields fs

end

/-- The scalars of a composite in the order of enumeration, at any depth: their keys and texts. -/
def leaves : Value → List (String × String)
  | .list _ items => leavesOfItems 0 items
  | .object _ fs => leavesOfFields fs
  | _ => []

/-- Leaves one behind the other, without anything between them. -/
def joinLeaves (l : List (String × String)) : String :=
  String.join (l.map fun e => e.1 ++ e.2)

@[simp] theorem joinLeaves_append (l m : List (String × String)) :
    joinLeaves (l ++ m) = joinLeaves l ++ joinLeaves m := by
  simp [joinLeaves]

mutual

theorem contentOf_eq (key : String) (v : Value) :
    v.contentOf key = joinLeaves (v.leavesAt key) := by
  cases v with
  | list id items => exact contentOfItems_eq 0 items
  | object id fs => exact contentOfFields_eq fs
  | type t => rfl
  | callable id source body scope => rfl
  | undefined | null | bool | number | string | boxed =>
    simp [contentOf, leavesAt, joinLeaves]

theorem contentOfItems_eq (start : Nat) (items : List Value) :
    contentOfItems start items = joinLeaves (leavesOfItems start items) := by
  cases items with
  | nil => rfl
  | cons v vs =>
    rw [contentOfItems, leavesOfItems, joinLeaves_append, contentOf_eq, contentOfItems_eq]

theorem contentOfFields_eq (fs : List (String × Value)) :
    contentOfFields fs = joinLeaves (leavesOfFields fs) := by
  cases fs with
  | nil => rfl
  | cons f fs =>
    obtain ⟨k, v⟩ := f
    rw [contentOfFields, leavesOfFields, joinLeaves_append, contentOf_eq, contentOfFields_eq]

end

/-- The content of a composite is made of its leaves; nothing else has content. -/
theorem content?_eq (v : Value) :
    v.content? = if v.isComposite then some (joinLeaves v.leaves) else none := by
  cases v with
  | list id items => exact congrArg some (contentOfItems_eq 0 items)
  | object id fs => exact congrArg some (contentOfFields_eq fs)
  | _ => rfl

/-! ### Comparison with a composite -/

/-- What loose equality asks of a value that is compared with a composite: out of its boxes, it is
the text of the composite, or the number of that text, or the composite itself. -/
def coercesTo (v c : Value) : Bool :=
  match v.unboxed with
  | .string s => s == c.text
  | .number x => x == numberOfText c.text
  | .bool b => (if b then 1 else 0) == numberOfText c.text
  | w => strictEq w c

theorem looseEq_composite (v : Value) {c : Value} (hc : c.isComposite) :
    v.looseEq c = v.coercesTo c := by
  induction v using unboxed.induct with
  | case1 v ih =>
    cases c with
    | list | object => simpa [looseEq, coercesTo, unboxed] using ih
    | _ => cases hc
  | case2 v hv =>
    cases c with
    | list | object =>
      cases v with
      | boxed v => exact absurd rfl (hv v)
      | _ => simp [looseEq, coercesTo, unboxed, toNumber, strictEq]
    | _ => cases hc

/-! ### Composites that are alike -/

/-- Neither enumerated nor passed over: a field that has a text of its own. -/
def isScalar (v : Value) : Bool :=
  !v.isComposite && !v.isCallable

mutual

/-- Two lists, or two objects, that are alike field by field. -/
inductive Matches : Value → Value → Prop
  | list {i j : Nat} {vs ws : List Value} (h : MatchesFields (indexed 0 vs) (indexed 0 ws)) :
      Matches (.list i vs) (.list j ws)
  | object {i j : Nat} {fs gs : List (String × Value)} (h : MatchesFields fs gs) :
      Matches (.object i fs) (.object j gs)

/-- Fields in one order under the same keys, alike or with the same text; callables and types do
not count. -/
inductive MatchesFields : List (String × Value) → List (String × Value) → Prop
  | nil : MatchesFields [] []
  | skipLeft {k : String} {v : Value} {fs gs : List (String × Value)} (hv : v.isCallable)
      (h : MatchesFields fs gs) : MatchesFields ((k, v) :: fs) gs
  | skipRight {k : String} {w : Value} {fs gs : List (String × Value)} (hw : w.isCallable)
      (h : MatchesFields fs gs) : MatchesFields fs ((k, w) :: gs)
  | nested {k : String} {v w : Value} {fs gs : List (String × Value)} (hvw : Matches v w)
      (h : MatchesFields fs gs) : MatchesFields ((k, v) :: fs) ((k, w) :: gs)
  | scalar {k : String} {v w : Value} {fs gs : List (String × Value)} (hv : v.isScalar)
      (hw : w.isScalar) (ht : v.text = w.text) (h : MatchesFields fs gs) :
      MatchesFields ((k, v) :: fs) ((k, w) :: gs)

end

theorem Matches.isComposite_left {v w : Value} (h : Matches v w) : v.isComposite := by
  cases h <;> rfl

theorem Matches.isComposite_right {v w : Value} (h : Matches v w) : w.isComposite := by
  cases h <;> rfl

theorem leavesAt_of_isComposite {v : Value} (key : String) (h : v.isComposite) :
    v.leavesAt key = v.leaves := by
  cases v with
  | list | object => simp [leavesAt, leaves]
  | _ => cases h

theorem leavesAt_of_isCallable {v : Value} (key : String) (h : v.isCallable) :
    v.leavesAt key = [] := by
  cases v with
  | type | callable => simp [leavesAt]
  | _ => cases h

theorem leavesAt_of_isScalar {v : Value} (key : String) (h : v.isScalar) :
    v.leavesAt key = [(key, v.text)] := by
  cases v with
  | list | object | type | callable => cases h
  | _ => simp [leavesAt]

theorem leavesOfFields_indexed (start : Nat) (vs : List Value) :
    leavesOfFields (indexed start vs) = leavesOfItems start vs := by
  induction vs generalizing start with
  | nil => rfl
  | cons v vs ih => rw [indexed, leavesOfFields, leavesOfItems, ih]

mutual

theorem Matches.leaves_eq {v w : Value} : Matches v w → v.leaves = w.leaves
  | .list h => by
    simpa only [leaves, leavesOfFields_indexed] using MatchesFields.leavesOfFields_eq h
  | .object h => by simpa only [leaves] using MatchesFields.leavesOfFields_eq h

theorem MatchesFields.leavesOfFields_eq {fs gs : List (String × Value)} :
    MatchesFields fs gs → leavesOfFields fs = leavesOfFields gs
  | .nil => rfl
  | .skipLeft hv h => by
    rw [leavesOfFields, leavesAt_of_isCallable _ hv, List.nil_append,
      MatchesFields.leavesOfFields_eq h]
  | .skipRight hw h => by
    rw [leavesOfFields.eq_2, leavesAt_of_isCallable _ hw, List.nil_append,
      MatchesFields.leavesOfFields_eq h]
  | .nested hvw h => by
    rw [leavesOfFields, leavesOfFields, leavesAt_of_isComposite _ hvw.isComposite_left,
      leavesAt_of_isComposite _ hvw.isComposite_right, Matches.leaves_eq hvw,
      MatchesFields.leavesOfFields_eq h]
  | .scalar hv hw ht h => by
    rw [leavesOfFields, leavesOfFields, leavesAt_of_isScalar _ hv, leavesAt_of_isScalar _ hw, ht,
      MatchesFields.leavesOfFields_eq h]

end

/-! ### When values are `eql` -/

/-- Composites that are alike are `eql`. -/
theorem eql_of_matches {actual expected : Value} (h : Matches actual expected) :
    eql expected actual = true := by
  rw [eql, if_pos h.isComposite_left, content?_eq, content?_eq, if_pos h.isComposite_left,
    if_pos h.isComposite_right, h.leaves_eq, beq_self_eq_true]

/-- **Equality of content.**  A composite is `eql` to composites whose leaves, written one behind
the other, read the same; anything else is `eql` to the composites that it coerces to: out of its
boxes it is their text, the number of that text, or the composite itself.  Between composites it
does not matter which of the two is the actual one. -/
theorem eql_composite_iff (expected actual : Value)
    (h : actual.isComposite ∨ expected.isComposite) :
    (eql expected actual = true ↔
      if actual.isComposite then
        expected.isComposite ∧ joinLeaves actual.leaves = joinLeaves expected.leaves
      else actual.coercesTo expected = true) ∧
    (actual.isComposite → expected.isComposite → eql expected actual = eql actual expected) := by
  constructor
  · by_cases ha : actual.isComposite
    · rw [eql, if_pos ha, if_pos ha, content?_eq, content?_eq, if_pos ha]
      by_cases he : expected.isComposite <;> simp [he]
    · rw [eql, if_neg ha, if_neg ha, looseEq_composite actual (h.resolve_left ha)]
  · intro ha he
    rw [eql, eql, if_pos ha, if_pos he, Bool.beq_comm]

/-- A list within a list has the leaves of the list within; a box around a list is that list and
no list like it. -/
theorem eql_composite_iff_nested :
    ((Value.list 0 [.list 1 [.string "x"]]).isComposite ∧
      eql (.list 2 [.string "x"]) (.list 0 [.list 1 [.string "x"]]) = true) ∧
    ((Value.list 2 [.string "x"]).isComposite ∧
      eql (.list 2 [.string "x"]) (.boxed (.list 2 [.string "x"])) = true ∧
      eql (.list 2 [.string "x"]) (.boxed (.list 3 [.string "x"])) = false) := by
  have hother :=
    eql_composite_iff (.list 2 [.string "x"]) (.boxed (.list 3 [.string "x"])) (.inr rfl)
  refine ⟨⟨rfl, ?_⟩, rfl, ?_, ?_⟩
  · exact (eql_composite_iff _ (.list 0 [.list 1 [.string "x"]]) (.inl rfl)).1.mpr ⟨rfl, rfl⟩
  · exact (eql_composite_iff _ (.boxed (.list 2 [.string "x"])) (.inr rfl)).1.mpr rfl
  · exact Bool.eq_false_iff.mpr fun h => absurd (hother.1.mp h) (by decide)

/-- Values that are `eql` without being alike: a list and an object; two objects with different
keys; a text and a list, in one direction only. -/
theorem eql_not_matches :
    (eql (.object 1 [("0", .string "x")]) (.list 0 [.string "x"]) = true ∧
      ¬ Matches (.list 0 [.string "x"]) (.object 1 [("0", .string "x")])) ∧
    (eql (.object 1 [("a", .string "bcd")])
        (.object 0 [("a", .string "b"), ("c", .string "d")]) = true ∧
      ¬ Matches (.object 0 [("a", .string "b"), ("c", .string "d")])
        (.object 1 [("a", .string "bcd")])) ∧
    (eql (.list 0 [.string "x"]) (.string "x") = true ∧
      ¬ Matches (.string "x") (.list 0 [.string "x"]) ∧
      eql (.string "x") (.list 0 [.string "x"]) = false) := by
  refine ⟨⟨by decide, by nofun⟩, ⟨by decide, ?_⟩, ?_, by nofun, by decide⟩
  · -- callables aside, the second key has no partner
    intro h
    cases h with
    | object h =>
      cases h with
      | scalar _ _ ht _ => exact absurd ht (by decide)
      | nested h _ => cases h
      | skipLeft h _ => cases h
      | skipRight h _ => cases h
  · rw [eql, if_neg (by decide), looseEq_composite _ rfl]
    decide

end SpecEngine.Value
