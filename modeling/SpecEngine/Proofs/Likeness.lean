import SpecEngine.Proofs.Equality

/-!
# Likeness of composites

Composites that are alike are `eql`, and callables do not matter to it.

* `Matches.symm`, `MatchesFields.callable`: what it means to be alike, both ways;
* `Varies`: values that differ in callable fields of their objects only, at any depth;
  `Varies.leavesAt_eq`: such values have the same leaves under the same keys;
* `eql_of_likeness`: values that are alike are `eql`, and callable fields change no verdict.
-/

namespace SpecEngine.Value

/-! ### Being alike -/

mutual

theorem Matches.symm {v w : Value} : Matches v w → Matches w v
  | .list h => .list (MatchesFields.symm h)
  | .object h => .object (MatchesFields.symm h)

theorem MatchesFields.symm {fs gs : List (String × Value)} :
    MatchesFields fs gs → MatchesFields gs fs
  | .nil => .nil
  | .skipLeft hv h => .skipRight hv (MatchesFields.symm h)
  | .skipRight hw h => .skipLeft hw (MatchesFields.symm h)
  | .nested hvw h => .nested (Matches.symm hvw) (MatchesFields.symm h)
  | .scalar hv hw ht h => .scalar hw hv ht.symm (MatchesFields.symm h)

end

/-- Two callables or types in one place are alike. -/
theorem MatchesFields.callable {k : String} {v w : Value} {fs gs : List (String × Value)}
    (hv : v.isCallable) (hw : w.isCallable) (h : MatchesFields fs gs) :
    MatchesFields ((k, v) :: fs) ((k, w) :: gs) :=
  .skipLeft hv (.skipRight hw h)

/-! ### Callable fields -/

mutual

/-- Values that differ in the callable fields of their objects only, at any depth.  A list keeps its
callables, for they have a part in the indices of the other items. -/
inductive Varies : Value → Value → Prop
  | refl (v : Value) : Varies v v
  | list {i j : Nat} {vs ws : List Value} (h : VariesItems vs ws) :
      Varies (.list i vs) (.list j ws)
  | object {i j : Nat} {fs gs : List (String × Value)} (h : VariesFields fs gs) :
      Varies (.object i fs) (.object j gs)
  | boxed {v w : Value} (h : Varies v w) : Varies (.boxed v) (.boxed w)

/-- Items of which each varies from its partner. -/
inductive VariesItems : List Value → List Value → Prop
  | nil : VariesItems [] []
  | cons {v w : Value} {vs ws : List Value} (h : Varies v w) (hs : VariesItems vs ws) :
      VariesItems (v :: vs) (w :: ws)

/-- Fields with others inserted or removed among them whose values are callables or types. -/
inductive VariesFields : List (String × Value) → List (String × Value) → Prop
  | nil : VariesFields [] []
  | keep {k : String} {v w : Value} {fs gs : List (String × Value)} (h : Varies v w)
      (hs : VariesFields fs gs) : VariesFields ((k, v) :: fs) ((k, w) :: gs)
  | insert {k : String} {w : Value} {fs gs : List (String × Value)} (hw : w.isCallable)
      (hs : VariesFields fs gs) : VariesFields fs ((k, w) :: gs)
  | remove {k : String} {v : Value} {fs gs : List (String × Value)} (hv : v.isCallable)
      (hs : VariesFields fs gs) : VariesFields ((k, v) :: fs) gs

end

theorem Varies.isComposite_eq {v w : Value} (h : Varies v w) : v.isComposite = w.isComposite := by
  cases h <;> rfl

mutual

theorem Varies.text_eq {v w : Value} : Varies v w → v.text = w.text
  | .refl v => rfl
  | .list h => by rw [text, text, VariesItems.itemTexts_eq h]
  | .object h => by rw [text, text]
  | .boxed h => by rw [text, text, Varies.text_eq h]

theorem VariesItems.itemTexts_eq {vs ws : List Value} :
    VariesItems vs ws → itemTexts vs = itemTexts ws
  | .nil => rfl
  | .cons (v := v) (w := w) h hs => by
    have ht := Varies.text_eq h
    have hs := VariesItems.itemTexts_eq hs
    cases h with
    | refl => cases v <;> simp [itemTexts, hs]
    | list h => simp only [itemTexts, hs, ht]
    | object h => simp only [itemTexts, hs, ht]
    | boxed h => simp only [itemTexts, hs, ht]

end

mutual

/-- Callable fields have no part in the leaves. -/
theorem Varies.leavesAt_eq {v w : Value} (key : String) :
    Varies v w → v.leavesAt key = w.leavesAt key
  | .refl v => rfl
  | .list h => by rw [leavesAt, leavesAt, VariesItems.leavesOfItems_eq 0 h]
  | .object h => by rw [leavesAt, leavesAt, VariesFields.leavesOfFields_eq h]
  | .boxed h => by simp only [leavesAt, Varies.text_eq (.boxed h)]

theorem VariesItems.leavesOfItems_eq {vs ws : List Value} (start : Nat) :
    VariesItems vs ws → leavesOfItems start vs = leavesOfItems start ws
  | .nil => rfl
  | .cons h hs => by
    rw [leavesOfItems, leavesOfItems, Varies.leavesAt_eq _ h,
      VariesItems.leavesOfItems_eq (start + 1) hs]

theorem VariesFields.leavesOfFields_eq {fs gs : List (String × Value)} :
    VariesFields fs gs → leavesOfFields fs = leavesOfFields gs
  | .nil => rfl
  | .keep h hs => by
    rw [leavesOfFields, leavesOfFields, Varies.leavesAt_eq _ h, VariesFields.leavesOfFields_eq hs]
  | .insert hw hs => by
    rw [leavesOfFields.eq_2, leavesAt_of_isCallable _ hw, List.nil_append,
      VariesFields.leavesOfFields_eq hs]
  | .remove hv hs => by
    rw [leavesOfFields, leavesAt_of_isCallable _ hv, List.nil_append,
      VariesFields.leavesOfFields_eq hs]

end

theorem Varies.content?_eq {v w : Value} (h : Varies v w) : v.content? = w.content? := by
  rw [Value.content?_eq v, Value.content?_eq w, ← h.isComposite_eq]
  by_cases hv : v.isComposite
  · rw [← leavesAt_of_isComposite "" hv, h.leavesAt_eq,
      leavesAt_of_isComposite "" (h.isComposite_eq ▸ hv)]
  · rw [if_neg hv, if_neg hv]

/-- **Likeness.**  Composites that are alike field by field are `eql` both ways, and inserting or
removing callable fields of objects, at any depth of either value, changes no verdict about
composites. -/
theorem eql_of_likeness :
    (∀ a e, Matches a e → eql e a = true ∧ eql a e = true) ∧
    ∀ v w c, Varies v w →
      (c.isComposite → eql w c = eql v c) ∧ (v.isComposite → eql c w = eql c v) := by
  refine ⟨fun a e h => ⟨eql_of_matches h, eql_of_matches h.symm⟩, fun v w c h => ⟨?_, ?_⟩⟩
  · intro hc
    rw [eql, eql, if_pos hc, if_pos hc, h.content?_eq]
  · intro hv
    rw [eql, eql, if_pos hv, if_pos (h.isComposite_eq ▸ hv), h.content?_eq]

/-- A truth value and its text under one key, and a type and a callable under another, in a list of
one object; then the same with a callable that is removed and a type that is inserted. -/
theorem eql_of_likeness_nested :
    let f := callable 9 "-> \x7b 1 \x7d" [] []
    let a := list 0 [object 1 [("k", bool true), ("f", type .string)]]
    let e := list 2 [object 3 [("k", string "true"), ("f", f)]]
    let w := list 4 [object 5 [("t", type .number), ("k", string "true")]]
    (Matches a e ∧ Varies e w ∧ a.isComposite ∧ e.isComposite) ∧
      (eql e a = true ∧ eql a e = true) ∧ eql w a = eql e a ∧ eql a w = eql a e := by
  intro f a e w
  have hm : Matches a e :=
    .list (.nested (.object (.scalar rfl rfl rfl (.callable rfl rfl .nil))) .nil)
  have hv : Varies e w :=
    .list (.cons (.object (.insert rfl (.keep (.refl _) (.remove rfl .nil)))) .nil)
  exact ⟨⟨hm, hv, rfl, rfl⟩, eql_of_likeness.1 a e hm, (eql_of_likeness.2 e w a hv).1 rfl,
    (eql_of_likeness.2 e w a hv).2 rfl⟩

end SpecEngine.Value
