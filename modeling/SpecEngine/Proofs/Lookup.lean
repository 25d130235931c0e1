import SpecEngine.Body.Evaluation
import SpecEngine.Matcher.Formula
import SpecEngine.Proofs.Lexemes

/-!
# Look-up and enumeration

A composite is looked up by any text, and enumerates its items under keys.  An object is looked up
by its keys as they are; a list takes every numeral that stands for one of its indices, so that
`01` and `+1` find what is enumerated under `1`.

* `Numeral.exists_zeros`: digits are a numeral behind zeros; `indexOfName?_eq_some_iff`: the names
  that are taken for an index;
* `Finds`: the keys that a name finds; `property_eq_of_finds`, `property_eq_of_not_finds`: all that
  a look-up can give;
* `Agrees`, `agrees_iff`: the names for which a look-up gives what the enumeration has;
  `agrees_of_readName`: the names that bodies and formulas write are among them;
* `property_agrees`: all of it.
-/

namespace SpecEngine

namespace Numeral

/-! ### Numerals with zeros in front -/

theorem natOfDigits_eq_ofDigitChars (cs : List Char) :
    natOfDigits cs = Nat.ofDigitChars 10 cs 0 := by
  rw [Nat.ofDigitChars_eq_foldl]
  rfl

theorem digitChar_of_isDigit {c : Char} (hc : c.isDigit) :
    Nat.digitChar (c.toNat - '0'.toNat) = c ∧ c.toNat - '0'.toNat < 10 := by
  have hbounds : 48 ≤ c.toNat ∧ c.toNat ≤ 57 := by
    simpa [Char.isDigit, UInt32.le_iff_toNat_le] using hc
  have hlt : c.toNat - '0'.toNat < 10 := by
    have : '0'.toNat = 48 := rfl
    omega
  refine ⟨Char.toNat_inj.1 ?_, hlt⟩
  rw [Nat.toNat_digitChar_of_lt_ten hlt]
  have : '0'.toNat = 48 := rfl
  omega

/-- Digits behind a numeral that is not zero go on with it. -/
theorem toDigits_append {cs : List Char} {n : Nat} (hn : 0 < n) (hcs : ∀ c ∈ cs, c.isDigit) :
    Nat.toDigits 10 n ++ cs = Nat.toDigits 10 (Nat.ofDigitChars 10 cs n) := by
  induction cs generalizing n with
  | nil => simp
  | cons c cs ih =>
    obtain ⟨hchar, hlt⟩ := digitChar_of_isDigit (hcs c List.mem_cons_self)
    have hdigit : Nat.toDigits 10 (c.toNat - '0'.toNat) = [c] := by
      rw [Nat.toDigits_of_lt_base hlt, hchar]
    have hstep := Nat.toDigits_append_toDigits (b := 10) (by decide) hn hlt
    rw [Nat.ofDigitChars_cons, ← ih (by omega) fun d hd => hcs d (List.mem_cons_of_mem _ hd),
      ← hstep, hdigit, List.append_assoc, List.singleton_append]

/-- Digits are the numeral of their number, behind some zeros. -/
theorem exists_zeros {cs : List Char} (hne : cs ≠ []) (hcs : ∀ c ∈ cs, c.isDigit) :
    ∃ n, cs = List.replicate n '0' ++ Nat.toDigits 10 (natOfDigits cs) := by
  simp only [natOfDigits_eq_ofDigitChars]
  induction cs with
  | nil => exact absurd rfl hne
  | cons c cs ih =>
    have htail : ∀ d ∈ cs, d.isDigit := fun d hd => hcs d (List.mem_cons_of_mem _ hd)
    obtain ⟨hchar, hlt⟩ := digitChar_of_isDigit (hcs c List.mem_cons_self)
    rw [Nat.ofDigitChars_cons, Nat.mul_zero, Nat.zero_add]
    by_cases hc : c = '0'
    · -- a zero in front counts only if it is all there is
      subst hc
      by_cases hnil : cs = []
      · exact ⟨0, by subst hnil; rfl⟩
      · obtain ⟨n, hn⟩ := ih hnil htail
        exact ⟨n + 1, by rw [List.replicate_succ, List.cons_append]; exact congrArg _ hn⟩
    · have hpos : 0 < c.toNat - '0'.toNat := by
        refine Nat.pos_of_ne_zero fun hzero => hc ?_
        rw [← hchar, hzero]
        rfl
      refine ⟨0, ?_⟩
      rw [List.replicate_zero, List.nil_append, ← toDigits_append hpos htail,
        Nat.toDigits_of_lt_base hlt, hchar, List.singleton_append]

theorem natOfDigits_zeros (n i : Nat) :
    natOfDigits (List.replicate n '0' ++ Nat.toDigits 10 i) = i := by
  rw [natOfDigits_eq_ofDigitChars, Nat.ofDigitChars_append, Nat.ofDigitChars_replicate_zero,
    Nat.mul_zero, Nat.ofDigitChars_ten_toDigits]

theorem isDigit_of_mem_zeros {n i : Nat} {c : Char}
    (hc : c ∈ List.replicate n '0' ++ Nat.toDigits 10 i) : c.isDigit := by
  rcases List.mem_append.1 hc with hc | hc
  · rw [List.eq_of_mem_replicate hc]
    rfl
  · exact Nat.isDigit_of_mem_toDigits (by decide) (by decide) hc

end Numeral

namespace Value

/-! ### Names of indices -/

/-- A name that stands for an index: its key behind zeros, and these behind a plus sign. -/
def Pads (name key : String) : Prop :=
  ∃ n, name.toList = List.replicate n '0' ++ key.toList ∨
    name.toList = '+' :: (List.replicate n '0' ++ key.toList)

theorem Pads.refl (key : String) : Pads key key := ⟨0, .inl rfl⟩

theorem toList_toString (i : Nat) : (toString i).toList = Nat.toDigits 10 i := by
  rw [Nat.toString_eq_repr, Nat.toList_repr]

/-- A name is read as an index without the plus sign in front of it. -/
theorem indexOfName?_eq {name : String} {cs : List Char}
    (h : name.toList = '+' :: cs ∨ name.toList = cs ∧ ∀ s, cs ≠ '+' :: s) :
    indexOfName? name =
      if cs ≠ [] ∧ cs.all Char.isDigit ∧ Numeral.natOfDigits cs < Nat.pow 2 64 then
        some (Numeral.natOfDigits cs)
      else none := by
  unfold indexOfName?
  rcases h with h | ⟨h, hplus⟩
  · rw [h]
    rfl
  · rw [h]
    dsimp only
    split
    · next s => exact absurd rfl (hplus s)
    · rfl

/-- The names that are taken for an index, and for which one. -/
theorem indexOfName?_eq_some_iff {name : String} {i : Nat} :
    indexOfName? name = some i ↔ i < Nat.pow 2 64 ∧ Pads name (toString i) := by
  have hzeros : ∀ cs : List Char,
      (cs ≠ [] ∧ (∀ c ∈ cs, c.isDigit) ∧ Numeral.natOfDigits cs = i) ↔
        ∃ n, cs = List.replicate n '0' ++ Nat.toDigits 10 i := by
    refine fun cs => ⟨fun ⟨hne, hcs, hi⟩ => hi ▸ Numeral.exists_zeros hne hcs, ?_⟩
    rintro ⟨n, rfl⟩
    exact ⟨by simp, fun c => Numeral.isDigit_of_mem_zeros, Numeral.natOfDigits_zeros n i⟩
  have hread : ∀ cs : List Char,
      (if cs ≠ [] ∧ cs.all Char.isDigit ∧ Numeral.natOfDigits cs < Nat.pow 2 64 then
        some (Numeral.natOfDigits cs) else none) = some i ↔
      i < Nat.pow 2 64 ∧ ∃ n, cs = List.replicate n '0' ++ Nat.toDigits 10 i := by
    intro cs
    rw [← hzeros, Option.ite_none_right_eq_some, List.all_eq_true]
    constructor
    · rintro ⟨⟨hne, hcs, hlt⟩, hi⟩
      cases hi
      exact ⟨hlt, hne, hcs, rfl⟩
    · rintro ⟨hlt, hne, hcs, rfl⟩
      exact ⟨⟨hne, hcs, hlt⟩, rfl⟩
  -- a plus sign is no digit, so one that is there is the one in front
  have hplus : ∀ n s, '+' :: s ≠ List.replicate n '0' ++ Nat.toDigits 10 i := fun n s h =>
    absurd (Numeral.isDigit_of_mem_zeros (h ▸ List.mem_cons_self)) (by decide)
  unfold Pads
  rw [toList_toString]
  by_cases hname : ∃ s, name.toList = '+' :: s
  · obtain ⟨s, hs⟩ := hname
    rw [indexOfName?_eq (.inl hs), hread, hs]
    simp [hplus]
  · have hs : ∀ s, name.toList ≠ '+' :: s := fun s hs => hname ⟨s, hs⟩
    rw [indexOfName?_eq (.inr ⟨rfl, hs⟩), hread]
    simp [hs]

/-- Only digits and a plus sign begin a name that stands for an index. -/
theorem not_pads_of_start {name : String} {c : Char} {cs : List Char}
    (hname : name.toList = c :: cs) (hplus : c ≠ '+') (hdigit : c.isDigit = false) (i : Nat) :
    ¬ Pads name (toString i) := by
  rintro ⟨n, h | h⟩ <;> rw [hname, toList_toString] at h
  · have := Numeral.isDigit_of_mem_zeros (h ▸ List.mem_cons_self)
    simp [hdigit] at this
  · exact hplus (List.cons.inj h).1

/-! ### What a name finds -/

/-- The items of a list under their indices. -/
theorem mem_indexed_iff {start : Nat} {items : List Value} {key : String} {x : Value} :
    (key, x) ∈ indexed start items ↔ ∃ i, toString (start + i) = key ∧ items[i]? = some x := by
  induction items generalizing start with
  | nil => simp [indexed]
  | cons y items ih =>
    rw [indexed, List.mem_cons, ih]
    constructor
    · rintro (h | ⟨i, hi, hx⟩)
      · cases h
        exact ⟨0, rfl, rfl⟩
      · exact ⟨i + 1, by rwa [Nat.add_assoc, Nat.add_comm 1] at hi, hx⟩
    · rintro ⟨_ | i, hi, hx⟩
      · cases hi
        cases hx
        exact .inl rfl
      · exact .inr ⟨i, by rwa [Nat.add_assoc, Nat.add_comm 1], hx⟩

/-- The composites there are: the indices of a list are words of 64 bits, and an object has a key
once. -/
def IsCollection : Value → Prop
  | .list _ items => items.length ≤ Nat.pow 2 64
  | .object _ fs => (Table.keys fs).Nodup
  | _ => False

/-- The keys that a name finds in a composite. -/
def Finds : Value → String → String → Prop
  | .list .., name, key => Pads name key
  | _, name, key => name = key

/-- What a composite has besides its items. -/
def ownProperty : Value → String → Value
  | .list _ items, name =>
    if name = "length" then .number (Float.ofNat items.length)
    else if name = "constructor" then .type .array
    else .undefined
  | .object .., name => if name = "constructor" then .type .object else .undefined
  | _, _ => .undefined

/-- A look-up gives what is enumerated under the name, and for another name what the composite has
besides its items. -/
def Agrees (v : Value) (name : String) : Prop :=
  (∀ x, (name, x) ∈ v.fields → v.property name = x) ∧
    (name ∉ Table.keys v.fields → v.property name = v.ownProperty name)

theorem finds_self (v : Value) (key : String) : v.Finds key key := by
  cases v with
  | list => exact Pads.refl key
  | _ => rfl

/-- What a list enumerates is an item, and each name of its index is read as that. -/
theorem exists_index {id : Nat} {items : List Value} (hv : (list id items).IsCollection)
    {key : String} {x : Value} (hx : (key, x) ∈ (list id items).fields) :
    ∃ i, key = toString i ∧ items[i]? = some x ∧
      ∀ name, Pads name key → indexOfName? name = some i := by
  obtain ⟨i, hkey, hi⟩ := mem_indexed_iff.1 hx
  rw [Nat.zero_add] at hkey
  have hlt : i < items.length := (List.getElem?_eq_some_iff.1 hi).1
  exact ⟨i, hkey.symm, hi, fun name hname =>
    indexOfName?_eq_some_iff.2 ⟨Nat.lt_of_lt_of_le hlt hv, hkey ▸ hname⟩⟩

/-- A list has nothing besides its items under a name of an index. -/
theorem ownProperty_of_pads (id : Nat) (items : List Value) {name : String} {i : Nat}
    (h : Pads name (toString i)) : (list id items).ownProperty name = .undefined := by
  have hlength : name ≠ "length" := by
    rintro rfl
    exact not_pads_of_start (c := 'l') rfl (by decide) (by decide) i h
  have hconstructor : name ≠ "constructor" := by
    rintro rfl
    exact not_pads_of_start (c := 'c') rfl (by decide) (by decide) i h
  simp [ownProperty, hlength, hconstructor]

theorem intrinsic_eq_ownProperty {v : Value} (hv : v.IsCollection) (name : String) :
    v.intrinsic name = v.ownProperty name := by
  cases v with
  | list id items => rfl
  | object id fs =>
    by_cases hlength : name = "length"
    · subst hlength
      rfl
    · simp [intrinsic, ownProperty, hlength, constructor?]
  | _ => exact hv.elim

section

variable {v : Value} (hv : v.IsCollection) {name key : String} {x : Value}

include hv

/-- What a name finds is what is enumerated under the key that it finds. -/
theorem property_eq_of_finds (hx : (key, x) ∈ v.fields) (hname : v.Finds name key) :
    v.property name = x := by
  cases v with
  | list id items =>
    obtain ⟨i, -, hi, hread⟩ := exists_index hv hx
    rw [property, hread name hname]
    simp [hi]
  | object id fs =>
    cases hname
    rw [property, Table.find?_of_mem hv hx]
  | _ => exact hv.elim

/-- A name that finds nothing gives what the composite has besides its items. -/
theorem property_eq_of_not_finds (hname : ∀ key ∈ Table.keys v.fields, ¬ v.Finds name key) :
    v.property name = v.ownProperty name := by
  cases v with
  | list id items =>
    cases hindex : indexOfName? name with
    | none => simp only [property, hindex, intrinsic_eq_ownProperty hv]
    | some i =>
      -- the name is a numeral, but of an index behind the last one
      obtain ⟨-, hpads⟩ := indexOfName?_eq_some_iff.1 hindex
      have hi : items[i]? = none := by
        refine Option.eq_none_iff_forall_ne_some.2 fun x hx => ?_
        have hmem : (toString i, x) ∈ indexed 0 items := mem_indexed_iff.2 ⟨i, by simp, hx⟩
        exact hname (toString i) (List.mem_map_of_mem hmem) hpads
      rw [property, hindex]
      simp [hi, ownProperty_of_pads id items hpads]
  | object id fs =>
    have hnone : Table.find? fs name = none :=
      (Table.find?_eq_none_iff fs name).2 fun h => hname name h rfl
    rw [property, hnone]
    exact intrinsic_eq_ownProperty hv name
  | _ => exact hv.elim

/-- A key finds nothing but itself. -/
theorem eq_of_finds (hname : name ∈ Table.keys v.fields) (hx : (key, x) ∈ v.fields)
    (h : v.Finds name key) : key = name := by
  cases v with
  | list id items =>
    obtain ⟨⟨_, y⟩, hy, rfl⟩ := List.mem_map.1 hname
    obtain ⟨i, hkey, -, hi⟩ := exists_index hv hx
    obtain ⟨j, hother, -, hj⟩ := exists_index hv hy
    -- the name is read as one index
    have hij : i = j := Option.some.inj ((hi _ h).symm.trans (hj _ (Pads.refl _)))
    rw [hkey, hij]
    exact hother.symm
  | object id fs => exact h.symm
  | _ => exact hv.elim

/-- Besides its items a composite has nothing under a name that finds one and is not its key. -/
theorem ownProperty_of_finds (hx : (key, x) ∈ v.fields) (h : v.Finds name key) (hne : key ≠ name) :
    v.ownProperty name = .undefined := by
  cases v with
  | list id items =>
    obtain ⟨i, rfl, -⟩ := exists_index hv hx
    exact ownProperty_of_pads id items h
  | object id fs => exact absurd h.symm hne
  | _ => exact hv.elim

/-- Where a name finds what is not enumerated under it, there has to be nothing to be found. -/
theorem agrees_iff :
    v.Agrees name ↔
      ∀ key x, (key, x) ∈ v.fields → v.Finds name key → key = name ∨ x = .undefined := by
  constructor
  · intro h key x hx hkey
    refine or_iff_not_imp_left.2 fun hne => ?_
    have hname : name ∉ Table.keys v.fields := fun hname => hne (eq_of_finds hv hname hx hkey)
    rw [← property_eq_of_finds hv hx hkey, h.2 hname, ownProperty_of_finds hv hx hkey hne]
  · intro h
    refine ⟨fun x hx => property_eq_of_finds hv hx (finds_self v name), fun hname => ?_⟩
    by_cases hfinds : ∃ key x, (key, x) ∈ v.fields ∧ v.Finds name key
    · obtain ⟨key, x, hx, hkey⟩ := hfinds
      have hne : key ≠ name := fun he => hname (he ▸ List.mem_map_of_mem hx)
      rw [property_eq_of_finds hv hx hkey, (h key x hx hkey).resolve_left hne,
        ownProperty_of_finds hv hx hkey hne]
    · refine property_eq_of_not_finds hv fun key hkey hfind => hfinds ?_
      obtain ⟨⟨_, x⟩, hx, rfl⟩ := List.mem_map.1 hkey
      exact ⟨_, x, hx, hfind⟩

/-- Names as bodies and formulas write them are no numerals, so they find nothing but their own
key. -/
theorem agrees_of_readName {s : List Char} {p : Parsed String s.length}
    (hp : Body.readName s = some p) : v.Agrees p.value := by
  cases s with
  | nil => cases hp
  | cons c s =>
    rw [Body.readName, Option.ite_none_right_eq_some] at hp
    obtain ⟨hc, hp⟩ := hp
    cases hp
    refine (agrees_iff hv).2 fun key x hx hkey => ?_
    cases v with
    | list id items =>
      obtain ⟨i, rfl, -⟩ := exists_index hv hx
      have hplus : c ≠ '+' := Body.ne_of_isNameStart hc (by decide)
      exact absurd hkey (not_pads_of_start String.toList_ofList hplus
        (Body.isDigit_of_isNameStart hc) i)
    | object id fs => exact .inl hkey.symm
    | _ => exact hv.elim

end

/-- What is given for a property in a body is the property of what its target gives. -/
theorem evalExpr_property {judge : Judge} {scope : Scope} {target : Expr} {t t' : Trail}
    {r : Ranked (rankFields scope + target.size)}
    (h : Body.evalExpr judge scope target t = (t', .ok r)) (name : String) :
    ∃ x : Ranked (rankFields scope + (Expr.property target name).size),
      Body.evalExpr judge scope (.property target name) t = (t', .ok x) ∧
        x.1 = r.1.property name := by
  rw [Body.evalExpr, h]
  exact ⟨_, rfl, rfl⟩

/-- **A look-up agrees with the enumeration, but for numerals with zeros or a plus sign in front.**
In a list or an object a name finds an item exactly if there is one under the name as a key or, in
a list, under the key that is left of the name without the zeros and the plus sign.  It then gives
that item, and otherwise the length of a list, the constructor, or nothing.  So a look-up gives what
the enumeration tells unless a name finds an item that is not undefined under another key.  The
names of properties, as bodies and formulas write them, never do; the index in a formula is any
text. -/
theorem property_agrees {v : Value} (hv : v.IsCollection) (name : String) :
    (∀ key x, (key, x) ∈ v.fields → v.Finds name key → v.property name = x) ∧
      ((∀ key ∈ Table.keys v.fields, ¬ v.Finds name key) →
        v.property name = v.ownProperty name) ∧
      (v.Agrees name ↔
        ∀ key x, (key, x) ∈ v.fields → v.Finds name key → key = name ∨ x = .undefined) ∧
      (∀ (s : List Char) (p : Parsed String s.length), Body.readName s = some p →
        v.Agrees p.value) ∧
      (∀ (judge : Judge) (scope : Scope) (target : Expr) (t t' : Trail)
          (r : Ranked (rankFields scope + target.size)),
        Body.evalExpr judge scope target t = (t', .ok r) → r.1 = v →
        ∃ x : Ranked (rankFields scope + (Expr.property target name).size),
          Body.evalExpr judge scope (.property target name) t = (t', .ok x) ∧
            x.1 = v.property name) ∧
      (∀ (target index : Formula) (actual expected : Value),
        target.eval actual expected = v → (index.eval actual expected).text = name →
        (Formula.index target index).eval actual expected = v.property name) := by
  refine ⟨fun key x hx => property_eq_of_finds hv hx, property_eq_of_not_finds hv, agrees_iff hv,
    fun s p hp => agrees_of_readName hv hp, ?_, ?_⟩
  · rintro judge scope target t t' r h rfl
    exact evalExpr_property h name
  · rintro target index actual expected rfl rfl
    rfl

/-- A list of two texts, looked up by a numeral with a zero in front. -/
theorem property_agrees_padded :
    let v := list 0 [.string "a", .string "b"]
    v.IsCollection ∧ v.property "01" = .string "b" ∧ ¬ v.Agrees "01" := by
  intro v
  have hv : v.IsCollection := by
    change 2 ≤ Nat.pow 2 64
    decide
  have hone : toString 1 = "1" := by decide
  have hx : ("1", .string "b") ∈ v.fields := hone ▸ mem_indexed_iff.2 ⟨1, rfl, rfl⟩
  have hkey : v.Finds "01" "1" := ⟨1, .inl rfl⟩
  obtain ⟨hfinds, -, hagrees, -⟩ := property_agrees hv "01"
  refine ⟨hv, hfinds "1" _ hx hkey, fun h => ?_⟩
  rcases hagrees.1 h "1" _ hx hkey with h | h
  · exact absurd h (by decide)
  · cases h

/-- The second item of a list is found under `01`, where the list enumerates none. -/
theorem not_agrees_padded :
    let v := list 0 [.string "a", .string "b"]
    v.IsCollection ∧ Table.keys v.fields = ["0", "1"] ∧
      (Formula.index .actual (.literal (.string "01"))).eval v .null = .string "b" ∧
      ¬ ∀ name, v.Agrees name := by
  intro v
  have hkeys : Table.keys v.fields = ["0", "1"] := by decide
  have hvalue : v.property "01" = .string "b" := rfl
  refine ⟨?_, hkeys, hvalue, fun h => ?_⟩
  · change 2 ≤ Nat.pow 2 64
    decide
  · have hmissing := (h "01").2 (by rw [hkeys]; decide)
    rw [hvalue] at hmissing
    cases hmissing

end Value

end SpecEngine
