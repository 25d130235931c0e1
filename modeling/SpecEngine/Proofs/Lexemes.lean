import SpecEngine.Proofs.Reading

/-!
# Written names, texts and numerals

What the readers of the smallest parts of a body make of a part that is written out in front of
another text.  A reader takes as much as it can, so each statement says how the text behind the
part may begin.

* `isName`, `NameEnds`: whole names, and texts into which no name goes on (`name_append`);
* `after?_append_of_nameEnds`: how a name begins does not depend on what stands behind it;
* `quoted`, `string_append`: a text between quotes that do not occur in it;
* `Numeral.isDecimal`, `numeral_append`: numerals of spec bodies.
-/

namespace SpecEngine

namespace Text

theorem after?_eq_none_iff {w s : List Char} : after? w s = none ↔ ¬ w <+: s := by
  constructor
  · rintro h ⟨t, rfl⟩
    rw [after?_append] at h
    cases h
  · intro h
    cases ht : after? w s with
    | none => rfl
    | some t => exact absurd ⟨t, (eq_append_of_after? ht).symm⟩ h

theorem after?_cons_of_ne {c d : Char} (h : c ≠ d) (w s : List Char) :
    after? (c :: w) (d :: s) = none := if_neg h

end Text

namespace Body

/-! ### Classes of characters -/

theorem ne_of_class {p : Char → Bool} {c d : Char} (hd : p d = false) (hc : p c = true) :
    c ≠ d := by
  rintro rfl
  rw [hc] at hd
  cases hd

/-- Spacing, quotes, brackets, and the signs of bodies and of formulas. -/
def signs : List Char :=
  [' ', '\t', '\r', '\n', '\'', '"', '(', ')', '[', ']', '\x7b', '\x7d', '.', ',', ':', ';', '/',
    '-', '+', '=', '!', '?', '<', '>', '&', '|']

/-- Signs stand in no name. -/
theorem class_of_mem_signs : ∀ c ∈ signs, isNameChar c = false ∧ isNameStart c = false := by
  have h : signs.all (fun c => !isNameChar c && !isNameStart c) = true := by decide +kernel
  simpa only [List.all_eq_true, Bool.and_eq_true, Bool.not_eq_true'] using h

theorem isNameChar_of_mem_signs {c : Char} (h : c ∈ signs) : isNameChar c = false :=
  (class_of_mem_signs c h).1

theorem isNameStart_of_mem_signs {c : Char} (h : c ∈ signs) : isNameStart c = false :=
  (class_of_mem_signs c h).2

theorem ne_of_isNameStart {c d : Char} (h : isNameStart c = true) (hd : d ∈ signs) : c ≠ d :=
  ne_of_class (isNameStart_of_mem_signs hd) h

/-- Digits go on with names but begin none. -/
theorem class_of_isDigit {c : Char} (h : c.isDigit = true) :
    isNameChar c = true ∧ isNameStart c = false := by
  have hall : ∀ n < 58, (Char.ofNat n).isDigit = true →
      isNameChar (Char.ofNat n) = true ∧ isNameStart (Char.ofNat n) = false := by
    decide +kernel
  have hlt : c.toNat < 58 := by
    simp only [Char.isDigit, Bool.and_eq_true, decide_eq_true_eq, UInt32.le_iff_toNat_le] at h
    exact Nat.lt_succ_of_le h.2
  have := hall c.toNat hlt
  rw [Char.ofNat_toNat] at this
  exact this h

theorem isDigit_of_isNameStart {c : Char} (h : isNameStart c = true) : c.isDigit = false := by
  cases hc : c.isDigit with
  | false => rfl
  | true =>
    rw [(class_of_isDigit hc).2] at h
    cases h

/-! ### Signs -/

namespace View

theorem opening_cons_of_ne {c d : Char} (h : d ≠ c) (s : List Char) :
    opening c (d :: s) = none := by
  rw [opening_eq, sign_cons, if_neg h]
  rfl

theorem opening_cons (c : Char) (s : List Char) :
    opening c (c :: s) = some (s.dropWhile isSpacing) := by
  rw [opening_eq, sign_cons, if_pos rfl]
  rfl

theorem signAfter_cons {p : Char → Bool} {c : Char} (h : p c = false) (s : List Char) :
    signAfter p c (c :: s) = some s := by
  rw [signAfter_eq, List.dropWhile_cons_of_neg (by simp [h]), sign_cons, if_pos rfl]

theorem signAfter_cons_of_ne {p : Char → Bool} {c d : Char} (h : p d = false) (hd : d ≠ c)
    (s : List Char) : signAfter p c (d :: s) = none := by
  rw [signAfter_eq, List.dropWhile_cons_of_neg (by simp [h]), sign_cons, if_neg hd]

end View

/-! ### Names -/

/-- Whether a text is one whole name. -/
def isName (n : String) : Bool :=
  match n.toList with
  | [] => false
  | c :: s => isNameStart c && s.all isNameChar

/-- No name goes on into the text. -/
def NameEnds (s : List Char) : Prop :=
  ∀ c ∈ s.head?, isNameChar c = false

theorem exists_of_isName {n : String} (h : isName n = true) :
    ∃ c s, n.toList = c :: s ∧ isNameStart c = true ∧ ∀ d ∈ s, isNameChar d = true := by
  unfold isName at h
  split at h
  · cases h
  · next c s hs =>
    rw [Bool.and_eq_true, List.all_eq_true] at h
    exact ⟨c, s, hs, h.1, h.2⟩

theorem isName_reserved {w : String} (h : w ∈ reservedWords) : isName w = true := by
  have hall : ∀ w ∈ reservedWords, isName w = true := by decide +kernel
  exact hall w h

theorem nameEnds_cons {c : Char} (h : isNameChar c = false) (s : List Char) :
    NameEnds (c :: s) := by
  rintro _ ⟨⟩
  exact h

theorem nameEnds_sign {c : Char} (h : c ∈ signs) (s : List Char) : NameEnds (c :: s) :=
  nameEnds_cons (isNameChar_of_mem_signs h) s

theorem NameEnds.takeWhile_eq {s : List Char} (h : NameEnds s) : s.takeWhile isNameChar = [] := by
  cases s with
  | nil => rfl
  | cons c s => exact List.takeWhile_cons_of_neg (by simp [h c rfl])

theorem NameEnds.dropWhile_eq {s : List Char} (h : NameEnds s) : s.dropWhile isNameChar = s := by
  cases s with
  | nil => rfl
  | cons c s => exact List.dropWhile_cons_of_neg (by simp [h c rfl])

/-- How a name begins does not depend on what stands behind it. -/
theorem after?_append_of_nameEnds {w : List Char} (hw : ∀ c ∈ w, isNameChar c = true)
    (n : List Char) {s : List Char} (hs : NameEnds s) :
    Text.after? w (n ++ s) = (Text.after? w n).map (· ++ s) := by
  induction w generalizing n with
  | nil => rfl
  | cons c w ih =>
    cases n with
    | cons d n =>
      simp only [List.cons_append, Text.after?]
      split
      · exact ih (fun e he => hw e (List.mem_cons_of_mem _ he)) n
      · rfl
    | nil =>
      cases s with
      | nil => rfl
      | cons d s =>
        exact Text.after?_cons_of_ne (ne_of_class (hs d rfl) (hw c List.mem_cons_self)) w s

namespace View

theorem name_append {n : String} (hn : isName n = true) {s : List Char} (hs : NameEnds s) :
    name (n.toList ++ s) = some (n, s) := by
  obtain ⟨c, t, hc, h, ht⟩ := exists_of_isName hn
  rw [hc, List.cons_append, name_cons, if_pos h, List.takeWhile_append_of_pos ht,
    List.dropWhile_append_of_pos ht, hs.takeWhile_eq, hs.dropWhile_eq, List.append_nil, ← hc,
    String.ofList_toList]

theorem name_cons_of_not {c : Char} (h : isNameStart c = false) (s : List Char) :
    name (c :: s) = none := by
  rw [name_cons, h]
  rfl

end View

/-! ### Texts -/

/-- A text between quotes `q`. -/
def quoted (q : Char) (t : String) : List Char :=
  q :: (t.toList ++ [q])

/-- Whether a text can stand between quotes of one of the two kinds. -/
def isQuotable (t : String) : Bool :=
  '\n' ∉ t.toList && ('\'' ∉ t.toList || '"' ∉ t.toList)

namespace View

theorem string_append {q : Char} (hq : q = '\'' ∨ q = '"') {t : String}
    (ht : q ∉ t.toList ∧ '\n' ∉ t.toList) (s : List Char) :
    string (Body.quoted q t ++ s) = some (t, s) := by
  rw [Body.quoted, List.cons_append, List.append_assoc, string_cons, if_pos (by simpa using hq),
    List.singleton_append, quoted_append ht, Option.map_some, Prod.map_apply, String.ofList_toList,
    id_eq]

theorem string_cons_of_not {c : Char} (h : c ≠ '\'' ∧ c ≠ '"') (s : List Char) :
    string (c :: s) = none := by
  rw [string_cons, if_neg (by simpa using h)]

end View

end Body

/-! ### Numerals -/

/-- Whether a text is a row of digits. -/
def Numeral.isDigits (ds : List Char) : Bool :=
  !ds.isEmpty && ds.all Char.isDigit

/-- Whether an exponent is written with a mark, perhaps a sign, and digits. -/
def Exponent.isDecimal (e : Exponent) : Bool :=
  (e.mark = 'e' || e.mark = 'E') && e.sign.all Numeral.isSign && Numeral.isDigits e.digits

/-- Whether a numeral is one of spec bodies, `-?d+(.d+)?([eE][+-]?d+)?`. -/
def Numeral.isDecimal (n : Numeral) : Bool :=
  n.sign.all (· = '-') && isDigits n.whole && n.fraction.all isDigits &&
    n.exponent.all Exponent.isDecimal

namespace Body

/-- Neither digits nor an exponent go on into the text, nor a point with digits behind it. -/
def NumeralEnds (s : List Char) : Prop :=
  NameEnds s ∧ (View.sign '.' s).bind View.digits = none

namespace View

variable {s : List Char}

theorem isDigit_head?_of_nameEnds (hs : NameEnds s) : ∀ c ∈ s.head?, c.isDigit = false := by
  intro c hc
  by_contra h
  rw [Bool.not_eq_false] at h
  have := hs c hc
  rw [(class_of_isDigit h).1] at this
  cases this

theorem digits_append {ds : List Char} (hd : Numeral.isDigits ds = true)
    (hs : ∀ c ∈ s.head?, c.isDigit = false) : digits (ds ++ s) = some (ds, s) := by
  rw [Numeral.isDigits, Bool.and_eq_true, List.all_eq_true] at hd
  cases ds with
  | nil => cases hd.1
  | cons c ds =>
    have ht : ∀ d ∈ ds, d.isDigit = true := fun d h => hd.2 d (List.mem_cons_of_mem _ h)
    rw [List.cons_append, digits_cons, if_pos (hd.2 c List.mem_cons_self),
      List.takeWhile_append_of_pos ht, List.dropWhile_append_of_pos ht]
    cases s with
    | nil => simp
    | cons d s => simp [hs d rfl]

theorem digits_cons_of_not {c : Char} (h : c.isDigit = false) (s : List Char) :
    digits (c :: s) = none := by
  rw [digits_cons, h]
  rfl

theorem numeralSign_of_not {p : Char → Bool} (hs : ∀ c ∈ s.head?, p c = false) :
    numeralSign p s = (none, s) := by
  cases s with
  | nil => rfl
  | cons c s =>
    rw [numeralSign_cons, hs c rfl]
    rfl

theorem numeralSign_append {p : Char → Bool} {x : Option Char} (hx : x.all p = true)
    (hs : ∀ c ∈ s.head?, p c = false) : numeralSign p (x.toList ++ s) = (x, s) := by
  cases x with
  | none => exact numeralSign_of_not hs
  | some c => exact (numeralSign_cons p c s).trans (if_pos hx)

/-- A row of digits begins with none of the signs that `p` admits. -/
theorem not_head?_of_isDigits {p : Char → Bool} (hp : ∀ c, c.isDigit = true → p c = false)
    {ds : List Char} (hd : Numeral.isDigits ds = true) (s : List Char) :
    ∀ c ∈ (ds ++ s).head?, p c = false := by
  rw [Numeral.isDigits, Bool.and_eq_true, List.all_eq_true] at hd
  cases ds with
  | nil => cases hd.1
  | cons d ds =>
    rintro _ ⟨⟩
    exact hp d (hd.2 d List.mem_cons_self)

theorem isSign_of_isDigit {c : Char} (h : c.isDigit = true) : Numeral.isSign c = false := by
  rw [Numeral.isSign, Bool.or_eq_false_iff, decide_eq_false_iff_not, decide_eq_false_iff_not]
  exact ⟨ne_of_class (by decide) h, ne_of_class (by decide) h⟩

theorem mark_of_nameEnds (hs : NameEnds s) : mark s = none := by
  cases s with
  | nil => rfl
  | cons c s =>
    have he : c ≠ 'e' ∧ c ≠ 'E' :=
      ⟨(ne_of_class (hs c rfl) (by decide +kernel)).symm,
        (ne_of_class (hs c rfl) (by decide +kernel)).symm⟩
    rw [mark_cons, if_neg (by simpa using he)]

theorem exponent_append {x : Option Exponent} (hx : x.all Exponent.isDecimal = true)
    (hs : NameEnds s) : exponent (x.elim [] Exponent.text ++ s) = (x, s) := by
  rw [exponent_eq]
  cases x with
  | none => simp only [Option.elim_none, List.nil_append, mark_of_nameEnds hs]
  | some e =>
    rw [Option.all_some, Exponent.isDecimal, Bool.and_eq_true, Bool.and_eq_true] at hx
    obtain ⟨⟨hm, hsign⟩, hd⟩ := hx
    simp only [Option.elim_some, Exponent.text, List.cons_append, List.append_assoc, mark_cons, hm,
      if_true, Prod.map, id_eq,
      numeralSign_append hsign (not_head?_of_isDigits (fun _ => isSign_of_isDigit) hd s),
      digits_append hd (isDigit_head?_of_nameEnds hs)]

theorem fraction_append {x : Option (List Char)} (hx : x.all Numeral.isDigits = true)
    (hs : ∀ c ∈ s.head?, c.isDigit = false) (hn : (sign '.' s).bind digits = none) :
    fraction (x.elim [] ('.' :: ·) ++ s) = (x, s) := by
  rw [fraction_eq]
  cases x with
  | none => simp only [Option.elim_none, List.nil_append, hn]
  | some ds =>
    simp only [Option.elim_some, List.cons_append, sign_cons, if_true, Option.bind_some,
      digits_append hx hs]

/-- What an exponent leaves to the parts before it: neither digits nor a point. -/
theorem ends_exponent {x : Option Exponent} (hx : x.all Exponent.isDecimal = true)
    (hs : NumeralEnds s) :
    (∀ c ∈ (x.elim [] Exponent.text ++ s).head?, c.isDigit = false) ∧
      (sign '.' (x.elim [] Exponent.text ++ s)).bind digits = none := by
  cases x with
  | none => exact ⟨isDigit_head?_of_nameEnds hs.1, hs.2⟩
  | some e =>
    rw [Option.all_some, Exponent.isDecimal, Bool.and_eq_true, Bool.and_eq_true, Bool.or_eq_true,
      decide_eq_true_eq, decide_eq_true_eq] at hx
    rw [Option.elim_some, Exponent.text]
    constructor
    · rintro _ ⟨⟩
      rcases hx.1.1 with h | h <;> rw [h] <;> decide
    · rcases hx.1.1 with h | h <;> rw [h] <;> rfl

/-- **A numeral is read back as it is written.** -/
theorem numeral_append {n : Numeral} (hn : n.isDecimal = true) (hs : NumeralEnds s) :
    numeral (n.text ++ s) = some (n, s) := by
  obtain ⟨sign, whole, frac, expo⟩ := n
  simp only [Numeral.isDecimal, Bool.and_eq_true] at hn
  obtain ⟨⟨⟨hsign, hw⟩, hf⟩, he⟩ := hn
  have hminus : ∀ c, c.isDigit = true → decide (c = '-') = false := fun c hc =>
    decide_eq_false (ne_of_class (by decide) hc)
  obtain ⟨hd, hp⟩ := ends_exponent he hs
  have hfd : ∀ c ∈ (frac.elim [] ('.' :: ·) ++ (expo.elim [] Exponent.text ++ s)).head?,
      c.isDigit = false := by
    cases frac with
    | none => exact hd
    | some ds =>
      rintro c ⟨⟩
      decide
  rw [Numeral.text, numeral_eq, List.append_assoc, List.append_assoc, List.append_assoc,
    numeralSign_append hsign (not_head?_of_isDigits hminus hw _), digits_append hw hfd,
    Option.map_some]
  simp only [fraction_append hf hd hp, exponent_append he hs.1]

/-- A numeral begins with a digit, or with a minus and a digit. -/
theorem exists_text_eq {n : Numeral} (hn : n.isDecimal = true) :
    ∃ c t, c.isDigit = true ∧ (n.text = c :: t ∨ n.text = '-' :: c :: t) := by
  obtain ⟨sign, whole, frac, expo⟩ := n
  simp only [Numeral.isDecimal, Bool.and_eq_true] at hn
  obtain ⟨⟨⟨hsign, hw⟩, -⟩, -⟩ := hn
  rw [Numeral.isDigits, Bool.and_eq_true, List.all_eq_true] at hw
  cases whole with
  | nil => cases hw.1
  | cons c ds =>
    refine ⟨c, ds ++ (frac.elim [] ('.' :: ·) ++ expo.elim [] Exponent.text),
      hw.2 c List.mem_cons_self, ?_⟩
    cases sign with
    | none => exact Or.inl (by simp [Numeral.text])
    | some d =>
      rw [Option.all_some, decide_eq_true_eq] at hsign
      exact Or.inr (by simp [Numeral.text, hsign])

end View

end Body

end SpecEngine
