import Mathlib.Data.List.DropRight
import SpecEngine.Proofs.Precedence

/-!
# Parts taken off a text

What the readers of the smallest parts took, told by what they gave: the part, written out, stood
at the front of the text, and the text behind it goes on in no way that they would have followed.

* `exists_of_signAfter`, `spacing_of_opening`: signs with blanks before or behind them;
* `eq_append_of_name`, `exists_quoted_of_string`: names and texts;
* `eq_append_of_numeral`: numerals of bodies;
* `isFloatText_of_recognize`, `IsFloatText.recognize`: numerals of formulas, into which a point
  goes on unless they have one already, or an exponent.
-/

namespace SpecEngine

namespace Body.View

variable {s r : List Char}

/-! ### Signs -/

theorem exists_of_signAfter {p : Char → Bool} {c : Char} (h : signAfter p c s = some r) :
    ∃ a, (∀ d ∈ a, p d = true) ∧ s = a ++ c :: r := by
  rw [signAfter_eq] at h
  refine ⟨s.takeWhile p, fun d hd => List.mem_takeWhile_imp hd, ?_⟩
  rw [← sign_eq_some_iff.1 h, List.takeWhile_append_dropWhile]

/-- Behind an opening bracket all spacing is taken. -/
theorem spacing_of_opening {c : Char} (h : opening c s = some r) :
    ∃ a, (∀ d ∈ a, isSpacing d = true) ∧ s = c :: (a ++ r) ∧ r.dropWhile isSpacing = r := by
  rw [opening_eq] at h
  obtain ⟨t, ht, rfl⟩ := Option.map_eq_some_iff.1 h
  refine ⟨t.takeWhile isSpacing, fun d hd => List.mem_takeWhile_imp hd, ?_,
    List.dropWhile_idempotent isSpacing t⟩
  rw [List.takeWhile_append_dropWhile]
  exact sign_eq_some_iff.1 ht

/-- What is left begins with a character of another class. -/
theorem head?_dropWhile (p : Char → Bool) (s : List Char) :
    ∀ c ∈ (s.dropWhile p).head?, p c = false := by
  intro c hc
  have h := List.head?_dropWhile_not p s
  rw [hc] at h
  exact h

/-! ### Names and texts -/

theorem eq_append_of_name {n : String} (h : name s = some (n, r)) :
    isName n = true ∧ s = n.toList ++ r ∧ NameEnds r := by
  cases s with
  | nil => cases h
  | cons c s =>
    rw [name_cons] at h
    split at h
    · next hc =>
      cases h
      rw [isName, String.toList_ofList]
      refine ⟨?_, ?_, head?_dropWhile isNameChar s⟩
      · exact Bool.and_eq_true_iff.2 ⟨hc, List.all_takeWhile⟩
      · rw [List.cons_append, List.takeWhile_append_dropWhile]
    · cases h

theorem exists_quoted_of_string {x : String} (h : string s = some (x, r)) :
    ∃ q, (q = '\'' ∨ q = '"') ∧ (q ∉ x.toList ∧ '\n' ∉ x.toList) ∧ s = Body.quoted q x ++ r := by
  cases s with
  | nil => cases h
  | cons c s =>
    rw [string_cons] at h
    split at h
    · next hc =>
      obtain ⟨⟨t, u⟩, ht, heq⟩ := Option.map_eq_some_iff.1 h
      cases heq
      obtain ⟨rfl, hq⟩ := eq_append_of_quoted ht
      refine ⟨c, by simpa using hc, by rwa [String.toList_ofList], ?_⟩
      rw [Body.quoted, String.toList_ofList, List.cons_append, List.append_assoc,
        List.singleton_append]
      rfl
    · cases h

/-! ### Numerals -/

theorem eq_append_of_digits {ds : List Char} (h : digits s = some (ds, r)) :
    Numeral.isDigits ds = true ∧ s = ds ++ r ∧ ∀ c ∈ r.head?, c.isDigit = false := by
  cases s with
  | nil => cases h
  | cons c s =>
    rw [digits_cons] at h
    split at h
    · next hc =>
      cases h
      refine ⟨?_, ?_, head?_dropWhile Char.isDigit s⟩
      · rw [Numeral.isDigits, List.all_cons, hc, List.all_takeWhile]
        rfl
      · rw [List.cons_append, List.takeWhile_append_dropWhile]
    · cases h

theorem eq_append_of_numeralSign {p : Char → Bool} {x : Option Char}
    (h : numeralSign p s = (x, r)) : x.all p = true ∧ s = x.toList ++ r := by
  cases s with
  | nil =>
    cases h
    exact ⟨rfl, rfl⟩
  | cons c s =>
    rw [numeralSign_cons] at h
    split at h
    · next hc =>
      cases h
      exact ⟨hc, rfl⟩
    · cases h
      exact ⟨rfl, rfl⟩

theorem eq_append_of_mark {m : Char × Option Char} (h : mark s = some (m, r)) :
    (m.1 = 'e' || m.1 = 'E') = true ∧ m.2.all Numeral.isSign = true ∧
      s = m.1 :: (m.2.toList ++ r) := by
  cases s with
  | nil => cases h
  | cons c s =>
    rw [mark_cons] at h
    split at h
    · next hc =>
      cases h
      obtain ⟨hx, hs⟩ := eq_append_of_numeralSign (p := Numeral.isSign) (s := s) rfl
      exact ⟨hc, hx, congrArg (c :: ·) hs⟩
    · cases h

theorem eq_append_of_fraction {x : Option (List Char)} (h : fraction s = (x, r)) :
    x.all Numeral.isDigits = true ∧ s = x.elim [] ('.' :: ·) ++ r := by
  rw [fraction_eq] at h
  split at h
  · next ds t hd =>
    cases h
    obtain ⟨u, hu, hds⟩ := Option.bind_eq_some_iff.1 hd
    obtain rfl := sign_eq_some_iff.1 hu
    obtain ⟨hall, rfl, -⟩ := eq_append_of_digits hds
    exact ⟨hall, rfl⟩
  · cases h
    exact ⟨rfl, rfl⟩

theorem eq_append_of_exponent {x : Option Exponent} (h : exponent s = (x, r)) :
    x.all Exponent.isDecimal = true ∧ s = x.elim [] Exponent.text ++ r := by
  rw [exponent_eq] at h
  cases hm : mark s with
  | none =>
    rw [hm] at h
    cases h
    exact ⟨rfl, rfl⟩
  | some p =>
    obtain ⟨m, t⟩ := p
    rw [hm] at h
    dsimp only at h
    cases hd : digits t with
    | none =>
      rw [hd] at h
      cases h
      exact ⟨rfl, rfl⟩
    | some q =>
      obtain ⟨ds, u⟩ := q
      rw [hd] at h
      cases h
      obtain ⟨hc, hx, rfl⟩ := eq_append_of_mark hm
      obtain ⟨hds, rfl, -⟩ := eq_append_of_digits hd
      refine ⟨?_, ?_⟩
      · rw [Option.all_some, Exponent.isDecimal, hc, hx, hds]
        rfl
      · rw [Option.elim_some, Exponent.text, List.cons_append, List.append_assoc]

theorem eq_append_of_numeral {n : Numeral} (h : numeral s = some (n, r)) :
    n.isDecimal = true ∧ s = n.text ++ r := by
  rw [numeral_eq] at h
  rcases hx : numeralSign (· = '-') s with ⟨x, t⟩
  rw [hx] at h
  obtain ⟨⟨whole, u⟩, hd, heq⟩ := Option.map_eq_some_iff.1 h
  rcases hf : fraction u with ⟨frac, v⟩
  rcases he : exponent v with ⟨expo, w⟩
  simp only [hf, he] at heq
  cases heq
  obtain ⟨hsign, rfl⟩ := eq_append_of_numeralSign hx
  obtain ⟨hwhole, rfl, -⟩ := eq_append_of_digits hd
  obtain ⟨hfrac, rfl⟩ := eq_append_of_fraction hf
  obtain ⟨hexpo, rfl⟩ := eq_append_of_exponent he
  constructor
  · rw [Numeral.isDecimal, hsign, hwhole, hfrac, hexpo]
    rfl
  · rw [Numeral.text, List.append_assoc, List.append_assoc, List.append_assoc]

/-! ### Numerals of formulas -/

/-- Written out, these digits are a mantissa, behind which neither digits nor, if it has none, a
point may stand. -/
def IsMantissa (m : List Char × Option (List Char)) : Prop :=
  ∀ y : List Char, (∀ c ∈ y.head?, c.isDigit = false) → (m.2 = none → sign '.' y = none) →
    mantissa (m.1 ++ (m.2.elim [] ('.' :: ·) ++ y)) = some (m, y)

theorem isMantissa_digits {ds : List Char} (hd : Numeral.isDigits ds = true) :
    IsMantissa (ds, none) := by
  intro y hy hp
  simp only [Option.elim_none, List.nil_append, mantissa_eq, digits_append hd hy, hp rfl]

theorem isMantissa_point {ds fs : List Char} (hd : Numeral.isDigits ds = true)
    (hf : ∀ c ∈ fs, c.isDigit = true) : IsMantissa (ds, some fs) := by
  intro y hy _
  have hpoint : ∀ c ∈ ('.' :: (fs ++ y)).head?, c.isDigit = false := by
    rintro _ ⟨⟩
    decide
  obtain ⟨ht, hr⟩ := takeWhile_frame fs hy
  simp only [Option.elim_some, List.cons_append, mantissa_eq, digits_append hd hpoint, sign_cons,
    if_true, ht, hr, List.takeWhile_eq_self_iff.2 hf, List.dropWhile_eq_nil_iff.2 hf,
    List.nil_append]

theorem isMantissa_fraction {fs : List Char} (hf : Numeral.isDigits fs = true) :
    IsMantissa ([], some fs) := by
  intro y hy _
  simp only [Option.elim_some, List.nil_append, List.cons_append, mantissa_eq,
    digits_cons_of_not (c := '.') (by decide), sign_cons, if_true, Option.bind_some,
    digits_append hf hy, Option.map_some]

theorem eq_append_of_mantissa {m : List Char × Option (List Char)} (h : mantissa s = some (m, r)) :
    IsMantissa m ∧ s = m.1 ++ (m.2.elim [] ('.' :: ·) ++ r) ∧ (m.2 = none → sign '.' r = none) := by
  rw [mantissa_eq] at h
  cases hd : digits s with
  | some p =>
    obtain ⟨ds, t⟩ := p
    rw [hd] at h
    obtain ⟨hds, rfl, -⟩ := eq_append_of_digits hd
    dsimp only at h
    cases hp : sign '.' t with
    | some u =>
      rw [hp] at h
      cases h
      obtain rfl := sign_eq_some_iff.1 hp
      refine ⟨isMantissa_point hds fun c hc => List.mem_takeWhile_imp hc, ?_, nofun⟩
      rw [Option.elim_some, List.cons_append, List.takeWhile_append_dropWhile]
    | none =>
      rw [hp] at h
      cases h
      exact ⟨isMantissa_digits hds, rfl, fun _ => hp⟩
  | none =>
    rw [hd] at h
    obtain ⟨⟨fs, t⟩, hb, ⟨⟩⟩ := Option.map_eq_some_iff.1 h
    obtain ⟨u, hu, hfs⟩ := Option.bind_eq_some_iff.1 hb
    obtain rfl := sign_eq_some_iff.1 hu
    obtain ⟨hall, rfl, -⟩ := eq_append_of_digits hfs
    exact ⟨isMantissa_fraction hall, rfl, nofun⟩

/-- No mantissa begins with a sign. -/
theorem head?_of_mantissa {p : (List Char × Option (List Char)) × List Char}
    (h : mantissa s = some p) : ∀ c ∈ s.head?, Numeral.isSign c = false := by
  cases s with
  | nil => exact nofun
  | cons c s =>
    rintro _ ⟨⟩
    by_contra hc
    rw [Bool.not_eq_false] at hc
    have hd : c.isDigit = false := by
      by_contra hd
      rw [isSign_of_isDigit (by simpa using hd)] at hc
      cases hc
    have hp : c ≠ '.' := ne_of_class (by decide) hc
    rw [mantissa_eq, digits_cons_of_not hd, sign_cons, if_neg hp] at h
    cases h

/-- The parts of a numeral of formulas. -/
structure IsFloatText (n : Numeral) : Prop where
  sign : n.sign.all Numeral.isSign = true
  mantissa : IsMantissa (n.whole, n.fraction)
  exponent : n.exponent.all Exponent.isDecimal = true

theorem mark_of_isDecimal {e : Exponent} (h : e.isDecimal = true) :
    e.mark.isDigit = false ∧ e.mark ≠ '.' := by
  simp only [Exponent.isDecimal, Bool.and_eq_true, Bool.or_eq_true, decide_eq_true_eq] at h
  rcases h.1.1 with hm | hm <;> rw [hm] <;> decide

/-- A numeral is recognized in front of a text into which neither digits, nor an exponent, nor, if
it is a plain one, a point go on. -/
theorem IsFloatText.recognize {n : Numeral} (h : IsFloatText n) (hs : NameEnds s)
    (hp : n.fraction = none → n.exponent = none → View.sign '.' s = none) :
    Takes (Numeral.recognize (n.text ++ s)) n s := by
  obtain ⟨x, whole, frac, expo⟩ := n
  obtain ⟨hsign, hm, he⟩ := h
  have hsplit : Numeral.text ⟨x, whole, frac, expo⟩ ++ s =
      x.toList ++ (whole ++ (frac.elim [] ('.' :: ·) ++ (expo.elim [] Exponent.text ++ s))) := by
    rw [Numeral.text, List.append_assoc, List.append_assoc, List.append_assoc]
  -- the mantissa is over before what follows it
  have hy : (∀ c ∈ (expo.elim [] Exponent.text ++ s).head?, c.isDigit = false) ∧
      (frac = none → View.sign '.' (expo.elim [] Exponent.text ++ s) = none) := by
    cases expo with
    | none => exact ⟨isDigit_head?_of_nameEnds hs, fun hf => hp hf rfl⟩
    | some e =>
      obtain ⟨hd, hne⟩ := mark_of_isDecimal he
      refine ⟨?_, fun _ => ?_⟩
      · rintro _ ⟨⟩
        exact hd
      · rw [Option.elim_some, Exponent.text, List.cons_append, sign_cons, if_neg hne]
  have hmant := hm _ hy.1 hy.2
  have hnum := numeralSign_append hsign (head?_of_mantissa hmant)
  rw [hsplit, takes_recognize_iff, hnum]
  refine ⟨_, _, hmant, ?_⟩
  cases expo with
  | none => exact Or.inl ⟨mark_of_nameEnds hs, rfl, rfl⟩
  | some e =>
    rw [Option.all_some, Exponent.isDecimal, Bool.and_eq_true, Bool.and_eq_true] at he
    obtain ⟨⟨hmark, hx⟩, hd⟩ := he
    refine Or.inr ⟨(e.mark, e.sign), e.digits ++ s, e.digits, ?_,
      digits_append hd (isDigit_head?_of_nameEnds hs), rfl⟩
    rw [Option.elim_some, Exponent.text, List.cons_append, mark_cons, if_pos hmark,
      List.append_assoc,
      numeralSign_append hx (not_head?_of_isDigits (fun _ => isSign_of_isDigit) hd s)]
    rfl

theorem isFloatText_of_recognize {n : Numeral} (h : Takes (Numeral.recognize s) n r) :
    IsFloatText n ∧ s = n.text ++ r ∧
      (n.fraction = none → n.exponent = none → View.sign '.' r = none) := by
  obtain ⟨m, t, hm, ht⟩ := takes_recognize_iff.1 h
  rcases hx : numeralSign Numeral.isSign s with ⟨x, u⟩
  rw [hx] at hm ht
  obtain ⟨hsign, rfl⟩ := eq_append_of_numeralSign hx
  obtain ⟨hmant, rfl, hp⟩ := eq_append_of_mantissa hm
  rcases ht with ⟨-, rfl, rfl⟩ | ⟨e, v, ds, he, hd, rfl⟩
  · refine ⟨⟨hsign, hmant, rfl⟩, ?_, fun hf _ => hp hf⟩
    rw [Numeral.text, Option.elim_none, List.append_nil, List.append_assoc, List.append_assoc]
  · obtain ⟨hmark, hes, rfl⟩ := eq_append_of_mark he
    obtain ⟨hds, rfl, -⟩ := eq_append_of_digits hd
    refine ⟨⟨hsign, hmant, ?_⟩, ?_, fun _ hn => absurd hn (Option.some_ne_none _)⟩
    · rw [Option.all_some, Exponent.isDecimal, hmark, hes, hds]
      rfl
    · simp only [Numeral.text, Option.elim_some, Exponent.text, List.append_assoc,
        List.cons_append]

end Body.View

open Body (NameEnds)
open Body.View (sign)

/-! ### Numerals as a whole -/

theorem Numeral.isFloat_of_takes {n : Numeral} (h : Takes (recognize n.text) n []) :
    n.isFloat = true := by
  obtain ⟨hr, h⟩ := h
  rw [isFloat, h]
  exact decide_eq_true rfl

theorem Numeral.isFloat_iff {n : Numeral} : n.isFloat = true ↔ Body.View.IsFloatText n := by
  constructor
  · intro h
    exact (Body.View.isFloatText_of_recognize (takes_of_isFloat h)).1
  · intro h
    have hn := h.recognize (s := []) nofun fun _ _ => rfl
    rw [List.append_nil] at hn
    exact isFloat_of_takes hn

end SpecEngine
