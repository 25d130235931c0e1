import SpecEngine.Matcher.Formula.Reader
import SpecEngine.Proofs.Lexemes

/-!
# The grammar of formulas

What the readers of formulas take from a text, without the bounds that make them end.

* `Takes`: a reading takes a value and leaves a text;
* `View.between`, `View.operator`, `View.unarySign`: the signs of formulas;
* `takes_atom_group`, `takes_conjuncts_and` and their like: one rule for each step of the readers;
* `Body.View.recognize_frame`: a numeral is taken also where other text follows it.
-/

namespace SpecEngine

/-! ### Readings without their bounds -/

/-- A reading takes `v` and leaves `r`. -/
def Takes {α : Type} {n : Nat} (x : Except Stop (Parsed α n)) (v : α) (r : List Char) : Prop :=
  ∃ h, x = .ok ⟨v, r, h⟩

namespace Parsed

theorem exists_of_map_pair {α : Type} {n : Nat} {o : Option (Parsed α n)} {v : α} {r : List Char}
    (h : o.map pair = some (v, r)) : ∃ hr, o = some ⟨v, r, hr⟩ := by
  obtain ⟨⟨_, _, hr⟩, rfl, hp⟩ := Option.map_eq_some_iff.1 h
  cases hp
  exact ⟨hr, rfl⟩

theorem exists_of_map_rest {n : Nat} {o : Option (Parsed Unit n)} {r : List Char}
    (h : o.map rest = some r) : ∃ hr, o = some ⟨(), r, hr⟩ := by
  obtain ⟨⟨_, _, hr⟩, rfl, rfl⟩ := Option.map_eq_some_iff.1 h
  exact ⟨hr, rfl⟩

end Parsed

namespace Formula

open Body (isSpacing isName isNameStart isNameChar NameEnds)
open Body.View (sign signAfter opening name string)

/-! ### The steps of the readers -/

namespace View

/-- Takes a given text between spacing. -/
def between (w s : List Char) : Option (List Char) :=
  (readBetween w s).map Parsed.rest

theorem between_eq (w s : List Char) :
    between w s = (Text.after? w (s.dropWhile isSpacing)).map (List.dropWhile isSpacing) := by
  unfold between readBetween Text.skip
  dsimp only
  split
  · next h =>
    simp only [h]
    rfl
  · next t h =>
    simp only [h]
    rfl

/-- Takes an operator between spacing. -/
def operator (s : List Char) : Option (Operator × List Char) :=
  (readOperator s).map Parsed.pair

theorem operator_eq (s : List Char) :
    operator s = Operator.all.findSome? fun o => (between o.text.toList s).map fun r => (o, r) := by
  unfold operator readOperator between
  rw [List.map_findSome?]
  congr 1
  funext o
  simp only [Function.comp, Option.map_map]
  rfl

/-- Takes what stands before a formula: an exclamation mark or `typeof`. -/
def unarySign (s : List Char) : Option (Sign × List Char) :=
  (readSign s).map Parsed.pair

theorem unarySign_eq (s : List Char) :
    unarySign s =
      match opening '!' s with
      | some r => some (.not, r)
      | none =>
        (name s).bind fun p =>
          if p.1 = "typeof" then some (.typeOf, p.2.dropWhile isSpacing) else none := by
  unfold unarySign readSign opening name
  cases Body.readOpening '!' s with
  | some p => rfl
  | none =>
    simp only [Option.map_none]
    cases Body.readName s with
    | none => rfl
    | some p => exact apply_ite (Option.map Parsed.pair) _ _ _

end View

open View

section

variable {f g h : Formula} {s r t u v : List Char}

theorem takes_head_string {x : String} (ho : opening '(' s = none) (hs : string s = some (x, r)) :
    Takes (readHead s) (.whole (.literal (.string x))) r := by
  obtain ⟨hr, hs⟩ := Parsed.exists_of_map_pair hs
  rw [readHead, Option.map_eq_none_iff.1 ho, hs]
  exact ⟨hr, rfl⟩

theorem takes_head_word {w : String} (ho : opening '(' s = none) (hs : string s = none)
    (hn : name s = some (w, r)) (hw : ofWord? w = some f) : Takes (readHead s) (.whole f) r := by
  obtain ⟨hr, hn⟩ := Parsed.exists_of_map_pair hn
  rw [readHead, Option.map_eq_none_iff.1 ho, Option.map_eq_none_iff.1 hs, hn]
  simp only [hw]
  exact ⟨hr, rfl⟩

theorem takes_head_number {n : Numeral} (ho : opening '(' s = none) (hs : string s = none)
    (hn : name s = none) (hr : Takes (Numeral.recognize s) n r) :
    Takes (readHead s) (.whole (.literal (.number n))) r := by
  obtain ⟨hr, h⟩ := hr
  rw [readHead, Option.map_eq_none_iff.1 ho, Option.map_eq_none_iff.1 hs,
    Option.map_eq_none_iff.1 hn, h]
  exact ⟨hr, rfl⟩

theorem takes_atom_whole (hh : Takes (readHead s) (.whole f) r) : Takes (readAtom s) f r := by
  obtain ⟨hr, hh⟩ := hh
  rw [readAtom, hh]
  exact ⟨hr, rfl⟩

theorem takes_atom_group (ho : opening '(' s = some r) (hf : Takes (readConditional r) f t)
    (hc : signAfter isSpacing ')' t = some u) : Takes (readAtom s) f u := by
  obtain ⟨hr, ho⟩ := Parsed.exists_of_map_rest ho
  obtain ⟨ht, hf⟩ := hf
  obtain ⟨hu, hc⟩ := Parsed.exists_of_map_rest hc
  rw [readAtom, readHead, ho]
  simp only [Parsed.map, hf, hc]
  exact ⟨_, rfl⟩

theorem takes_accesses_end (hp : sign '.' s = none) (ho : opening '[' s = none) :
    Takes (readAccesses f s) f s := by
  rw [readAccesses, Option.map_eq_none_iff.1 hp, Option.map_eq_none_iff.1 ho]
  exact ⟨_, rfl⟩

theorem takes_accesses_property {n : String} (hp : sign '.' s = some r)
    (hn : name r = some (n, t)) (hg : Takes (readAccesses (.property f n) t) g u) :
    Takes (readAccesses f s) g u := by
  obtain ⟨hr, hp⟩ := Parsed.exists_of_map_rest hp
  obtain ⟨ht, hn⟩ := Parsed.exists_of_map_pair hn
  obtain ⟨hu, hg⟩ := hg
  rw [readAccesses, hp]
  simp only [hn, hg]
  exact ⟨_, rfl⟩

theorem takes_accesses_index (hp : sign '.' s = none) (ho : opening '[' s = some r)
    (hf : Takes (readConditional r) g t) (hc : signAfter isSpacing ']' t = some u)
    (hg : Takes (readAccesses (.index f g) u) h v) : Takes (readAccesses f s) h v := by
  obtain ⟨hr, ho⟩ := Parsed.exists_of_map_rest ho
  obtain ⟨ht, hf⟩ := hf
  obtain ⟨hu, hc⟩ := Parsed.exists_of_map_rest hc
  obtain ⟨hv, hg⟩ := hg
  rw [readAccesses, Option.map_eq_none_iff.1 hp, ho]
  simp only [hf, hc, hg]
  exact ⟨_, rfl⟩

theorem takes_unary_sign {x : Sign} (hs : unarySign s = some (x, r))
    (hf : Takes (readUnary r) f t) : Takes (readUnary s) (x.apply f) t := by
  obtain ⟨hr, hs⟩ := Parsed.exists_of_map_pair hs
  obtain ⟨ht, hf⟩ := hf
  rw [readUnary, hs]
  simp only [hf]
  exact ⟨_, rfl⟩

theorem takes_unary_postfix (hs : unarySign s = none) (ha : Takes (readAtom s) f r)
    (hg : Takes (readAccesses f r) g t) : Takes (readUnary s) g t := by
  obtain ⟨hr, ha⟩ := ha
  obtain ⟨ht, hg⟩ := hg
  rw [readUnary, Option.map_eq_none_iff.1 hs]
  simp only [readPostfix, ha, hg]
  exact ⟨_, rfl⟩

theorem takes_comparison_operator {o : Operator} (hf : Takes (readUnary s) f r)
    (ho : operator r = some (o, t)) (hg : Takes (readUnary t) g u) :
    Takes (readComparison s) (.compare o f g) u := by
  obtain ⟨hr, hf⟩ := hf
  obtain ⟨ht, ho⟩ := Parsed.exists_of_map_pair ho
  obtain ⟨hu, hg⟩ := hg
  rw [readComparison, hf]
  simp only [ho, hg]
  exact ⟨_, rfl⟩

theorem takes_comparison_alone (hf : Takes (readUnary s) f r) (ho : operator r = none) :
    Takes (readComparison s) f r := by
  obtain ⟨hr, hf⟩ := hf
  rw [readComparison, hf]
  simp only [Option.map_eq_none_iff.1 ho]
  exact ⟨_, rfl⟩

theorem takes_conjuncts_end (hb : between "&&".toList s = none) :
    Takes (readConjuncts f s) f s := by
  rw [readConjuncts, Option.map_eq_none_iff.1 hb]
  exact ⟨_, rfl⟩

theorem takes_conjuncts_and (hb : between "&&".toList s = some r)
    (hg : Takes (readComparison r) g t) (hh : Takes (readConjuncts (.and f g) t) h u) :
    Takes (readConjuncts f s) h u := by
  obtain ⟨hr, hb⟩ := Parsed.exists_of_map_rest hb
  obtain ⟨ht, hg⟩ := hg
  obtain ⟨hu, hh⟩ := hh
  rw [readConjuncts, hb]
  simp only [hg, hh]
  exact ⟨_, rfl⟩

theorem takes_and (hf : Takes (readComparison s) f r) (hg : Takes (readConjuncts f r) g t) :
    Takes (readAnd s) g t := by
  obtain ⟨hr, hf⟩ := hf
  obtain ⟨ht, hg⟩ := hg
  rw [readAnd, hf]
  simp only [hg]
  exact ⟨_, rfl⟩

theorem takes_disjuncts_end (hb : between "||".toList s = none) :
    Takes (readDisjuncts f s) f s := by
  rw [readDisjuncts, Option.map_eq_none_iff.1 hb]
  exact ⟨_, rfl⟩

theorem takes_disjuncts_or (hb : between "||".toList s = some r) (hg : Takes (readAnd r) g t)
    (hh : Takes (readDisjuncts (.or f g) t) h u) : Takes (readDisjuncts f s) h u := by
  obtain ⟨hr, hb⟩ := Parsed.exists_of_map_rest hb
  obtain ⟨ht, hg⟩ := hg
  obtain ⟨hu, hh⟩ := hh
  rw [readDisjuncts, hb]
  simp only [hg, hh]
  exact ⟨_, rfl⟩

theorem takes_or (hf : Takes (readAnd s) f r) (hg : Takes (readDisjuncts f r) g t) :
    Takes (readOr s) g t := by
  obtain ⟨hr, hf⟩ := hf
  obtain ⟨ht, hg⟩ := hg
  rw [readOr, hf]
  simp only [hg]
  exact ⟨_, rfl⟩

theorem takes_conditional_alone (hf : Takes (readOr s) f r) (hb : between ['?'] r = none) :
    Takes (readConditional s) f r := by
  obtain ⟨hr, hf⟩ := hf
  rw [readConditional, hf]
  simp only [readBranches, Option.map_eq_none_iff.1 hb]
  exact ⟨_, rfl⟩

theorem takes_conditional_branches {w : List Char} (hf : Takes (readOr s) f r)
    (hq : between ['?'] r = some t) (hg : Takes (readConditional t) g u)
    (hc : between [':'] u = some v) (hh : Takes (readConditional v) h w) :
    Takes (readConditional s) (.conditional f g h) w := by
  obtain ⟨hr, hf⟩ := hf
  obtain ⟨ht, hq⟩ := Parsed.exists_of_map_rest hq
  obtain ⟨hu, hg⟩ := hg
  obtain ⟨hv, hc⟩ := Parsed.exists_of_map_rest hc
  obtain ⟨hw, hh⟩ := hh
  rw [readConditional, hf]
  simp only [readBranches, hq, hg, hc, hh]
  exact ⟨_, rfl⟩

end

end Formula

/-! ### Numbers -/

namespace Body.View

theorem takeWhile_frame {p : Char → Bool} (t : List Char) {s : List Char}
    (hs : ∀ c ∈ s.head?, p c = false) :
    (t ++ s).takeWhile p = t.takeWhile p ∧ (t ++ s).dropWhile p = t.dropWhile p ++ s := by
  induction t with
  | nil =>
    cases s with
    | nil => exact ⟨rfl, rfl⟩
    | cons c s => simp [hs c rfl]
  | cons c t ih =>
    by_cases hc : p c = true
    · simp [hc, ih.1, ih.2]
    · simp [hc]

/-- Takes the digits of a numeral and its point. -/
def mantissa (s : List Char) : Option ((List Char × Option (List Char)) × List Char) :=
  (Numeral.readMantissa s).map Parsed.pair

theorem mantissa_eq (s : List Char) :
    mantissa s =
      match digits s with
      | some (whole, r) =>
        match sign '.' r with
        | some t => some ((whole, some (t.takeWhile Char.isDigit)), t.dropWhile Char.isDigit)
        | none => some ((whole, none), r)
      | none => ((sign '.' s).bind digits).map fun p => (([], some p.1), p.2) := by
  unfold mantissa Numeral.readMantissa digits
  cases Numeral.digits s with
  | some p =>
    obtain ⟨whole, r, h⟩ := p
    simp only [Option.map_some, Parsed.pair]
    split
    · rfl
    · next hr =>
      rw [sign_eq_none fun t ht => by subst ht; exact hr t h rfl HEq.rfl]
      rfl
  | none =>
    dsimp only [Option.map_none]
    split
    · next t =>
      rw [sign_cons, if_pos rfl, Option.bind_some]
      cases Numeral.digits t <;> rfl
    · next hs =>
      rw [sign_eq_none hs]
      rfl

/-- The numerals of formulas: a sign, a mantissa, and an exponent where its mark is. -/
theorem takes_recognize_iff {s r : List Char} {n : Numeral} :
    Takes (Numeral.recognize s) n r ↔
      ∃ m t, mantissa (numeralSign Numeral.isSign s).2 = some (m, t) ∧
        ((mark t = none ∧ r = t ∧ n = ⟨(numeralSign Numeral.isSign s).1, m.1, m.2, none⟩) ∨
          ∃ e u ds, mark t = some (e, u) ∧ digits u = some (ds, r) ∧
            n = ⟨(numeralSign Numeral.isSign s).1, m.1, m.2, some ⟨e.1, e.2, ds⟩⟩) := by
  unfold Numeral.recognize numeralSign mantissa mark digits
  obtain ⟨x, s, hs⟩ := Numeral.readSign Numeral.isSign s
  simp only [Parsed.pair]
  cases Numeral.readMantissa s with
  | none =>
    constructor
    · rintro ⟨_, ⟨⟩⟩
    · rintro ⟨_, _, ⟨⟩, _⟩
  | some p =>
    obtain ⟨⟨whole, fraction⟩, t, ht⟩ := p
    simp only [Option.map_some]
    cases hm : Numeral.readMark t with
    | none =>
      constructor
      · rintro ⟨_, ⟨⟩⟩
        exact ⟨_, _, rfl, Or.inl ⟨by rw [hm]; rfl, rfl, rfl⟩⟩
      · rintro ⟨_, _, ⟨⟩, ⟨-, rfl, rfl⟩ | ⟨_, _, _, he, _⟩⟩
        · exact ⟨_, rfl⟩
        · rw [hm] at he
          cases he
    | some q =>
      obtain ⟨⟨m, y⟩, u, hu⟩ := q
      dsimp only
      cases hd : Numeral.digits u with
      | none =>
        constructor
        · rintro ⟨_, ⟨⟩⟩
        · rintro ⟨_, _, ⟨⟩, ⟨he, _⟩ | ⟨_, _, _, he, hu, _⟩⟩ <;> rw [hm] at he <;> cases he
          rw [hd] at hu
          cases hu
      | some d =>
        constructor
        · rintro ⟨_, ⟨⟩⟩
          exact ⟨_, _, rfl, Or.inr ⟨_, _, _, by rw [hm]; rfl, by rw [hd]; rfl, rfl⟩⟩
        · rintro ⟨_, _, ⟨⟩, ⟨he, _⟩ | ⟨_, _, _, he, hu, rfl⟩⟩ <;> rw [hm] at he <;> cases he
          rw [hd] at hu
          cases hu
          exact ⟨_, rfl⟩

/-- The characters that begin a numeral of a formula. -/
def isFloatStart (c : Char) : Bool :=
  c.isDigit || c = '.' || Numeral.isSign c

variable {s t r : List Char}

theorem exists_of_recognize {n : Numeral} (h : Takes (Numeral.recognize t) n r) :
    ∃ c u, t = c :: u ∧ isFloatStart c = true := by
  obtain ⟨m, u, hm, -⟩ := takes_recognize_iff.1 h
  cases t with
  | nil => cases hm
  | cons c t =>
    refine ⟨c, t, rfl, ?_⟩
    rw [numeralSign_cons] at hm
    split at hm
    · next hc => simp [isFloatStart, hc]
    · rw [mantissa_eq, digits_cons, sign_cons] at hm
      by_cases hd : c.isDigit = true
      · simp [isFloatStart, hd]
      · by_cases hp : c = '.'
        · simp [isFloatStart, hp]
        · simp [hd, hp] at hm

theorem isNameStart_of_isFloatStart {c : Char} (h : isFloatStart c = true) :
    isNameStart c = false := by
  simp only [isFloatStart, Numeral.isSign, Bool.or_eq_true, decide_eq_true_eq] at h
  rcases h with (h | rfl) | rfl | rfl
  · exact (class_of_isDigit h).2
  all_goals decide +kernel

theorem digits_frame {ds : List Char} (h : digits t = some (ds, r)) (hs : NameEnds s) :
    digits (t ++ s) = some (ds, r ++ s) := by
  cases t with
  | nil => cases h
  | cons c t =>
    rw [digits_cons] at h
    split at h
    · next hc =>
      cases h
      obtain ⟨ht, hd⟩ := takeWhile_frame t (isDigit_head?_of_nameEnds hs)
      rw [List.cons_append, digits_cons, if_pos hc, ht, hd]
    · cases h

theorem sign_frame {c : Char} (h : sign c t = none) (hs : sign c s = none) :
    sign c (t ++ s) = none := by
  cases t with
  | nil => exact hs
  | cons d t =>
    rw [sign_cons] at h
    rw [List.cons_append, sign_cons]
    split at h
    · cases h
    · next hd => rw [if_neg hd]

theorem mantissa_frame {m : List Char × Option (List Char)} (h : mantissa t = some (m, r))
    (hs : NameEnds s) (hp : sign '.' s = none) : mantissa (t ++ s) = some (m, r ++ s) := by
  rw [mantissa_eq] at h ⊢
  cases hd : digits t with
  | some p =>
    obtain ⟨whole, u⟩ := p
    rw [hd] at h
    rw [digits_frame hd hs]
    dsimp only at h ⊢
    cases hu : sign '.' u with
    | some v =>
      obtain rfl := sign_eq_some_iff.1 hu
      obtain ⟨ht, hd⟩ := takeWhile_frame v (isDigit_head?_of_nameEnds hs)
      rw [hu] at h
      cases h
      rw [List.cons_append, sign_cons, if_pos rfl]
      dsimp only
      rw [ht, hd]
    | none =>
      rw [hu] at h
      cases h
      rw [sign_frame hu hp]
  | none =>
    rw [hd] at h
    obtain ⟨⟨ds, u⟩, hb, ⟨⟩⟩ := Option.map_eq_some_iff.1 h
    obtain ⟨v, hv, hds⟩ := Option.bind_eq_some_iff.1 hb
    obtain rfl := sign_eq_some_iff.1 hv
    rw [List.cons_append, digits_cons_of_not (by decide), sign_cons, if_pos rfl]
    dsimp only [Option.bind_some]
    rw [digits_frame hds hs]
    rfl

theorem numeralSign_frame {p : Char → Bool} (ht : t ≠ []) (s : List Char) :
    numeralSign p (t ++ s) = ((numeralSign p t).1, (numeralSign p t).2 ++ s) := by
  cases t with
  | nil => exact absurd rfl ht
  | cons c t =>
    rw [List.cons_append, numeralSign_cons, numeralSign_cons]
    split <;> rfl

theorem mark_frame {e : Char × Option Char} (h : mark t = some (e, r)) (hr : r ≠ [])
    (s : List Char) : mark (t ++ s) = some (e, r ++ s) := by
  cases t with
  | nil => cases h
  | cons c t =>
    rw [mark_cons] at h
    rw [List.cons_append, mark_cons]
    split at h
    · next hc =>
      cases h
      have ht : t ≠ [] := by
        rintro rfl
        exact hr rfl
      rw [if_pos hc, numeralSign_frame ht]
      rfl
    · cases h

/-- A whole numeral is taken from in front of a text that does not go on with it. -/
theorem recognize_frame {n : Numeral} (h : Takes (Numeral.recognize t) n []) (hs : NameEnds s)
    (hp : sign '.' s = none) : Takes (Numeral.recognize (t ++ s)) n s := by
  obtain ⟨m, u, hm, hu⟩ := takes_recognize_iff.1 h
  have ht : t ≠ [] := by
    rintro rfl
    cases hm
  have hn : numeralSign Numeral.isSign (t ++ s) = _ := numeralSign_frame ht s
  refine takes_recognize_iff.2 ⟨m, u ++ s, ?_, ?_⟩
  · rw [hn, mantissa_frame hm hs hp]
  · rw [hn]
    rcases hu with ⟨-, rfl, rfl⟩ | ⟨e, v, ds, he, hd, rfl⟩
    · exact Or.inl ⟨mark_of_nameEnds hs, rfl, rfl⟩
    · have hv : v ≠ [] := by
        rintro rfl
        cases hd
      exact Or.inr ⟨e, v ++ s, ds, mark_frame he hv s, digits_frame hd hs, rfl⟩

end Body.View

end SpecEngine
