import Mathlib.Data.Bool.AllAny
import Mathlib.Data.List.TakeWhile
import SpecEngine.Body.Shorthand
import SpecEngine.Proofs.Reading

/-!
# Code, texts and comments of bodies

Which characters of a body are code, which stand in a text between quotes and which in a comment,
and where a short form of an assertion would begin.

* `Shorthand.Begins`, `Shorthand.Within`: short forms at the front of a text and inside one;
* `Expr.texts`: the texts between quotes in an expression;
* `Lexes`: a row of code characters, texts and comments, with no short form in the code;
  `Lexes.split`: it is cut in one way only;
* `lexes_expr`, `lexes_statements`: what is read is such a row, and its texts are texts of what it
  is read as.
-/

namespace SpecEngine

namespace Shorthand

/-- A text that begins with a short form: the word of an assertion, with a blank or the end of the
line behind it. -/
def Begins (s : List Char) : Prop :=
  ∃ m v, s = ".should_".toList ++ (m ++ v) ∧ m ≠ [] ∧ (∀ c ∈ m, Text.isWordChar c = true) ∧
    (v = [] ∨ ∃ w, v = ' ' :: w ∨ v = '\n' :: w)

/-- A text with a short form in it, and a blank behind the word of the assertion. -/
def Within (t : List Char) : Prop :=
  ∃ u m w, t = u ++ (".should_".toList ++ (m ++ ' ' :: w)) ∧ m ≠ [] ∧
    ∀ c ∈ m, Text.isWordChar c = true

/-- Signs that cannot be part of a short form up to its blank. -/
def IsStop (d : Char) : Prop :=
  Text.isWordChar d = false ∧ d ≠ '.' ∧ d ≠ ' ' ∧ d ≠ '\n'

instance (d : Char) : Decidable (IsStop d) :=
  inferInstanceAs (Decidable (Text.isWordChar d = false ∧ d ≠ '.' ∧ d ≠ ' ' ∧ d ≠ '\n'))

theorem isWordChar_of_mem_should {c : Char} (h : c ∈ ".should_".toList) :
    c = '.' ∨ Text.isWordChar c = true := by
  have hall : (".should_".toList.all fun c => c = '.' || Text.isWordChar c) = true := by
    decide +kernel
  simpa using List.all_eq_true.1 hall c h

theorem not_begins_of_ne {c : Char} (h : c ≠ '.') (s : List Char) : ¬ Begins (c :: s) := by
  rintro ⟨m, v, hs, -⟩
  exact h (List.cons.inj hs).1

theorem not_begins_of_after? {s : List Char} (h : Text.after? ".should_".toList s = none) :
    ¬ Begins s := by
  rintro ⟨m, v, rfl, -⟩
  rw [Text.after?_append] at h
  cases h

/-- Whether a short form begins is decided before the first sign that stops it. -/
theorem begins_append_cons {a w : List Char} {d : Char} (hd : IsStop d) (h : Begins (a ++ d :: w)) :
    ∃ m b u, a = ".should_".toList ++ (m ++ b :: u) ∧ m ≠ [] ∧
      (∀ c ∈ m, Text.isWordChar c = true) ∧ (b = ' ' ∨ b = '\n') := by
  obtain ⟨m, v, hs, hm, hw, hv⟩ := h
  obtain ⟨hdw, hdp, hds, hdn⟩ := hd
  have hdv : ∀ u, v ≠ d :: u := by
    rintro u rfl
    rcases hv with hv | ⟨w, hv | hv⟩
    · cases hv
    · exact hds (List.cons.inj hv).1
    · exact hdn (List.cons.inj hv).1
  have hdm : d ∉ ".should_".toList ++ m := by
    intro h
    rcases List.mem_append.1 h with h | h
    · rcases isWordChar_of_mem_should h with h | h
      · exact hdp h
      · rw [hdw] at h
        cases h
    · have := hw d h
      rw [hdw] at this
      cases this
  rw [← List.append_assoc] at hs
  rcases List.append_eq_append_iff.1 hs with ⟨u, hu, hr⟩ | ⟨u, hu, hr⟩
  · cases u with
    | nil => exact absurd hr.symm (hdv w)
    | cons c u =>
      obtain ⟨rfl, -⟩ := List.cons.inj hr
      exact absurd (by rw [hu]; simp) hdm
  · cases u with
    | nil => exact absurd hr (hdv w)
    | cons b u =>
      refine ⟨m, b, u, by rw [hu, List.append_assoc], hm, hw, ?_⟩
      rcases hv with hv | ⟨w, hv | hv⟩
      · rw [hv] at hr
        cases hr
      · rw [hv] at hr
        exact Or.inl (List.cons.inj hr).1.symm
      · rw [hv] at hr
        exact Or.inr (List.cons.inj hr).1.symm

end Shorthand

/-! ### Texts of expressions -/

mutual

/-- The texts between quotes in an expression, keys of fields included. -/
def Expr.texts : Expr → List String
  | .string s => [s]
  | .list items => Expr.textsOfItems items
  | .object fields => Expr.textsOfFields fields
  | .boxed inner => inner.texts
  | .callable _ body => Statement.textsOfAll body
  | .property target _ => target.texts
  | .call target => target.texts
  | .assertion actual _ _ expected => actual.texts ++ Expr.textsOfExpected expected
  | .undefined | .null | .bool _ | .number _ | .name _ => []

/-- The texts between quotes in an expected value, which may be missing. -/
def Expr.textsOfExpected : Option Expr → List String
  | none => []
  | some e => e.texts

/-- The texts between quotes in the items of a list. -/
def Expr.textsOfItems : List Expr → List String
  | [] => []
  | e :: es => e.texts ++ Expr.textsOfItems es

/-- The keys of the fields of an object, and the texts between quotes in their values. -/
def Expr.textsOfFields : List (String × Expr) → List String
  | [] => []
  | (k, e) :: fs => k :: (e.texts ++ Expr.textsOfFields fs)

/-- The texts between quotes in a statement. -/
def Statement.texts : Statement → List String
  | .bind _ e => e.texts
  | .raise e => e.texts
  | .expr e => e.texts

/-- The texts between quotes in a row of statements. -/
def Statement.textsOfAll : List Statement → List String
  | [] => []
  | s :: ss => s.texts ++ Statement.textsOfAll ss

end

namespace Body

/-! ### Rows of code, texts and comments -/

/-- What stands before the first `d` of a text is determined by the text. -/
theorem append_inj_of_notMem {d : Char} {l l' s s' : List Char} (hl : d ∉ l) (hl' : d ∉ l')
    (hs : s = [] ∨ ∃ v, s = d :: v) (hs' : s' = [] ∨ ∃ v, s' = d :: v) (h : l ++ s = l' ++ s') :
    l = l' ∧ s = s' := by
  have hsl : ∀ {l s : List Char}, d ∉ l → (s = [] ∨ ∃ v, s = d :: v) →
      (l ++ s).takeWhile (· ≠ d) = l := by
    intro l s hl hs
    rw [List.takeWhile_append_of_pos fun c hc =>
      decide_eq_true (ne_of_mem_of_not_mem hc hl)]
    rcases hs with rfl | ⟨v, rfl⟩ <;> simp
  have := hsl hl hs
  rw [h, hsl hl' hs'] at this
  subst this
  exact ⟨rfl, List.append_cancel_left h⟩

/-- Characters of code. -/
def IsCode (c : Char) : Prop :=
  c ≠ '\'' ∧ c ≠ '"' ∧ c ≠ '/' ∧ c ≠ '\r'

instance (c : Char) : Decidable (IsCode c) :=
  inferInstanceAs (Decidable (c ≠ '\'' ∧ c ≠ '"' ∧ c ≠ '/' ∧ c ≠ '\r'))

/-- A row of code characters, texts between quotes and comments, from one text to a later one.  No
short form begins in the code, and `P` holds for the texts. -/
inductive Lexes (P : List Char → Prop) : List Char → List Char → Prop
  | refl (s) : Lexes P s s
  | code {c s r} (hc : IsCode c) (hb : ¬ Shorthand.Begins (c :: s)) (h : Lexes P s r) :
      Lexes P (c :: s) r
  | quoted {q t s r} (hq : q = '\'' ∨ q = '"') (ht : q ∉ t ∧ '\n' ∉ t ∧ '\r' ∉ t) (hP : P t)
      (h : Lexes P s r) : Lexes P (q :: (t ++ q :: s)) r
  | comment {l s r} (hl : '\n' ∉ l ∧ '\r' ∉ l) (hs : s = [] ∨ ∃ u, s = '\n' :: u)
      (h : Lexes P s r) : Lexes P ('/' :: '/' :: (l ++ s)) r

namespace Lexes

variable {P Q : List Char → Prop} {s r t : List Char}

theorem trans (h : Lexes P s r) (h' : Lexes P r t) : Lexes P s t := by
  induction h with
  | refl => exact h'
  | code hc hb _ ih => exact .code hc hb (ih h')
  | quoted hq ht hP _ ih => exact .quoted hq ht hP (ih h')
  | comment hl hs _ ih => exact .comment hl hs (ih h')

theorem suffix (h : Lexes P s r) : r <:+ s := by
  induction h with
  | refl => exact List.suffix_rfl
  | code _ _ _ ih => exact ih.trans (List.suffix_cons _ _)
  | @quoted q t s r _ _ _ _ ih => exact ih.trans ⟨q :: (t ++ [q]), by simp⟩
  | @comment l s r _ _ _ ih => exact ih.trans ⟨'/' :: '/' :: l, by simp⟩

theorem notMem_return (h : Lexes P s r) (hs : '\r' ∉ s) : '\r' ∉ r :=
  fun hr => hs (h.suffix.mem hr)

theorem return_notMem (h : Lexes P s r) (hr : '\r' ∉ r) : '\r' ∉ s := by
  induction h with
  | refl => exact hr
  | code hc _ _ ih => exact List.not_mem_cons_of_ne_of_not_mem (Ne.symm hc.2.2.2) (ih hr)
  | @quoted q t s r hq ht _ _ ih =>
    have hqr : '\r' ≠ q := by
      rintro rfl
      rcases hq with hq | hq <;> cases hq
    simp [hqr, ht.2.2, ih hr]
  | comment hl _ _ ih => simp [hl.2, ih hr]

/-- How a whole text can begin. -/
theorem cases_cons {c : Char} {u : List Char} (h : Lexes P (c :: u) []) :
    (IsCode c ∧ ¬ Shorthand.Begins (c :: u) ∧ Lexes P u []) ∨
      (∃ t s, (c = '\'' ∨ c = '"') ∧ u = t ++ c :: s ∧ (c ∉ t ∧ '\n' ∉ t ∧ '\r' ∉ t) ∧ P t ∧
        Lexes P s []) ∨
      ∃ l s, c = '/' ∧ u = '/' :: (l ++ s) ∧ ('\n' ∉ l ∧ '\r' ∉ l) ∧
        (s = [] ∨ ∃ v, s = '\n' :: v) ∧ Lexes P s [] := by
  generalize hx : c :: u = x at h
  cases h with
  | refl => cases hx
  | code hc hb h =>
    cases hx
    exact Or.inl ⟨hc, hb, h⟩
  | quoted hq ht hP h =>
    cases hx
    exact Or.inr (Or.inl ⟨_, _, hq, rfl, ht, hP, h⟩)
  | comment hl hs h =>
    cases hx
    exact Or.inr (Or.inr ⟨_, _, rfl, rfl, hl, hs, h⟩)

theorem of_code {c : Char} {u : List Char} (hc : IsCode c) (h : Lexes P (c :: u) []) :
    ¬ Shorthand.Begins (c :: u) ∧ Lexes P u [] := by
  rcases h.cases_cons with ⟨-, h⟩ | ⟨t, s, rfl | rfl, -⟩ | ⟨l, s, rfl, -⟩
  · exact h
  · exact absurd rfl hc.1
  · exact absurd rfl hc.2.1
  · exact absurd rfl hc.2.2.1

theorem of_quote {q : Char} {u : List Char} (hq : q = '\'' ∨ q = '"') (h : Lexes P (q :: u) []) :
    ∃ t s, u = t ++ q :: s ∧ (q ∉ t ∧ '\n' ∉ t ∧ '\r' ∉ t) ∧ P t ∧ Lexes P s [] := by
  rcases h.cases_cons with ⟨hc, -⟩ | ⟨t, s, -, h⟩ | ⟨l, s, rfl, -⟩
  · rcases hq with rfl | rfl
    · exact absurd rfl hc.1
    · exact absurd rfl hc.2.1
  · exact ⟨t, s, h⟩
  · rcases hq with hq | hq <;> cases hq

theorem of_slash {u : List Char} (h : Lexes P ('/' :: u) []) :
    ∃ l s, u = '/' :: (l ++ s) ∧ ('\n' ∉ l ∧ '\r' ∉ l) ∧ (s = [] ∨ ∃ v, s = '\n' :: v) ∧
      Lexes P s [] := by
  rcases h.cases_cons with ⟨hc, -⟩ | ⟨t, s, hq, -⟩ | ⟨l, s, -, h⟩
  · exact absurd rfl hc.2.2.1
  · rcases hq with hq | hq <;> cases hq
  · exact ⟨l, s, h⟩

/-- A whole text is cut into code, texts and comments in one way only. -/
theorem split (h : Lexes Q s r) (h' : Lexes P s []) : Lexes P s r ∧ Lexes P r [] := by
  induction h with
  | refl s => exact ⟨.refl s, h'⟩
  | code hc hb _ ih =>
    obtain ⟨hb, h'⟩ := h'.of_code hc
    exact ⟨.code hc hb (ih h').1, (ih h').2⟩
  | @quoted q t s r hq ht _ _ ih =>
    obtain ⟨t', s', hu, ht', hP, h'⟩ := h'.of_quote hq
    obtain ⟨rfl, hs⟩ := append_inj_of_notMem ht.1 ht'.1 (Or.inr ⟨s, rfl⟩) (Or.inr ⟨s', rfl⟩) hu
    cases hs
    exact ⟨.quoted hq ht hP (ih h').1, (ih h').2⟩
  | comment hl hs _ ih =>
    obtain ⟨l', s', hu, hl', hs', h'⟩ := h'.of_slash
    obtain ⟨rfl, rfl⟩ := append_inj_of_notMem hl.1 hl'.1 hs hs' (List.cons.inj hu).2
    exact ⟨.comment hl hs (ih h').1, (ih h').2⟩

end Lexes

/-! ### Smallest parts -/

/-- Characters of code with which no short form begins. -/
def IsPlain (c : Char) : Prop :=
  IsCode c ∧ c ≠ '.'

instance (c : Char) : Decidable (IsPlain c) :=
  inferInstanceAs (Decidable (IsCode c ∧ c ≠ '.'))

theorem isCode_point : IsCode '.' := by decide

theorem isPlain_of {p : Char → Bool}
    (h : ['\'', '"', '/', '\r', '.'].all (fun c => !p c) = true) {c : Char} (hc : p c = true) :
    IsPlain c := by
  have hn : ∀ d ∈ ['\'', '"', '/', '\r', '.'], c ≠ d := by
    rintro d hd rfl
    have := List.all_eq_true.1 h c hd
    rw [hc] at this
    cases this
  simp only [List.forall_mem_cons] at hn
  exact ⟨⟨hn.1, hn.2.1, hn.2.2.1, hn.2.2.2.1⟩, hn.2.2.2.2.1⟩

theorem isPlain_of_isNameStart {c : Char} : isNameStart c = true → IsPlain c :=
  isPlain_of (by decide +kernel)

theorem isPlain_of_isNameChar {c : Char} : isNameChar c = true → IsPlain c :=
  isPlain_of (by decide +kernel)

theorem isPlain_of_isDigit {c : Char} : c.isDigit = true → IsPlain c :=
  isPlain_of (by decide)

theorem isPlain_of_isSign {c : Char} : Numeral.isSign c = true → IsPlain c :=
  isPlain_of (by decide)

theorem isPlain_of_minus {c : Char} : decide (c = '-') = true → IsPlain c :=
  isPlain_of (p := fun c => decide (c = '-')) (by decide)

theorem isPlain_of_isMark {c : Char} : (c = 'e' || c = 'E') = true → IsPlain c :=
  isPlain_of (p := fun c => c = 'e' || c = 'E') (by decide)

theorem isPlain_of_isSpace {c : Char} : isSpace c = true → IsPlain c :=
  isPlain_of (by decide)

theorem isPlain_of_mem_arrow : ∀ c ∈ "->".toList, IsPlain c :=
  List.all_iff_forall_prop.1 (by decide +kernel)

theorem isPlain_of_mem_not : ∀ c ∈ "not_".toList, IsPlain c :=
  List.all_iff_forall_prop.1 (by decide +kernel)

theorem isPlain_of_mem_should : ∀ c ∈ "should_".toList, IsPlain c :=
  List.all_iff_forall_prop.1 (by decide +kernel)

/-- Spacing is plain in a text without carriage returns. -/
theorem isPlain_of_isSpacing {s : List Char} (hs : '\r' ∉ s) {c : Char} (hc : c ∈ s)
    (h : isSpacing c = true) : IsPlain c := by
  have hr : c ≠ '\r' := ne_of_mem_of_not_mem hc hs
  simp only [isSpacing, Bool.or_eq_true, decide_eq_true_eq] at h
  rcases h with ((rfl | rfl) | rfl) | rfl
  · decide
  · decide
  · exact absurd rfl hr
  · decide

open View

section

variable {P : List Char → Prop} {s r : List Char}

theorem Lexes.plain {c : Char} (hc : IsPlain c) (h : Lexes P s r) : Lexes P (c :: s) r :=
  .code hc.1 (Shorthand.not_begins_of_ne hc.2 s) h

theorem lexes_append {p : List Char} (hp : ∀ c ∈ p, IsPlain c) (s : List Char) :
    Lexes P (p ++ s) s := by
  induction p with
  | nil => exact .refl s
  | cons c p ih => exact (ih fun d hd => hp d (by simp [hd])).plain (hp c (by simp))

theorem lexes_dropWhile {q : Char → Bool} (hq : ∀ c ∈ s, q c = true → IsPlain c) :
    Lexes P s (s.dropWhile q) := by
  have h := lexes_append (P := P) (p := s.takeWhile q)
    (fun c hc => hq c (List.takeWhile_subset q hc) (List.mem_takeWhile_imp hc)) (s.dropWhile q)
  rwa [List.takeWhile_append_dropWhile] at h

theorem lexes_sign {c : Char} (hc : IsPlain c) (h : sign c s = some r) : Lexes P s r := by
  rw [sign_eq_some_iff.1 h]
  exact (Lexes.refl r).plain hc

theorem lexes_signAfter {q : Char → Bool} {c : Char} (hq : ∀ c ∈ s, q c = true → IsPlain c)
    (hc : IsPlain c) (h : signAfter q c s = some r) : Lexes P s r := by
  rw [signAfter_eq] at h
  exact (lexes_dropWhile hq).trans (lexes_sign hc h)

theorem lexes_signAfter_spacing (hs : '\r' ∉ s) {c : Char} (hc : IsPlain c)
    (h : signAfter isSpacing c s = some r) : Lexes P s r :=
  lexes_signAfter (fun _ => isPlain_of_isSpacing hs) hc h

theorem lexes_signAfter_space {c : Char} (hc : IsPlain c) (h : signAfter isSpace c s = some r) :
    Lexes P s r :=
  lexes_signAfter (fun _ _ => isPlain_of_isSpace) hc h

theorem lexes_opening (hs : '\r' ∉ s) {c : Char} (hc : IsPlain c) (h : opening c s = some r) :
    Lexes P s r := by
  rw [opening_eq] at h
  obtain ⟨t, ht, rfl⟩ := Option.map_eq_some_iff.1 h
  have hl : Lexes P s t := lexes_sign hc ht
  exact hl.trans (lexes_dropWhile fun c => isPlain_of_isSpacing (hl.notMem_return hs))

theorem lexes_comma (hs : '\r' ∉ s) (h : comma s = some r) : Lexes P s r := by
  rw [comma_eq] at h
  obtain ⟨t, ht, rfl⟩ := Option.map_eq_some_iff.1 h
  have hl : Lexes P s t := lexes_signAfter_spacing hs (by decide) ht
  exact hl.trans (lexes_dropWhile fun c => isPlain_of_isSpacing (hl.notMem_return hs))

theorem lexes_closing (hs : '\r' ∉ s) {c : Char} (hc : IsPlain c) (h : closing c s = some r) :
    Lexes P s r := by
  rw [closing_eq] at h
  cases hk : signAfter isSpacing ',' s with
  | none =>
    rw [hk] at h
    exact lexes_signAfter_spacing hs hc h
  | some t =>
    rw [hk] at h
    have hl : Lexes P s t := lexes_signAfter_spacing hs (by decide) hk
    exact hl.trans (lexes_signAfter_spacing (hl.notMem_return hs) hc h)

/-- A word of plain characters. -/
theorem lexes_after? {w : List Char} (hw : ∀ c ∈ w, IsPlain c) (h : Text.after? w s = some r) :
    Lexes P s r := by
  rw [Text.eq_append_of_after? h]
  exact lexes_append hw r

theorem lexes_arrow (h : arrow s = some r) : Lexes P s r := by
  rw [arrow_eq] at h
  obtain ⟨t, ht, h⟩ := Option.bind_eq_some_iff.1 h
  exact (lexes_after? isPlain_of_mem_arrow ht).trans (lexes_signAfter_space (by decide) h)

theorem lexes_name {n : String} (h : name s = some (n, r)) : Lexes P s r := by
  cases s with
  | nil => cases h
  | cons c s =>
    rw [name_cons] at h
    split at h
    · next hc =>
      cases h
      exact (lexes_dropWhile fun _ _ => isPlain_of_isNameChar).plain (isPlain_of_isNameStart hc)
    · cases h

theorem lexes_string (hs : '\r' ∉ s) {t : String} (h : string s = some (t, r)) (ht : P t.toList) :
    Lexes P s r := by
  cases s with
  | nil => cases h
  | cons c s =>
    rw [string_cons] at h
    split at h
    · next hc =>
      obtain ⟨⟨t, r⟩, hp, heq⟩ := Option.map_eq_some_iff.1 h
      cases heq
      obtain ⟨rfl, hq, hn⟩ := eq_append_of_quoted hp
      refine .quoted (by simpa using hc) ⟨hq, hn, fun hr => hs (by simp [hr])⟩ ?_ (.refl r)
      simpa using ht
    · cases h

/-! ### Numerals -/

theorem lexes_digits {ds : List Char} (h : digits s = some (ds, r)) : Lexes P s r := by
  cases s with
  | nil => cases h
  | cons c s =>
    rw [digits_cons] at h
    split at h
    · next hc =>
      cases h
      exact (lexes_dropWhile fun _ _ => isPlain_of_isDigit).plain (isPlain_of_isDigit hc)
    · cases h

theorem lexes_numeralSign {p : Char → Bool} (hp : ∀ c, p c = true → IsPlain c) (s : List Char) :
    Lexes P s (numeralSign p s).2 := by
  cases s with
  | nil => exact .refl []
  | cons c s =>
    rw [numeralSign_cons]
    split
    · next hc => exact (Lexes.refl s).plain (hp c hc)
    · exact .refl _

/-- A point in front of a digit begins no short form. -/
theorem not_begins_of_digits {p : List Char × List Char} (h : digits s = some p) :
    ¬ Shorthand.Begins ('.' :: s) := by
  refine Shorthand.not_begins_of_after? ?_
  cases s with
  | nil => cases h
  | cons d s =>
    rw [digits_cons] at h
    split at h
    · next hd =>
      have hs : 's' ≠ d := by
        rintro rfl
        cases hd
      simp [Text.after?, hs]
    · cases h

theorem lexes_fraction (s : List Char) : Lexes P s (fraction s).2 := by
  rw [fraction_eq]
  cases h : (sign '.' s).bind digits with
  | none => exact .refl s
  | some p =>
    obtain ⟨t, ht, hd⟩ := Option.bind_eq_some_iff.1 h
    rw [sign_eq_some_iff.1 ht]
    exact .code isCode_point (not_begins_of_digits hd) (lexes_digits hd)

theorem lexes_mark {m : Char × Option Char} (h : mark s = some (m, r)) : Lexes P s r := by
  cases s with
  | nil => cases h
  | cons c s =>
    rw [mark_cons] at h
    split at h
    · next hc =>
      cases h
      exact (lexes_numeralSign (fun _ => isPlain_of_isSign) s).plain (isPlain_of_isMark hc)
    · cases h

theorem lexes_exponent (s : List Char) : Lexes P s (exponent s).2 := by
  rw [exponent_eq]
  cases hm : mark s with
  | none => exact .refl s
  | some p =>
    dsimp only
    cases hd : digits p.2 with
    | none => exact .refl s
    | some q => exact (lexes_mark hm).trans (lexes_digits hd)

theorem lexes_numeral {n : Numeral} (h : numeral s = some (n, r)) : Lexes P s r := by
  rw [numeral_eq] at h
  obtain ⟨⟨whole, t⟩, hd, heq⟩ := Option.map_eq_some_iff.1 h
  cases heq
  exact (lexes_numeralSign (fun _ => isPlain_of_minus) s).trans ((lexes_digits hd).trans
    ((lexes_fraction t).trans (lexes_exponent _)))

/-! ### How larger parts begin -/

theorem lexes_lead (hs : '\r' ∉ s) {l : Lead} (h : lead s = some (l, r))
    (ht : ∀ t, l = .string t → P t.toList) : Lexes P s r := by
  rw [lead_eq] at h
  rcases Option.or_eq_some_iff.1 h with h | ⟨-, h⟩
  · obtain ⟨t, h, heq⟩ := Option.map_eq_some_iff.1 h
    cases heq
    exact lexes_arrow h
  rcases Option.or_eq_some_iff.1 h with h | ⟨-, h⟩
  · obtain ⟨⟨v, t⟩, hv, heq⟩ := Option.map_eq_some_iff.1 h
    cases heq
    exact lexes_numeral hv
  rcases Option.or_eq_some_iff.1 h with h | ⟨-, h⟩
  · obtain ⟨⟨v, t⟩, hv, heq⟩ := Option.map_eq_some_iff.1 h
    cases heq
    exact lexes_string hs hv (ht _ rfl)
  rcases Option.or_eq_some_iff.1 h with h | ⟨-, h⟩
  · obtain ⟨t, h, heq⟩ := Option.map_eq_some_iff.1 h
    cases heq
    exact lexes_opening hs (by decide) h
  rcases Option.or_eq_some_iff.1 h with h | ⟨-, h⟩
  · obtain ⟨t, h, heq⟩ := Option.map_eq_some_iff.1 h
    cases heq
    exact lexes_opening hs (by decide) h
  rcases Option.or_eq_some_iff.1 h with h | ⟨-, h⟩
  · obtain ⟨⟨v, t⟩, hv, heq⟩ := Option.map_eq_some_iff.1 h
    cases heq
    exact lexes_name hv
  · obtain ⟨t, h, heq⟩ := Option.map_eq_some_iff.1 h
    cases heq
    exact lexes_opening hs (by decide) h

theorem lexes_not (s : List Char) : Lexes P s (View.not s).2 := by
  rw [not_eq]
  cases h : Text.after? "not_".toList s with
  | none => exact .refl s
  | some t => exact lexes_after? isPlain_of_mem_not h

theorem lexes_matcher (hs : '\r' ∉ s) {m : Bool × String} (h : matcher s = some (m, r)) :
    Lexes P s r := by
  rw [matcher_eq] at h
  obtain ⟨⟨n, t⟩, hn, h⟩ := Option.bind_eq_some_iff.1 h
  obtain ⟨u, hu, heq⟩ := Option.map_eq_some_iff.1 h
  cases heq
  have hl : Lexes P s t := (lexes_not s).trans (lexes_name hn)
  exact hl.trans (lexes_opening (hl.notMem_return hs) (by decide) hu)

theorem exists_of_name {n : String} (h : name s = some (n, r)) :
    ∃ w, s = w ++ r ∧ ∀ c ∈ w, isNameStart c = true ∨ isNameChar c = true := by
  cases s with
  | nil => cases h
  | cons c s =>
    rw [name_cons] at h
    split at h
    · next hc =>
      cases h
      refine ⟨c :: s.takeWhile isNameChar, by simp, ?_⟩
      intro d hd
      rcases List.mem_cons.1 hd with rfl | hd
      · exact Or.inl hc
      · exact Or.inr (List.mem_takeWhile_imp hd)
    · cases h

/-- Between the word of an assertion in the bracketed form and its bracket there is neither a blank
nor a line feed. -/
theorem exists_of_matcher {m : Bool × String} (h : matcher s = some (m, r)) :
    ∃ w t, s = w ++ '(' :: t ∧ ' ' ∉ w ∧ '\n' ∉ w := by
  rw [matcher_eq] at h
  obtain ⟨⟨n, t⟩, hn, h⟩ := Option.bind_eq_some_iff.1 h
  obtain ⟨u, hu, -⟩ := Option.map_eq_some_iff.1 h
  rw [opening_eq] at hu
  obtain ⟨v, hv, -⟩ := Option.map_eq_some_iff.1 hu
  obtain rfl := sign_eq_some_iff.1 hv
  obtain ⟨w, hw, hc⟩ := exists_of_name hn
  have hd : ∀ d, isNameStart d = false → isNameChar d = false → d ∉ w := by
    intro d hs hr hd
    rcases hc d hd with h | h
    · rw [hs] at h
      cases h
    · rw [hr] at h
      cases h
  have hs := hd ' ' (by decide +kernel) (by decide +kernel)
  have hf := hd '\n' (by decide +kernel) (by decide +kernel)
  rw [not_eq] at hw
  cases ha : Text.after? "not_".toList s with
  | none =>
    rw [ha] at hw
    exact ⟨w, v, hw, hs, hf⟩
  | some t =>
    rw [ha] at hw
    refine ⟨"not_".toList ++ w, v, ?_, by simp [hs], by simp [hf]⟩
    rw [Text.eq_append_of_after? ha, List.append_assoc]
    exact congrArg _ hw

/-- The bracketed form is no short form. -/
theorem not_begins_of_matcher {m : Bool × String} (h : matcher s = some (m, r)) :
    ¬ Shorthand.Begins (".should_".toList ++ s) := by
  obtain ⟨w, t, rfl, hs, hn⟩ := exists_of_matcher h
  intro hb
  rw [← List.append_assoc] at hb
  obtain ⟨v, b, u, hw, -, -, hb⟩ := Shorthand.begins_append_cons (by decide +kernel) hb
  have hw := List.append_cancel_left hw
  rcases hb with rfl | rfl
  · exact hs (by simp [hw])
  · exact hn (by simp [hw])

theorem lexes_suffix (hs : '\r' ∉ s) {l : Suffix} (h : suffix s = some (l, r)) : Lexes P s r := by
  rw [suffix_eq] at h
  cases ha : Text.after? ".should_".toList s with
  | some t =>
    rw [ha] at h
    obtain ⟨p, hm, heq⟩ := Option.map_eq_some_iff.1 h
    cases heq
    obtain rfl := Text.eq_append_of_after? ha
    refine .code isCode_point (not_begins_of_matcher hm) ?_
    exact (lexes_append isPlain_of_mem_should t).trans
      (lexes_matcher (fun h => hs (by simp [h])) hm)
  | none =>
    rw [ha] at h
    dsimp only at h
    cases hd : sign '.' s with
    | some t =>
      rw [hd] at h
      obtain ⟨⟨n, u⟩, hn, heq⟩ := Option.map_eq_some_iff.1 h
      cases heq
      obtain rfl := sign_eq_some_iff.1 hd
      exact .code isCode_point (Shorthand.not_begins_of_after? ha) (lexes_name hn)
    | none =>
      rw [hd] at h
      obtain ⟨t, h, heq⟩ := Option.map_eq_some_iff.1 h
      cases heq
      obtain ⟨u, hu, ht⟩ := Option.bind_eq_some_iff.1 h
      exact (lexes_opening hs (by decide) hu).trans (lexes_sign (by decide) ht)

theorem lexes_key (hs : '\r' ∉ s) {k : String} (h : key s = some (k, r)) (hk : P k.toList) :
    Lexes P s r := by
  rw [key_eq] at h
  obtain ⟨⟨k', t⟩, hn, h⟩ := Option.bind_eq_some_iff.1 h
  obtain ⟨u, hu, heq⟩ := Option.map_eq_some_iff.1 h
  cases heq
  have hl : Lexes P s t := by
    rcases Option.or_eq_some_iff.1 hn with hn | ⟨-, hn⟩
    · exact lexes_name hn
    · exact lexes_string hs hn hk
  have hc : Lexes P s u := hl.trans (lexes_signAfter_space (by decide) hu)
  exact hc.trans (lexes_dropWhile fun c => isPlain_of_isSpacing (hc.notMem_return hs))

theorem lexes_word {w : String} (h : word w s = some r) : Lexes P s r := by
  rw [word_eq] at h
  obtain ⟨⟨n, t⟩, hn, h⟩ := Option.bind_eq_some_iff.1 h
  split at h
  · cases h
    exact (lexes_name hn).trans (lexes_dropWhile fun _ _ => isPlain_of_isSpace)
  · cases h

theorem lexes_binding {n : String} (h : binding s = some (n, r)) : Lexes P s r := by
  rw [binding_eq] at h
  obtain ⟨t, ht, h⟩ := Option.bind_eq_some_iff.1 h
  obtain ⟨⟨n', u⟩, hn, h⟩ := Option.bind_eq_some_iff.1 h
  split at h
  · cases h
  · obtain ⟨v, hv, heq⟩ := Option.map_eq_some_iff.1 h
    cases heq
    exact (lexes_word ht).trans ((lexes_name hn).trans
      ((lexes_signAfter_space (by decide) hv).trans
        (lexes_dropWhile fun _ _ => isPlain_of_isSpace)))

theorem lexes_statementLead {l : StatementLead} (h : statementLead s = some (l, r)) :
    Lexes P s r := by
  rw [statementLead_eq] at h
  rcases Option.or_eq_some_iff.1 h with h | ⟨-, h⟩
  · obtain ⟨⟨n, t⟩, hb, heq⟩ := Option.map_eq_some_iff.1 h
    cases heq
    exact lexes_binding hb
  · obtain ⟨t, ht, heq⟩ := Option.map_eq_some_iff.1 h
    cases heq
    exact lexes_word ht

theorem lexes_separators (hs : '\r' ∉ s) : Lexes P s (separators s) := by
  induction s using separators_induction with
  | nil =>
    rw [separators_nil]
    exact .refl []
  | skip c s hc ih =>
    have hp : IsPlain c := by
      rcases Bool.or_eq_true_iff.1 hc with h | h
      · exact isPlain_of_isSpacing hs (by simp) h
      · rw [of_decide_eq_true h]
        decide
    rw [separators_skip hc]
    exact (ih fun h => hs (List.mem_cons_of_mem _ h)).plain hp
  | comment s r hc ih =>
    obtain ⟨l, u, rfl, hl, hu⟩ := Text.exists_line s
    have hl : '\n' ∉ l ∧ '\r' ∉ l := ⟨hl, fun h => hs (by simp [h])⟩
    have hr := comment_append hl hu
    rw [hc] at hr
    cases hr
    rw [separators_comment hc]
    exact .comment hl hu (ih fun h => hs (by simp [h]))
  | stop c s hc hs' =>
    rw [separators_stop hc hs']
    exact .refl _

end

/-! ### Expressions and statements -/

mutual

theorem lexes_group {P : List Char → Prop} {s r : List Char} {e : Expr} (hs : '\r' ∉ s)
    (h : group s = some (e, r)) (ht : ∀ t ∈ e.texts, P t.toList) : Lexes P s r := by
  rw [group_eq] at h
  obtain ⟨r₁, h₁, h⟩ := Option.bind_eq_some_iff.1 h
  obtain ⟨⟨e', r₂⟩, h₂, h⟩ := Option.bind_eq_some_iff.1 h
  obtain ⟨r₃, h₃, heq⟩ := Option.map_eq_some_iff.1 h
  cases heq
  have hl₁ : Lexes P s r₁ := lexes_opening hs (by decide) h₁
  have hlt := Parsed.length_lt_of_map_rest h₁
  have hl₂ : Lexes P s r₂ := hl₁.trans (lexes_expr (hl₁.notMem_return hs) h₂ ht)
  exact hl₂.trans (lexes_signAfter_spacing (hl₂.notMem_return hs) (by decide) h₃)
termination_by 5 * s.length

theorem lexes_primary {P : List Char → Prop} {s r : List Char} {e : Expr} (hs : '\r' ∉ s)
    (h : primary s = some (e, r)) (ht : ∀ t ∈ e.texts, P t.toList) : Lexes P s r := by
  rw [primary_eq] at h
  obtain ⟨⟨l, r₁⟩, h₁, h⟩ := Option.bind_eq_some_iff.1 h
  have hlt := Parsed.length_lt_of_map_pair h₁
  cases l with
  | number n =>
    cases h
    exact lexes_lead hs h₁ fun _ h => nomatch h
  | string t =>
    cases h
    refine lexes_lead hs h₁ fun t' h' => ?_
    cases h'
    exact ht t (by simp [Expr.texts])
  | word w =>
    have hl₁ : Lexes P s r₁ := lexes_lead hs h₁ fun _ h => nomatch h
    rw [primaryAfter] at h
    split at h
    · rcases Option.or_eq_some_iff.1 h with h | ⟨-, h⟩
      · obtain ⟨⟨e', r₂⟩, h₂, heq⟩ := Option.map_eq_some_iff.1 h
        cases heq
        have hd : Lexes P r₁ (r₁.dropWhile isSpace) :=
          lexes_dropWhile fun _ _ => isPlain_of_isSpace
        have hle := Text.length_dropWhile_le isSpace r₁
        have hl₂ := hl₁.trans hd
        exact hl₂.trans (lexes_group (hl₂.notMem_return hs) h₂ ht)
      · cases h
        exact hl₁
    · cases h
      exact hl₁
  | callable =>
    have hl₁ : Lexes P s r₁ := lexes_lead hs h₁ fun _ h => nomatch h
    obtain ⟨r₂, h₂, heq⟩ := Option.map_eq_some_iff.1 h
    cases heq
    have hl₂ : Lexes P s (View.statements r₁).2 :=
      hl₁.trans (lexes_statements (hl₁.notMem_return hs) (Prod.eta _).symm
        (by simpa [Expr.texts] using ht))
    exact hl₂.trans (lexes_signAfter_spacing (hl₂.notMem_return hs) (by decide) h₂)
  | list =>
    have hl₁ : Lexes P s r₁ := lexes_lead hs h₁ fun _ h => nomatch h
    obtain ⟨r₂, h₂, heq⟩ := Option.map_eq_some_iff.1 h
    cases heq
    have hl₂ : Lexes P s (items r₁).2 :=
      hl₁.trans (lexes_items (hl₁.notMem_return hs) (Prod.eta _).symm
        (by simpa [Expr.texts] using ht))
    exact hl₂.trans (lexes_closing (hl₂.notMem_return hs) (by decide) h₂)
  | object =>
    have hl₁ : Lexes P s r₁ := lexes_lead hs h₁ fun _ h => nomatch h
    obtain ⟨r₂, h₂, heq⟩ := Option.map_eq_some_iff.1 h
    cases heq
    have hl₂ : Lexes P s (fields r₁).2 :=
      hl₁.trans (lexes_fields (hl₁.notMem_return hs) (Prod.eta _).symm
        (by simpa [Expr.texts] using ht))
    exact hl₂.trans (lexes_closing (hl₂.notMem_return hs) (by decide) h₂)
  | group => exact lexes_group hs h ht
termination_by 5 * s.length + 1

theorem lexes_expr {P : List Char → Prop} {s r : List Char} {e : Expr} (hs : '\r' ∉ s)
    (h : expr s = some (e, r)) (ht : ∀ t ∈ e.texts, P t.toList) : Lexes P s r := by
  rw [expr_eq] at h
  obtain ⟨⟨e₁, r₁⟩, h₁, heq⟩ := Option.map_eq_some_iff.1 h
  have hlt := Parsed.length_lt_of_map_pair h₁
  have hr₁ : '\r' ∉ r₁ :=
    (lexes_primary (P := fun _ => True) hs h₁ fun _ _ => trivial).notMem_return hs
  obtain ⟨ht₁, hl⟩ := lexes_suffixes hr₁ heq ht
  exact (lexes_primary hs h₁ ht₁).trans hl
termination_by 5 * s.length + 2

/-- What goes on with an expression keeps its texts. -/
theorem lexes_suffixes {P : List Char → Prop} {s r : List Char} {e e' : Expr} (hs : '\r' ∉ s)
    (h : suffixes e s = (e', r)) (ht : ∀ t ∈ e'.texts, P t.toList) :
    (∀ t ∈ e.texts, P t.toList) ∧ Lexes P s r := by
  rw [suffixes_eq] at h
  cases h₁ : suffix s with
  | none =>
    rw [h₁] at h
    cases h
    exact ⟨ht, .refl s⟩
  | some p =>
    obtain ⟨l, r₁⟩ := p
    rw [h₁] at h
    have hl₁ : Lexes P s r₁ := lexes_suffix hs h₁
    have hlt := Parsed.length_lt_of_map_pair h₁
    cases l with
    | property n =>
      obtain ⟨ht', hl⟩ := lexes_suffixes (hl₁.notMem_return hs) h ht
      exact ⟨by simpa [Expr.texts] using ht', hl₁.trans hl⟩
    | call =>
      obtain ⟨ht', hl⟩ := lexes_suffixes (hl₁.notMem_return hs) h ht
      exact ⟨by simpa [Expr.texts] using ht', hl₁.trans hl⟩
    | assertion negate m =>
      dsimp only at h
      cases h₂ : argument r₁ with
      | none =>
        rw [h₂] at h
        cases h
        exact ⟨ht, .refl s⟩
      | some q =>
        obtain ⟨x, r₂⟩ := q
        rw [h₂] at h
        have hlt₂ := Parsed.length_lt_of_map_pair h₂
        have hr₂ : '\r' ∉ r₂ :=
          (lexes_argument (P := fun _ => True) (hl₁.notMem_return hs) h₂
            fun _ _ => trivial).notMem_return (hl₁.notMem_return hs)
        obtain ⟨ht', hl⟩ := lexes_suffixes hr₂ h ht
        simp only [Expr.texts, List.mem_append, or_imp, forall_and] at ht'
        exact ⟨ht'.1, hl₁.trans ((lexes_argument (hl₁.notMem_return hs) h₂ ht'.2).trans hl)⟩
termination_by 5 * s.length

theorem lexes_argument {P : List Char → Prop} {s r : List Char} {x : Option Expr} (hs : '\r' ∉ s)
    (h : argument s = some (x, r)) (ht : ∀ t ∈ Expr.textsOfExpected x, P t.toList) :
    Lexes P s r := by
  rw [argument_eq] at h
  cases h₁ : expr s with
  | none =>
    rw [h₁] at h
    obtain ⟨r₁, h₂, heq⟩ := Option.map_eq_some_iff.1 h
    cases heq
    exact lexes_signAfter_spacing hs (by decide) h₂
  | some p =>
    obtain ⟨e, r₁⟩ := p
    rw [h₁] at h
    obtain ⟨r₂, h₂, heq⟩ := Option.map_eq_some_iff.1 h
    cases heq
    have hl : Lexes P s r₁ := lexes_expr hs h₁ ht
    exact hl.trans (lexes_signAfter_spacing (hl.notMem_return hs) (by decide) h₂)
termination_by 5 * s.length + 3

theorem lexes_items {P : List Char → Prop} {s r : List Char} {es : List Expr} (hs : '\r' ∉ s)
    (h : items s = (es, r)) (ht : ∀ t ∈ Expr.textsOfItems es, P t.toList) : Lexes P s r := by
  rw [items_eq] at h
  cases h₁ : expr s with
  | none =>
    rw [h₁] at h
    cases h
    exact .refl s
  | some p =>
    obtain ⟨e, r₁⟩ := p
    rw [h₁] at h
    cases h
    have hlt := Parsed.length_lt_of_map_pair h₁
    simp only [Expr.textsOfItems, List.mem_append, or_imp, forall_and] at ht
    have hl : Lexes P s r₁ := lexes_expr hs h₁ ht.1
    exact hl.trans (lexes_moreItems (hl.notMem_return hs) (Prod.eta _).symm ht.2)
termination_by 5 * s.length + 3

theorem lexes_moreItems {P : List Char → Prop} {s r : List Char} {es : List Expr} (hs : '\r' ∉ s)
    (h : moreItems s = (es, r)) (ht : ∀ t ∈ Expr.textsOfItems es, P t.toList) : Lexes P s r := by
  rw [moreItems_eq] at h
  cases h₁ : (comma s).bind expr with
  | none =>
    rw [h₁] at h
    cases h
    exact .refl s
  | some p =>
    obtain ⟨e, r₂⟩ := p
    rw [h₁] at h
    cases h
    obtain ⟨r₁, h₁, h₂⟩ := Option.bind_eq_some_iff.1 h₁
    have hlt := Parsed.length_lt_of_map_rest h₁
    have hlt₂ := Parsed.length_lt_of_map_pair h₂
    simp only [Expr.textsOfItems, List.mem_append, or_imp, forall_and] at ht
    have hl₁ : Lexes P s r₁ := lexes_comma hs h₁
    have hl₂ : Lexes P s r₂ := hl₁.trans (lexes_expr (hl₁.notMem_return hs) h₂ ht.1)
    exact hl₂.trans (lexes_moreItems (hl₂.notMem_return hs) (Prod.eta _).symm ht.2)
termination_by 5 * s.length

theorem lexes_field {P : List Char → Prop} {s r : List Char} {f : String × Expr} (hs : '\r' ∉ s)
    (h : field s = some (f, r)) (ht : ∀ t ∈ f.1 :: f.2.texts, P t.toList) : Lexes P s r := by
  rw [field_eq] at h
  obtain ⟨⟨k, r₁⟩, h₁, h⟩ := Option.bind_eq_some_iff.1 h
  obtain ⟨⟨e, r₂⟩, h₂, heq⟩ := Option.map_eq_some_iff.1 h
  cases heq
  have hlt := Parsed.length_lt_of_map_pair h₁
  have hl : Lexes P s r₁ := lexes_key hs h₁ (ht k (by simp))
  exact hl.trans
    (lexes_expr (hl.notMem_return hs) h₂ fun t h => ht t (List.mem_cons_of_mem _ h))
termination_by 5 * s.length

theorem lexes_fields {P : List Char → Prop} {s r : List Char} {fs : List (String × Expr)}
    (hs : '\r' ∉ s) (h : fields s = (fs, r)) (ht : ∀ t ∈ Expr.textsOfFields fs, P t.toList) :
    Lexes P s r := by
  rw [fields_eq] at h
  cases h₁ : field s with
  | none =>
    rw [h₁] at h
    cases h
    exact .refl s
  | some p =>
    obtain ⟨⟨k, e⟩, r₁⟩ := p
    rw [h₁] at h
    cases h
    have hlt := Parsed.length_lt_of_map_pair h₁
    rw [Expr.textsOfFields, ← List.cons_append] at ht
    simp only [List.mem_append, or_imp, forall_and] at ht
    have hl : Lexes P s r₁ := lexes_field hs h₁ ht.1
    exact hl.trans (lexes_moreFields (hl.notMem_return hs) (Prod.eta _).symm ht.2)
termination_by 5 * s.length + 1

theorem lexes_moreFields {P : List Char → Prop} {s r : List Char} {fs : List (String × Expr)}
    (hs : '\r' ∉ s) (h : moreFields s = (fs, r)) (ht : ∀ t ∈ Expr.textsOfFields fs, P t.toList) :
    Lexes P s r := by
  rw [moreFields_eq] at h
  cases h₁ : (comma s).bind field with
  | none =>
    rw [h₁] at h
    cases h
    exact .refl s
  | some p =>
    obtain ⟨⟨k, e⟩, r₂⟩ := p
    rw [h₁] at h
    cases h
    obtain ⟨r₁, h₁, h₂⟩ := Option.bind_eq_some_iff.1 h₁
    have hlt := Parsed.length_lt_of_map_rest h₁
    have hlt₂ := Parsed.length_lt_of_map_pair h₂
    rw [Expr.textsOfFields, ← List.cons_append] at ht
    simp only [List.mem_append, or_imp, forall_and] at ht
    have hl₁ : Lexes P s r₁ := lexes_comma hs h₁
    have hl₂ : Lexes P s r₂ := hl₁.trans (lexes_field (hl₁.notMem_return hs) h₂ ht.1)
    exact hl₂.trans (lexes_moreFields (hl₂.notMem_return hs) (Prod.eta _).symm ht.2)
termination_by 5 * s.length

theorem lexes_statement {P : List Char → Prop} {s r : List Char} {st : Statement} (hs : '\r' ∉ s)
    (h : statement s = some (st, r)) (ht : ∀ t ∈ st.texts, P t.toList) : Lexes P s r := by
  rw [statement_eq] at h
  rcases Option.or_eq_some_iff.1 h with h | ⟨-, h⟩
  · obtain ⟨⟨l, r₁⟩, h₁, h⟩ := Option.bind_eq_some_iff.1 h
    obtain ⟨⟨e, r₂⟩, h₂, heq⟩ := Option.map_eq_some_iff.1 h
    have hlt := Parsed.length_lt_of_map_pair h₁
    have hl : Lexes P s r₁ := lexes_statementLead h₁
    cases l <;>
      · cases heq
        exact hl.trans (lexes_expr (hl.notMem_return hs) h₂ ht)
  · obtain ⟨⟨e, r₁⟩, h₁, heq⟩ := Option.map_eq_some_iff.1 h
    cases heq
    exact lexes_expr hs h₁ ht
termination_by 5 * s.length + 3

theorem lexes_statements {P : List Char → Prop} {s r : List Char} {body : List Statement}
    (hs : '\r' ∉ s) (h : View.statements s = (body, r))
    (ht : ∀ t ∈ Statement.textsOfAll body, P t.toList) : Lexes P s r := by
  rw [statements_eq] at h
  have hl₁ : Lexes P s (separators s) := lexes_separators hs
  have hle := length_separators_le s
  cases h₁ : statement (separators s) with
  | none =>
    rw [h₁] at h
    cases h
    exact hl₁
  | some p =>
    obtain ⟨st, r₁⟩ := p
    rw [h₁] at h
    have hlt := Parsed.length_lt_of_map_pair h₁
    have hld := Text.length_dropWhile_le isSpace r₁
    have hd : Lexes P r₁ (r₁.dropWhile isSpace) := lexes_dropWhile fun _ _ => isPlain_of_isSpace
    dsimp only at h
    split at h
    · cases h
      simp only [Statement.textsOfAll, List.mem_append, or_imp, forall_and] at ht
      have hl₂ := (hl₁.trans (lexes_statement (hl₁.notMem_return hs) h₁ ht.1)).trans hd
      exact hl₂.trans (lexes_statements (hl₂.notMem_return hs) (Prod.eta _).symm ht.2)
    · cases h
      simp only [Statement.textsOfAll, List.append_nil] at ht
      exact (hl₁.trans (lexes_statement (hl₁.notMem_return hs) h₁ ht)).trans hd
termination_by 5 * s.length + 4

end

end Body

end SpecEngine
