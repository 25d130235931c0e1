import Mathlib.Tactic.Tauto
import SpecEngine.Proofs.Lexis

/-!
# Bodies in the bracketed form

What bringing a body to the bracketed form does to a body that can be read as it stands.

* `expandLines`: the bracketed form, line by line; `expandLines_cons`: a character with which no
  short form begins stays;
* `Safe`: bodies in which short forms stand in comments only;
* `Expr.mapSources`: expressions with other texts for their callables;
* `expand_expr`, `expand_statements`: reading goes on as before, on what is left in the bracketed
  form;
* `statements_expand`: a body without short forms in its texts means the same before and after, and
  its callables keep the bracketed form of their texts; `statements_of_short_form`: bodies that do
  not.
-/

namespace SpecEngine

theorem Text.trimEnd_prefix (s : List Char) : trimEnd s <+: s := by
  induction s with
  | nil => exact List.prefix_rfl
  | cons c s ih =>
    rw [trimEnd]
    split
    · split
      · exact List.nil_prefix
      · exact ⟨s, rfl⟩
    · next d t h => exact (List.prefix_cons_inj c).2 (h ▸ ih)

namespace Shorthand

/-- A text with each line in the bracketed form. -/
def expandLines (s : List Char) : List Char :=
  Text.unlines ((Text.lines s).map expandLine)

theorem mergeBreaks_of_notMem {s : List Char} (hs : '\r' ∉ s) : Text.mergeBreaks s = s := by
  induction s with
  | nil => rfl
  | cons c s ih =>
    rw [Text.mergeBreaks, ih fun h => hs (List.mem_cons_of_mem _ h)]
    rintro t rfl -
    exact hs (by simp)

theorem expand_eq {s : List Char} (hs : '\r' ∉ s) : expand s = expandLines s := by
  rw [expand, mergeBreaks_of_notMem hs, expandLines]

@[simp] theorem expandLines_nil : expandLines [] = [] := rfl

/-- What stands before a line feed and what stands behind it are brought to the bracketed form by
themselves. -/
theorem expandLines_append_feed (s t : List Char) :
    expandLines (s ++ '\n' :: t) = expandLines s ++ '\n' :: expandLines t := by
  rw [expandLines, Text.lines_append_feed, List.map_append,
    Text.unlines_append (by simpa using Text.lines_ne_nil s)
      (by simpa using Text.lines_ne_nil t)]
  rfl

theorem expandLines_feed (s : List Char) : expandLines ('\n' :: s) = '\n' :: expandLines s :=
  expandLines_append_feed [] s

theorem expand_append_feed {s : List Char} (hs : s.getLast? ≠ some '\r') (t : List Char) :
    expand (s ++ '\n' :: t) = expand s ++ '\n' :: expand t := by
  rw [expand, Text.mergeBreaks_append_feed hs]
  exact expandLines_append_feed _ _

theorem expandLines_of_notMem {l : List Char} (hl : '\n' ∉ l) : expandLines l = expandLine l := by
  rw [expandLines, Text.lines_of_notMem hl]
  rfl

/-- A line is brought to the bracketed form by itself. -/
theorem expandLines_append {l t : List Char} (hl : '\n' ∉ l) (ht : t = [] ∨ ∃ u, t = '\n' :: u) :
    expandLines (l ++ t) = expandLine l ++ expandLines t := by
  rcases ht with rfl | ⟨u, rfl⟩
  · rw [List.append_nil, expandLines_of_notMem hl, expandLines_nil, List.append_nil]
  · rw [expandLines_append_feed, expandLines_of_notMem hl, expandLines_feed]

/-- What a line is that begins with a short form, and what becomes of it. -/
theorem exists_of_expandHere {l u : List Char} (h : expandHere l = some u) :
    ∃ m v, l = ".should_".toList ++ (m ++ v) ∧ m ≠ [] ∧ (∀ c ∈ m, Text.isWordChar c = true) ∧
      ((v = [] ∧ u = ".should_".toList ++ (m ++ ['(', ')'])) ∨
        ∃ w, v = ' ' :: w ∧ u = ".should_".toList ++ (m ++ '(' :: (Text.trimEnd w ++ [')']))) := by
  unfold expandHere at h
  split at h
  · cases h
  · next r hr =>
    dsimp only at h
    split at h
    · cases h
    · next hm =>
      refine ⟨r.takeWhile Text.isWordChar, r.dropWhile Text.isWordChar, ?_, by simpa using hm,
        fun c hc => List.mem_takeWhile_imp hc, ?_⟩
      · rw [List.takeWhile_append_dropWhile, Text.eq_append_of_after? hr]
      · split at h
        · next hd =>
          cases h
          exact Or.inl ⟨hd, by simp⟩
        · next w hd =>
          cases h
          exact Or.inr ⟨w, hd, by simp⟩
        · cases h

theorem begins_of_expandHere {l t u : List Char} (h : expandHere l = some u)
    (ht : t = [] ∨ ∃ v, t = '\n' :: v) : Begins (l ++ t) := by
  obtain ⟨m, v, rfl, hm, hw, hv⟩ := exists_of_expandHere h
  refine ⟨m, v ++ t, by simp, hm, hw, ?_⟩
  rcases hv with ⟨rfl, -⟩ | ⟨w, rfl, -⟩
  · rcases ht with rfl | ⟨v, rfl⟩
    · exact Or.inl rfl
    · exact Or.inr ⟨v, Or.inr rfl⟩
  · exact Or.inr ⟨w ++ t, Or.inl rfl⟩

/-- A character with which no short form begins stays. -/
theorem expandLines_cons {c : Char} {s : List Char} (h : ¬ Begins (c :: s)) :
    expandLines (c :: s) = c :: expandLines s := by
  by_cases hc : c = '\n'
  · rw [hc, expandLines_feed]
  · obtain ⟨l, t, rfl, hl, ht⟩ := Text.exists_line s
    have hl' : '\n' ∉ c :: l := List.not_mem_cons_of_ne_of_not_mem (Ne.symm hc) hl
    have hn : expandHere (c :: l) = none := by
      cases he : expandHere (c :: l) with
      | none => rfl
      | some u => exact absurd (begins_of_expandHere he ht) h
    rw [← List.cons_append, expandLines_append hl' ht, expandLine, hn, expandLines_append hl ht]
    rfl

/-- The first character of a text stays. -/
theorem exists_expandLines_cons (c : Char) (s : List Char) :
    ∃ t, expandLines (c :: s) = c :: t := by
  by_cases hc : c = '\n'
  · exact ⟨_, by rw [hc, expandLines_feed]⟩
  · obtain ⟨l, t, rfl, hl, ht⟩ := Text.exists_line s
    have hl' : '\n' ∉ c :: l := List.not_mem_cons_of_ne_of_not_mem (Ne.symm hc) hl
    rw [← List.cons_append, expandLines_append hl' ht, expandLine]
    cases h : expandHere (c :: l) with
    | none => exact ⟨_, rfl⟩
    | some u =>
      obtain ⟨m, v, hl, -, -, ⟨-, rfl⟩ | ⟨w, -, rfl⟩⟩ := exists_of_expandHere h <;>
        · obtain ⟨rfl, -⟩ := List.cons.inj hl
          exact ⟨_, rfl⟩

/-- A text between quotes stays if there is no short form in it. -/
theorem expandLines_quoted {q : Char} {t : List Char} (hq : IsStop q) (hn : '\n' ∉ t)
    (ht : ¬ Within t) (s : List Char) : expandLines (t ++ q :: s) = t ++ q :: expandLines s := by
  induction t with
  | nil => exact expandLines_cons (not_begins_of_ne hq.2.1 s)
  | cons c t ih =>
    have hb : ¬ Begins (c :: (t ++ q :: s)) := by
      intro hb
      obtain ⟨m, b, u, h, hm, hw, rfl | rfl⟩ := begins_append_cons (a := c :: t) hq hb
      · exact ht ⟨[], m, u, h, hm, hw⟩
      · exact hn (by rw [h]; simp)
    have ht' : ¬ Within t := by
      rintro ⟨u, m, w, rfl, h⟩
      exact ht ⟨c :: u, m, w, rfl, h⟩
    rw [List.cons_append, expandLines_cons hb, ih (fun h => hn (List.mem_cons_of_mem _ h)) ht']
    rfl

/-- The bracketed form adds nothing but its brackets. -/
theorem mem_of_mem_expandLine {l : List Char} {c : Char} (h : c ∈ expandLine l) :
    c ∈ l ∨ c = '(' ∨ c = ')' := by
  induction l with
  | nil => exact Or.inl h
  | cons d l ih =>
    rw [expandLine] at h
    cases hu : expandHere (d :: l) with
    | none =>
      rw [hu] at h
      rcases List.mem_cons.1 h with rfl | h
      · exact Or.inl (by simp)
      · exact (ih h).imp_left (List.mem_cons_of_mem _)
    | some u =>
      rw [hu] at h
      obtain ⟨m, v, hl, -, -, ⟨rfl, rfl⟩ | ⟨w, rfl, rfl⟩⟩ := exists_of_expandHere hu
      · rw [hl]
        simp only [List.mem_append, List.mem_cons] at h ⊢
        tauto
      · have hw : c ∈ Text.trimEnd w → c ∈ w := fun h => (Text.trimEnd_prefix w).subset h
        rw [hl]
        simp only [List.mem_append, List.mem_cons] at h ⊢
        tauto

theorem isStop_of_quote {q : Char} (hq : q = '\'' ∨ q = '"') : IsStop q := by
  rcases hq with rfl | rfl <;> decide +kernel

end Shorthand

namespace Body

open Shorthand View

/-- Whole texts in which short forms stand in comments only. -/
def Safe (s : List Char) : Prop :=
  Lexes (fun t => ¬ Within t) s []

namespace Safe

variable {s r : List Char}

theorem of_lexes (h : Safe s) (hr : Lexes (fun _ => True) s r) : Safe r :=
  (hr.split h).2

theorem code {c : Char} (hc : IsCode c) (h : Safe (c :: s)) :
    expandLines (c :: s) = c :: expandLines s ∧ Safe s := by
  obtain ⟨hb, h⟩ := Lexes.of_code hc h
  exact ⟨expandLines_cons hb, h⟩

theorem of_append {w : List Char} (hw : ∀ c ∈ w, IsCode c) (h : Safe (w ++ s)) : Safe s := by
  induction w with
  | nil => exact h
  | cons c w ih =>
    exact ih (fun d hd => hw d (List.mem_cons_of_mem _ hd)) (h.code (hw c (by simp))).2

theorem quote {q : Char} (hq : q = '\'' ∨ q = '"') (h : Safe (q :: s)) :
    ∃ t u, s = t ++ q :: u ∧ (q ∉ t ∧ '\n' ∉ t) ∧
      expandLines (q :: s) = q :: (t ++ q :: expandLines u) ∧ Safe u := by
  obtain ⟨t, u, rfl, ht, hw, h⟩ := Lexes.of_quote hq h
  have hs := isStop_of_quote hq
  refine ⟨t, u, rfl, ⟨ht.1, ht.2.1⟩, ?_, h⟩
  rw [expandLines_cons (not_begins_of_ne hs.2.1 _), expandLines_quoted hs ht.2.1 hw]

theorem slash (h : Safe ('/' :: s)) :
    ∃ l u l', s = '/' :: (l ++ u) ∧ ('\n' ∉ l ∧ '\r' ∉ l) ∧ (u = [] ∨ ∃ v, u = '\n' :: v) ∧
      expandLines ('/' :: s) = '/' :: '/' :: (l' ++ expandLines u) ∧ ('\n' ∉ l' ∧ '\r' ∉ l') ∧
      Safe u := by
  obtain ⟨l, u, rfl, hl, hu, h⟩ := Lexes.of_slash h
  have hm : ∀ c : Char, c ≠ '(' → c ≠ ')' → c ∉ l → c ∉ expandLine l := by
    intro c ho hc hl h
    rcases mem_of_mem_expandLine h with h | h | h
    · exact hl h
    · exact ho h
    · exact hc h
  refine ⟨l, u, expandLine l, rfl, hl, hu, ?_, ⟨hm _ (by decide) (by decide) hl.1,
    hm _ (by decide) (by decide) hl.2⟩, h⟩
  rw [expandLines_cons (not_begins_of_ne (by decide) _),
    expandLines_cons (not_begins_of_ne (by decide) _), expandLines_append hl.1 hu]

theorem notMem_return (h : Safe s) : '\r' ∉ s :=
  h.return_notMem (by simp)

theorem dropWhile_space (h : Safe s) : Safe (s.dropWhile isSpace) :=
  h.of_lexes (lexes_dropWhile fun _ _ => isPlain_of_isSpace)

end Safe

/-! ### Smallest parts -/

section

variable {s : List Char}

theorem expand_dropWhile {q : Char → Bool} (hs : Safe s)
    (hq : ∀ c ∈ s, q c = true → IsPlain c) :
    (expandLines s).dropWhile q = expandLines (s.dropWhile q) ∧
      (expandLines s).takeWhile q = s.takeWhile q ∧ Safe (s.dropWhile q) := by
  induction s with
  | nil => exact ⟨rfl, rfl, hs⟩
  | cons c s ih =>
    cases hc : q c with
    | true =>
      obtain ⟨he, hs⟩ := hs.code (hq c (by simp) hc).1
      obtain ⟨hd, ht, hr⟩ := ih hs fun d hd => hq d (List.mem_cons_of_mem _ hd)
      rw [he]
      simp [hc, hd, ht, hr]
    | false =>
      obtain ⟨t, ht⟩ := exists_expandLines_cons c s
      rw [ht]
      simp [hc, ht, hs]

theorem expand_spacing (hs : Safe s) :
    (expandLines s).dropWhile isSpacing = expandLines (s.dropWhile isSpacing) :=
  (expand_dropWhile hs fun _ => isPlain_of_isSpacing hs.notMem_return).1

theorem expand_sign {c : Char} (hs : Safe s) (hc : IsCode c) :
    sign c (expandLines s) = (sign c s).map expandLines := by
  cases s with
  | nil => rfl
  | cons d s =>
    by_cases hd : d = c
    · subst hd
      rw [(hs.code hc).1, sign_cons, if_pos rfl, sign_cons, if_pos rfl]
      rfl
    · obtain ⟨t, ht⟩ := exists_expandLines_cons d s
      rw [ht, sign_cons, if_neg hd, sign_cons, if_neg hd]
      rfl

theorem expand_after? {w : List Char} (hs : Safe s) (hw : ∀ c ∈ w, IsCode c) :
    Text.after? w (expandLines s) = (Text.after? w s).map expandLines := by
  induction w generalizing s with
  | nil => rfl
  | cons c w ih =>
    cases s with
    | nil => rfl
    | cons d s =>
      by_cases hd : c = d
      · subst hd
        obtain ⟨he, hs⟩ := hs.code (hw c (by simp))
        rw [he, Text.after?, if_pos rfl, Text.after?, if_pos rfl,
          ih hs fun d hd => hw d (List.mem_cons_of_mem _ hd)]
      · obtain ⟨t, ht⟩ := exists_expandLines_cons d s
        rw [ht, Text.after?, if_neg hd, Text.after?, if_neg hd]
        rfl

theorem expand_signAfter_spacing {c : Char} (hs : Safe s) (hc : IsCode c) :
    signAfter isSpacing c (expandLines s) = (signAfter isSpacing c s).map expandLines := by
  have hq := expand_dropWhile hs fun _ => isPlain_of_isSpacing hs.notMem_return
  rw [signAfter_eq, signAfter_eq, hq.1, expand_sign hq.2.2 hc]

theorem expand_signAfter_space {c : Char} (hs : Safe s) (hc : IsCode c) :
    signAfter isSpace c (expandLines s) = (signAfter isSpace c s).map expandLines := by
  have hq := expand_dropWhile hs fun _ _ => isPlain_of_isSpace
  rw [signAfter_eq, signAfter_eq, hq.1, expand_sign hq.2.2 hc]

theorem expand_opening {c : Char} (hs : Safe s) (hc : IsPlain c) :
    opening c (expandLines s) = (opening c s).map expandLines := by
  rw [opening_eq, opening_eq, expand_sign hs hc.1]
  cases h : sign c s with
  | none => rfl
  | some r => exact congrArg some (expand_spacing (hs.of_lexes (lexes_sign hc h)))

theorem expand_comma (hs : Safe s) : comma (expandLines s) = (comma s).map expandLines := by
  rw [comma_eq, comma_eq, expand_signAfter_spacing hs (by decide)]
  cases h : signAfter isSpacing ',' s with
  | none => rfl
  | some r =>
    exact congrArg some (expand_spacing (hs.of_lexes
      (lexes_signAfter_spacing hs.notMem_return (by decide) h)))

theorem expand_closing {c : Char} (hs : Safe s) (hc : IsPlain c) :
    closing c (expandLines s) = (closing c s).map expandLines := by
  rw [closing_eq, closing_eq, expand_signAfter_spacing hs (by decide)]
  cases h : signAfter isSpacing ',' s with
  | none => exact expand_signAfter_spacing hs hc.1
  | some r =>
    exact expand_signAfter_spacing (hs.of_lexes
      (lexes_signAfter_spacing hs.notMem_return (by decide) h)) hc.1

theorem expand_arrow (hs : Safe s) : arrow (expandLines s) = (arrow s).map expandLines := by
  rw [arrow_eq, arrow_eq, expand_after? hs fun c hc => (isPlain_of_mem_arrow c hc).1]
  cases h : Text.after? "->".toList s with
  | none => rfl
  | some r =>
    exact expand_signAfter_space (hs.of_lexes (lexes_after? isPlain_of_mem_arrow h)) (by decide)

theorem expand_name (hs : Safe s) :
    name (expandLines s) = (name s).map (Prod.map id expandLines) := by
  cases s with
  | nil => rfl
  | cons c s =>
    cases hc : isNameStart c with
    | true =>
      obtain ⟨he, hs⟩ := hs.code (isPlain_of_isNameStart hc).1
      obtain ⟨hd, ht, -⟩ := expand_dropWhile hs fun _ _ => isPlain_of_isNameChar
      rw [he, name_cons, if_pos hc, name_cons, if_pos hc, hd, ht]
      rfl
    | false =>
      obtain ⟨t, ht⟩ := exists_expandLines_cons c s
      rw [ht, name_cons, if_neg (by simp [hc]), name_cons, if_neg (by simp [hc])]
      rfl

theorem expand_string (hs : Safe s) :
    string (expandLines s) = (string s).map (Prod.map id expandLines) := by
  cases s with
  | nil => rfl
  | cons c s =>
    cases hc : (c = '\'' || c = '"' : Bool) with
    | true =>
      obtain ⟨t, u, rfl, ht, he, -⟩ := hs.quote (by simpa using hc)
      rw [he, string_cons, if_pos hc, string_cons, if_pos hc, quoted_append ht, quoted_append ht]
      rfl
    | false =>
      obtain ⟨t, ht⟩ := exists_expandLines_cons c s
      rw [ht, string_cons, if_neg (by simp [hc]), string_cons, if_neg (by simp [hc])]
      rfl

/-! ### Numerals -/

theorem expand_digits (hs : Safe s) :
    digits (expandLines s) = (digits s).map (Prod.map id expandLines) := by
  cases s with
  | nil => rfl
  | cons c s =>
    cases hc : c.isDigit with
    | true =>
      obtain ⟨he, hs⟩ := hs.code (isPlain_of_isDigit hc).1
      obtain ⟨hd, ht, -⟩ := expand_dropWhile hs fun _ _ => isPlain_of_isDigit
      rw [he, digits_cons, if_pos hc, digits_cons, if_pos hc, hd, ht]
      rfl
    | false =>
      obtain ⟨t, ht⟩ := exists_expandLines_cons c s
      rw [ht, digits_cons, if_neg (by simp [hc]), digits_cons, if_neg (by simp [hc])]
      rfl

theorem expand_numeralSign {p : Char → Bool} (hp : ∀ c, p c = true → IsPlain c) (hs : Safe s) :
    numeralSign p (expandLines s) = Prod.map id expandLines (numeralSign p s) := by
  cases s with
  | nil => rfl
  | cons c s =>
    cases hc : p c with
    | true =>
      rw [(hs.code (hp c hc).1).1, numeralSign_cons, if_pos hc, numeralSign_cons, if_pos hc]
      rfl
    | false =>
      obtain ⟨t, ht⟩ := exists_expandLines_cons c s
      rw [numeralSign_cons, if_neg (by simp [hc]), ht, numeralSign_cons, if_neg (by simp [hc]),
        ← ht]
      rfl

theorem expand_fraction (hs : Safe s) :
    fraction (expandLines s) = Prod.map id expandLines (fraction s) := by
  rw [fraction_eq, fraction_eq, expand_sign hs isCode_point]
  cases h : sign '.' s with
  | none => rfl
  | some r =>
    rw [sign_eq_some_iff.1 h] at hs
    rw [Option.map_some, Option.bind_some, Option.bind_some, expand_digits (hs.code isCode_point).2]
    cases digits r <;> rfl

theorem expand_mark (hs : Safe s) :
    mark (expandLines s) = (mark s).map (Prod.map id expandLines) := by
  cases s with
  | nil => rfl
  | cons c s =>
    cases hc : (c = 'e' || c = 'E' : Bool) with
    | true =>
      obtain ⟨he, hs⟩ := hs.code (isPlain_of_isMark hc).1
      rw [he, mark_cons, if_pos hc, mark_cons, if_pos hc,
        expand_numeralSign (fun _ => isPlain_of_isSign) hs]
      rfl
    | false =>
      obtain ⟨t, ht⟩ := exists_expandLines_cons c s
      rw [ht, mark_cons, if_neg (by simp [hc]), mark_cons, if_neg (by simp [hc])]
      rfl

theorem expand_exponent (hs : Safe s) :
    exponent (expandLines s) = Prod.map id expandLines (exponent s) := by
  rw [exponent_eq, exponent_eq, expand_mark hs]
  cases h : mark s with
  | none => rfl
  | some p =>
    have hr : Safe p.2 := hs.of_lexes (lexes_mark h)
    simp only [Option.map_some, Prod.map, expand_digits hr]
    cases digits p.2 <;> rfl

theorem expand_numeral (hs : Safe s) :
    numeral (expandLines s) = (numeral s).map (Prod.map id expandLines) := by
  have hr := hs.of_lexes (lexes_numeralSign (fun _ => isPlain_of_minus) s)
  rw [numeral_eq, numeral_eq, expand_numeralSign (fun _ => isPlain_of_minus) hs]
  simp only [Prod.map, expand_digits hr]
  cases h : digits (numeralSign (· = '-') s).2 with
  | none => rfl
  | some p =>
    have hr := hr.of_lexes (lexes_digits h)
    simp [expand_fraction hr, expand_exponent (hr.of_lexes (lexes_fraction p.2))]

/-! ### How larger parts begin -/

theorem expand_lead (hs : Safe s) :
    lead (expandLines s) = (lead s).map (Prod.map id expandLines) := by
  rw [lead_eq, lead_eq, expand_arrow hs, expand_numeral hs, expand_string hs,
    expand_opening hs (by decide), expand_opening hs (by decide), expand_name hs,
    expand_opening hs (by decide)]
  simp only [Option.map_or, Option.map_map]
  rfl

theorem expand_not (hs : Safe s) :
    View.not (expandLines s) = Prod.map id expandLines (View.not s) := by
  rw [not_eq, not_eq, expand_after? hs fun c hc => (isPlain_of_mem_not c hc).1]
  cases Text.after? "not_".toList s <;> rfl

theorem expand_matcher (hs : Safe s) :
    matcher (expandLines s) = (matcher s).map (Prod.map id expandLines) := by
  have hr := hs.of_lexes (lexes_not s)
  rw [matcher_eq, matcher_eq, expand_not hs]
  simp only [Prod.map, expand_name hr]
  cases h : name (View.not s).2 with
  | none => rfl
  | some p =>
    have hr := hr.of_lexes (lexes_name h)
    simp only [Option.map_some, Option.bind_some, Prod.map,
      expand_opening hr (show IsPlain '(' by decide), Option.map_map]
    rfl

theorem expand_suffix (hs : Safe s) :
    suffix (expandLines s) = (suffix s).map (Prod.map id expandLines) := by
  have hw : ∀ c ∈ ".should_".toList, IsCode c :=
    List.all_iff_forall_prop.1 (by decide +kernel)
  rw [suffix_eq, suffix_eq, expand_after? hs hw]
  cases ha : Text.after? ".should_".toList s with
  | some r =>
    have hr : Safe r := by
      rw [Text.eq_append_of_after? ha] at hs
      exact hs.of_append hw
    simp only [Option.map_some, expand_matcher hr, Option.map_map]
    rfl
  | none =>
    simp only [Option.map_none, expand_sign hs isCode_point]
    cases hd : sign '.' s with
    | some r =>
      have hr : Safe r := by
        rw [sign_eq_some_iff.1 hd] at hs
        exact (hs.code isCode_point).2
      simp only [Option.map_some, expand_name hr, Option.map_map]
      rfl
    | none =>
      simp only [Option.map_none, expand_opening hs (show IsPlain '(' by decide)]
      cases ho : opening '(' s with
      | none => rfl
      | some r =>
        have hr := hs.of_lexes (lexes_opening hs.notMem_return (by decide) ho)
        simp only [Option.map_some, Option.bind_some, expand_sign hr (show IsCode ')' by decide),
          Option.map_map]
        rfl

theorem expand_key (hs : Safe s) :
    key (expandLines s) = (key s).map (Prod.map id expandLines) := by
  rw [key_eq, key_eq, expand_name hs, expand_string hs, ← Option.map_or]
  cases h : (name s).or (string s) with
  | none => rfl
  | some p =>
    have hr : Safe p.2 := by
      rcases Option.or_eq_some_iff.1 h with h | ⟨-, h⟩
      · exact hs.of_lexes (lexes_name h)
      · exact hs.of_lexes (lexes_string hs.notMem_return h trivial)
    simp only [Option.map_some, Option.bind_some, Prod.map,
      expand_signAfter_space hr (show IsCode ':' by decide)]
    cases hc : signAfter isSpace ':' p.2 with
    | none => rfl
    | some r =>
      have hr := hr.of_lexes (lexes_signAfter_space (by decide) hc)
      simp only [Option.map_some, expand_spacing hr]
      rfl

theorem expand_space (hs : Safe s) :
    (expandLines s).dropWhile isSpace = expandLines (s.dropWhile isSpace) :=
  (expand_dropWhile hs fun _ _ => isPlain_of_isSpace).1

theorem expand_word (w : String) (hs : Safe s) :
    word w (expandLines s) = (word w s).map expandLines := by
  rw [word_eq, word_eq, expand_name hs]
  cases h : name s with
  | none => rfl
  | some p =>
    have hr := hs.of_lexes (lexes_name h)
    simp only [Option.map_some, Option.bind_some, Prod.map, id, expand_space hr]
    split <;> rfl

theorem expand_binding (hs : Safe s) :
    binding (expandLines s) = (binding s).map (Prod.map id expandLines) := by
  rw [binding_eq, binding_eq, expand_word _ hs]
  cases h : word "let" s with
  | none => rfl
  | some r =>
    have hr := hs.of_lexes (lexes_word h)
    simp only [Option.map_some, Option.bind_some, expand_name hr]
    cases hn : name r with
    | none => rfl
    | some p =>
      have hr := hr.of_lexes (lexes_name hn)
      simp only [Option.map_some, Option.bind_some, Prod.map, id]
      split
      · rfl
      · rw [expand_signAfter_space hr (by decide)]
        cases he : signAfter isSpace '=' p.2 with
        | none => rfl
        | some t =>
          have ht := hr.of_lexes (lexes_signAfter_space (by decide) he)
          simp only [Option.map_some, expand_space ht]
          rfl

theorem expand_statementLead (hs : Safe s) :
    statementLead (expandLines s) = (statementLead s).map (Prod.map id expandLines) := by
  rw [statementLead_eq, statementLead_eq, expand_binding hs, expand_word _ hs]
  simp only [Option.map_or, Option.map_map]
  rfl

/-- What stands before the end of a comment may have been brought to the bracketed form. -/
theorem expand_separators (hs : Safe s) :
    separators (expandLines s) = expandLines (separators s) := by
  induction hn : s.length using Nat.strong_induction_on generalizing s with
  | _ n ih =>
    subst hn
    cases s with
    | nil => rw [expandLines_nil, separators_nil, expandLines_nil]
    | cons c s =>
      cases hc : (isSpacing c || c = ';' : Bool) with
      | true =>
        have hp : IsCode c := by
          rcases Bool.or_eq_true_iff.1 hc with h | h
          · exact (isPlain_of_isSpacing hs.notMem_return (by simp) h).1
          · rw [of_decide_eq_true h]
            decide
        obtain ⟨he, hs⟩ := hs.code hp
        rw [he, separators_cons, if_pos hc, separators_cons, if_pos hc,
          ih s.length (by simp) hs rfl]
      | false =>
        by_cases hc' : c = '/'
        · subst hc'
          obtain ⟨l, u, l', rfl, hl, hu, he, hl', hs⟩ := hs.slash
          have hu' : expandLines u = [] ∨ ∃ v, expandLines u = '\n' :: v := by
            rcases hu with rfl | ⟨v, rfl⟩
            · exact Or.inl rfl
            · exact Or.inr ⟨_, expandLines_feed v⟩
          have ha : ∀ t, Text.after? "//".toList ('/' :: '/' :: t) = some t :=
            Text.after?_append "//".toList
          rw [he, separators_cons, if_neg (by decide), ha, Option.bind_some,
            comment_append hl' hu', separators_cons, if_neg (by decide), ha, Option.bind_some,
            comment_append hl hu]
          exact ih u.length (by simp; omega) hs rfl
        · have ha : ∀ t, Text.after? "//".toList (c :: t) = none := fun t => by
            simp [Text.after?, Ne.symm hc']
          obtain ⟨t, ht⟩ := exists_expandLines_cons c s
          rw [ht, separators_cons, if_neg (by simp [hc]), ha, separators_cons,
            if_neg (by simp [hc]), ha]
          exact ht.symm

theorem expand_endsStatement (hs : Safe s) :
    endsStatement (expandLines s) = endsStatement s := by
  cases s with
  | nil => rfl
  | cons c s =>
    by_cases hc : c = '/'
    · subst hc
      obtain ⟨l, u, l', rfl, -, -, he, -⟩ := hs.slash
      rw [he]
      rfl
    · obtain ⟨t, ht⟩ := exists_expandLines_cons c s
      rw [ht]
      simp [endsStatement, Text.after?, Ne.symm hc]

end

/-! ### Callables -/

/-- Up to a sign that stops short forms, a row of code, texts and comments is brought to the
bracketed form by itself. -/
theorem exists_expandLines_append {s r : List Char} {d : Char} (hd : IsStop d)
    (h : Lexes (fun t => ¬ Within t) s (d :: r)) :
    ∃ p u, s = p ++ d :: r ∧ ∀ w, expandLines (p ++ d :: w) = u ++ d :: expandLines w := by
  generalize hx : d :: r = x at h
  induction h with
  | refl s =>
    subst hx
    exact ⟨[], [], rfl, fun w => expandLines_cons (not_begins_of_ne hd.2.1 w)⟩
  | @code c s x hc hb _ ih =>
    obtain ⟨p, u, rfl, hu⟩ := ih hx
    refine ⟨c :: p, c :: u, by rw [← hx]; rfl, fun w => ?_⟩
    have hw : ¬ Begins (c :: (p ++ d :: w)) := by
      intro hw
      obtain ⟨m, b, v, hp, hm, hmw, hbv⟩ := begins_append_cons (a := c :: p) hd hw
      refine hb ⟨m, b :: (v ++ x), ?_, hm, hmw, Or.inr ⟨v ++ x, ?_⟩⟩
      · rw [← List.cons_append, hp]
        simp
      · rcases hbv with rfl | rfl
        · exact Or.inl rfl
        · exact Or.inr rfl
    rw [List.cons_append, expandLines_cons hw, hu]
    rfl
  | @quoted q t s x hq ht hP _ ih =>
    obtain ⟨p, u, rfl, hu⟩ := ih hx
    have hs := isStop_of_quote hq
    refine ⟨q :: (t ++ q :: p), q :: (t ++ q :: u), by simp, fun w => ?_⟩
    have he := expandLines_quoted hs ht.2.1 hP (p ++ d :: w)
    rw [hu] at he
    simpa [expandLines_cons (not_begins_of_ne hs.2.1 _)] using he
  | @comment l s x hl hs _ ih =>
    obtain ⟨p, u, rfl, hu⟩ := ih hx
    -- a comment ends with its line, before the sign
    have hp : ∃ v, p = '\n' :: v := by
      cases p with
      | nil =>
        rcases hs with hs | ⟨v, hs⟩
        · rw [← hx] at hs
          cases hs
        · rw [← hx] at hs
          exact absurd (List.cons.inj hs).1 hd.2.2.2
      | cons c p =>
        rcases hs with hs | ⟨v, hs⟩
        · cases hs
        · exact ⟨p, by rw [(List.cons.inj hs).1]⟩
    obtain ⟨v, rfl⟩ := hp
    refine ⟨'/' :: '/' :: (l ++ '\n' :: v), '/' :: '/' :: (expandLine l ++ u), by simp,
      fun w => ?_⟩
    have he := expandLines_append hl.1 (t := '\n' :: (v ++ d :: w)) (Or.inr ⟨_, rfl⟩)
    rw [← List.cons_append, hu] at he
    have hn : ∀ t, ¬ Begins ('/' :: t) := not_begins_of_ne (by decide)
    simpa [expandLines_cons (hn _)] using he

end Body

/-! ### Other texts for callables -/

mutual

/-- An expression in which the texts of callables are changed. -/
def Expr.mapSources (f : String → String) : Expr → Expr
  | .list items => .list (Expr.mapSourcesOfItems f items)
  | .object fields => .object (Expr.mapSourcesOfFields f fields)
  | .boxed inner => .boxed (inner.mapSources f)
  | .callable source body => .callable (f source) (Statement.mapSourcesOfAll f body)
  | .property target name => .property (target.mapSources f) name
  | .call target => .call (target.mapSources f)
  | .assertion actual matcher negate expected =>
    .assertion (actual.mapSources f) matcher negate (Expr.mapSourcesOfExpected f expected)
  | .undefined => .undefined
  | .null => .null
  | .bool b => .bool b
  | .number n => .number n
  | .string s => .string s
  | .name n => .name n

/-- An expected value with other texts for its callables. -/
def Expr.mapSourcesOfExpected (f : String → String) : Option Expr → Option Expr
  | none => none
  | some e => some (e.mapSources f)

/-- The items of a list with other texts for their callables. -/
def Expr.mapSourcesOfItems (f : String → String) : List Expr → List Expr
  | [] => []
  | e :: es => e.mapSources f :: Expr.mapSourcesOfItems f es

/-- The fields of an object with other texts for their callables. -/
def Expr.mapSourcesOfFields (f : String → String) : List (String × Expr) → List (String × Expr)
  | [] => []
  | (k, e) :: fs => (k, e.mapSources f) :: Expr.mapSourcesOfFields f fs

/-- A statement with other texts for its callables. -/
def Statement.mapSources (f : String → String) : Statement → Statement
  | .bind n e => .bind n (e.mapSources f)
  | .raise e => .raise (e.mapSources f)
  | .expr e => .expr (e.mapSources f)

/-- A row of statements with other texts for their callables. -/
def Statement.mapSourcesOfAll (f : String → String) : List Statement → List Statement
  | [] => []
  | s :: ss => s.mapSources f :: Statement.mapSourcesOfAll f ss

end

mutual

/-- The texts of the callables in an expression. -/
def Expr.sources : Expr → List String
  | .list items => Expr.sourcesOfItems items
  | .object fields => Expr.sourcesOfFields fields
  | .boxed inner => inner.sources
  | .callable source body => source :: Statement.sourcesOfAll body
  | .property target _ => target.sources
  | .call target => target.sources
  | .assertion actual _ _ expected => actual.sources ++ Expr.sourcesOfExpected expected
  | .undefined | .null | .bool _ | .number _ | .string _ | .name _ => []

/-- The texts of the callables in an expected value, which may be missing. -/
def Expr.sourcesOfExpected : Option Expr → List String
  | none => []
  | some e => e.sources

/-- The texts of the callables in the items of a list. -/
def Expr.sourcesOfItems : List Expr → List String
  | [] => []
  | e :: es => e.sources ++ Expr.sourcesOfItems es

/-- The texts of the callables in the fields of an object. -/
def Expr.sourcesOfFields : List (String × Expr) → List String
  | [] => []
  | (_, e) :: fs => e.sources ++ Expr.sourcesOfFields fs

/-- The texts of the callables in a statement. -/
def Statement.sources : Statement → List String
  | .bind _ e => e.sources
  | .raise e => e.sources
  | .expr e => e.sources

/-- The texts of the callables in a row of statements. -/
def Statement.sourcesOfAll : List Statement → List String
  | [] => []
  | s :: ss => s.sources ++ Statement.sourcesOfAll ss

end

section

variable {f : String → String}

mutual

/-- An expression stays if the texts of its callables do. -/
theorem Expr.mapSources_eq_self {e : Expr} (h : ∀ x ∈ e.sources, f x = x) :
    e.mapSources f = e := by
  cases e with
  | list items =>
    rw [Expr.mapSources, Expr.mapSourcesOfItems_eq_self h]
  | object fields =>
    rw [Expr.mapSources, Expr.mapSourcesOfFields_eq_self h]
  | boxed inner =>
    rw [Expr.mapSources, Expr.mapSources_eq_self (e := inner) h]
  | callable source body =>
    simp only [Expr.sources, List.forall_mem_cons] at h
    rw [Expr.mapSources, h.1, Statement.mapSourcesOfAll_eq_self h.2]
  | property target name =>
    rw [Expr.mapSources, Expr.mapSources_eq_self (e := target) h]
  | call target =>
    rw [Expr.mapSources, Expr.mapSources_eq_self (e := target) h]
  | assertion actual matcher negate expected =>
    simp only [Expr.sources, List.mem_append, or_imp, forall_and] at h
    rw [Expr.mapSources, Expr.mapSources_eq_self h.1, Expr.mapSourcesOfExpected_eq_self h.2]
  | undefined | null | bool | number | string | name => rw [Expr.mapSources]

theorem Expr.mapSourcesOfExpected_eq_self {x : Option Expr}
    (h : ∀ t ∈ Expr.sourcesOfExpected x, f t = t) : Expr.mapSourcesOfExpected f x = x := by
  cases x with
  | none => rfl
  | some e => rw [Expr.mapSourcesOfExpected, Expr.mapSources_eq_self h]

theorem Expr.mapSourcesOfItems_eq_self {es : List Expr}
    (h : ∀ t ∈ Expr.sourcesOfItems es, f t = t) : Expr.mapSourcesOfItems f es = es := by
  cases es with
  | nil => rfl
  | cons e es =>
    simp only [Expr.sourcesOfItems, List.mem_append, or_imp, forall_and] at h
    rw [Expr.mapSourcesOfItems, Expr.mapSources_eq_self h.1, Expr.mapSourcesOfItems_eq_self h.2]

theorem Expr.mapSourcesOfFields_eq_self {fs : List (String × Expr)}
    (h : ∀ t ∈ Expr.sourcesOfFields fs, f t = t) : Expr.mapSourcesOfFields f fs = fs := by
  cases fs with
  | nil => rfl
  | cons e fs =>
    obtain ⟨k, e⟩ := e
    simp only [Expr.sourcesOfFields, List.mem_append, or_imp, forall_and] at h
    rw [Expr.mapSourcesOfFields, Expr.mapSources_eq_self h.1, Expr.mapSourcesOfFields_eq_self h.2]

theorem Statement.mapSources_eq_self {st : Statement} (h : ∀ t ∈ st.sources, f t = t) :
    st.mapSources f = st := by
  cases st <;> rw [Statement.mapSources, Expr.mapSources_eq_self h]

theorem Statement.mapSourcesOfAll_eq_self {body : List Statement}
    (h : ∀ t ∈ Statement.sourcesOfAll body, f t = t) : Statement.mapSourcesOfAll f body = body := by
  cases body with
  | nil => rfl
  | cons st body =>
    simp only [Statement.sourcesOfAll, List.mem_append, or_imp, forall_and] at h
    rw [Statement.mapSourcesOfAll, Statement.mapSources_eq_self h.1,
      Statement.mapSourcesOfAll_eq_self h.2]

end

end

/-- The bracketed form of a text. -/
def Shorthand.expanded (source : String) : String :=
  String.ofList (expand source.toList)

namespace Body

open Shorthand View

theorem mapSources_wordExpr (f : String → String) (w : String) :
    (wordExpr w).mapSources f = wordExpr w := by
  unfold wordExpr
  repeat' split
  all_goals simp [Expr.mapSources]

/-- What is read of a text that ends with a sign becomes what is read of its bracketed form. -/
theorem consumed_expandLines {s r : List Char} {d : Char} (hd : IsStop d) (hs : Safe s)
    (h : Lexes (fun _ => True) s (d :: r)) :
    String.ofList (consumed (expandLines s) (expandLines r)) =
      expanded (String.ofList (consumed s r)) := by
  obtain ⟨p, u, rfl, hu⟩ := exists_expandLines_append hd (h.split hs).1
  have hr : '\r' ∉ p ++ [d] := fun h => hs.notMem_return (by simp at h ⊢; tauto)
  have hp := consumed_append (p ++ [d]) r
  have hq := consumed_append (u ++ [d]) (expandLines r)
  rw [List.append_assoc] at hp hq
  rw [hu, show u ++ d :: expandLines r = u ++ ([d] ++ expandLines r) from rfl, hq,
    show p ++ d :: r = p ++ ([d] ++ r) from rfl, hp, expanded, String.toList_ofList, expand_eq hr,
    hu, expandLines_nil]

mutual

theorem expand_group {s : List Char} (hs : Safe s) :
    group (expandLines s) =
      (group s).map (Prod.map (Expr.mapSources expanded) expandLines) := by
  rw [group_eq, group_eq, expand_opening hs (by decide)]
  cases h₁ : opening '(' s with
  | none => rfl
  | some r₁ =>
    have hr₁ := hs.of_lexes (lexes_opening hs.notMem_return (by decide) h₁)
    have hlt := Parsed.length_lt_of_map_rest h₁
    simp only [Option.map_some, Option.bind_some, expand_expr hr₁]
    cases h₂ : expr r₁ with
    | none => rfl
    | some p =>
      have hr₂ := hr₁.of_lexes (lexes_expr hr₁.notMem_return h₂ fun _ _ => trivial)
      simp only [Option.map_some, Option.bind_some, Prod.map,
        expand_signAfter_spacing hr₂ (show IsCode ')' by decide), Option.map_map]
      rfl
termination_by 5 * s.length

theorem expand_primary {s : List Char} (hs : Safe s) :
    primary (expandLines s) =
      (primary s).map (Prod.map (Expr.mapSources expanded) expandLines) := by
  rw [primary_eq, primary_eq, expand_lead hs]
  cases h₁ : lead s with
  | none => rfl
  | some p =>
    obtain ⟨l, r⟩ := p
    have hl := lexes_lead (P := fun _ => True) hs.notMem_return h₁ fun _ _ => trivial
    have hr := hs.of_lexes hl
    have hlt := Parsed.length_lt_of_map_pair h₁
    simp only [Option.map_some, Option.bind_some, Prod.map, id]
    cases l with
    | number n => simp [primaryAfter, Expr.mapSources]
    | string t => simp [primaryAfter, Expr.mapSources]
    | word w =>
      rw [primaryAfter, primaryAfter]
      split
      · have hle := Text.length_dropWhile_le isSpace r
        rw [expand_space hr, expand_group hr.dropWhile_space]
        cases group (r.dropWhile isSpace) with
        | none => simp [mapSources_wordExpr]
        | some q => rfl
      · simp [mapSources_wordExpr]
    | callable =>
      rw [primaryAfter, primaryAfter, expand_statements hr]
      have hb : Lexes (fun _ => True) r (View.statements r).2 :=
        lexes_statements hr.notMem_return (Prod.eta _).symm fun _ _ => trivial
      have hr₁ := hr.of_lexes hb
      simp only [Prod.map, expand_signAfter_spacing hr₁ (show IsCode '\x7d' by decide)]
      cases h₂ : signAfter isSpacing '\x7d' (View.statements r).2 with
      | none => rfl
      | some r₂ =>
        rw [signAfter_eq, sign_eq_some_iff] at h₂
        have hd := lexes_dropWhile (P := fun _ => True)
          fun c => isPlain_of_isSpacing hr₁.notMem_return
        rw [h₂] at hd
        have hc := consumed_expandLines (by decide +kernel) hs ((hl.trans hb).trans hd)
        simp [Expr.mapSources, hc]
    | list =>
      rw [primaryAfter, primaryAfter, expand_items hr]
      have hr₁ := hr.of_lexes
        (lexes_items hr.notMem_return (Prod.eta (items r)).symm fun _ _ => trivial)
      simp only [Prod.map, expand_closing hr₁ (show IsPlain ']' by decide), Option.map_map]
      rfl
    | object =>
      rw [primaryAfter, primaryAfter, expand_fields hr]
      have hr₁ := hr.of_lexes
        (lexes_fields hr.notMem_return (Prod.eta (fields r)).symm fun _ _ => trivial)
      simp only [Prod.map, expand_closing hr₁ (show IsPlain '\x7d' by decide), Option.map_map]
      rfl
    | group => exact expand_group hs
termination_by 5 * s.length + 1

theorem expand_expr {s : List Char} (hs : Safe s) :
    expr (expandLines s) = (expr s).map (Prod.map (Expr.mapSources expanded) expandLines) := by
  rw [expr_eq, expr_eq, expand_primary hs]
  cases h₁ : primary s with
  | none => rfl
  | some p =>
    obtain ⟨e, r⟩ := p
    have hr := hs.of_lexes (lexes_primary hs.notMem_return h₁ fun _ _ => trivial)
    have hlt := Parsed.length_lt_of_map_pair h₁
    simp only [Option.map_some, Prod.map, expand_suffixes e hr]
termination_by 5 * s.length + 2

theorem expand_suffixes (e : Expr) {s : List Char} (hs : Safe s) :
    suffixes (e.mapSources expanded) (expandLines s) =
      Prod.map (Expr.mapSources expanded) expandLines (suffixes e s) := by
  rw [suffixes_eq, suffixes_eq, expand_suffix hs]
  cases h₁ : suffix s with
  | none => rfl
  | some p =>
    obtain ⟨l, r⟩ := p
    have hr := hs.of_lexes (lexes_suffix hs.notMem_return h₁)
    have hlt := Parsed.length_lt_of_map_pair h₁
    cases l with
    | property n => simpa [Expr.mapSources] using expand_suffixes (.property e n) hr
    | call => simpa [Expr.mapSources] using expand_suffixes (.call e) hr
    | assertion negate m =>
      simp only [Option.map_some, Prod.map, id, expand_argument hr]
      cases h₂ : argument r with
      | none => rfl
      | some q =>
        obtain ⟨x, r₁⟩ := q
        have hr₁ := hr.of_lexes (lexes_argument hr.notMem_return h₂ fun _ _ => trivial)
        have hlt₁ := Parsed.length_lt_of_map_pair h₂
        simpa [Expr.mapSources, Prod.map] using expand_suffixes (.assertion e m negate x) hr₁
termination_by 5 * s.length

theorem expand_argument {s : List Char} (hs : Safe s) :
    argument (expandLines s) =
      (argument s).map (Prod.map (Expr.mapSourcesOfExpected expanded) expandLines) := by
  rw [argument_eq, argument_eq, expand_expr hs]
  cases h₁ : expr s with
  | none =>
    simp only [Option.map_none, expand_signAfter_spacing hs (show IsCode ')' by decide),
      Option.map_map]
    rfl
  | some p =>
    have hr := hs.of_lexes (lexes_expr hs.notMem_return h₁ fun _ _ => trivial)
    simp only [Option.map_some, Prod.map,
      expand_signAfter_spacing hr (show IsCode ')' by decide), Option.map_map]
    rfl
termination_by 5 * s.length + 3

theorem expand_items {s : List Char} (hs : Safe s) :
    items (expandLines s) =
      Prod.map (Expr.mapSourcesOfItems expanded) expandLines (items s) := by
  rw [items_eq, items_eq, expand_expr hs]
  cases h₁ : expr s with
  | none => rfl
  | some p =>
    have hr := hs.of_lexes (lexes_expr hs.notMem_return h₁ fun _ _ => trivial)
    have hlt := Parsed.length_lt_of_map_pair h₁
    simp only [Option.map_some, Prod.map, expand_moreItems hr]
    rfl
termination_by 5 * s.length + 3

theorem expand_moreItems {s : List Char} (hs : Safe s) :
    moreItems (expandLines s) =
      Prod.map (Expr.mapSourcesOfItems expanded) expandLines (moreItems s) := by
  rw [moreItems_eq, moreItems_eq, expand_comma hs]
  cases h₁ : comma s with
  | none => rfl
  | some r =>
    have hr := hs.of_lexes (lexes_comma hs.notMem_return h₁)
    have hlt := Parsed.length_lt_of_map_rest h₁
    simp only [Option.map_some, Option.bind_some, expand_expr hr]
    cases h₂ : expr r with
    | none => rfl
    | some p =>
      have hr₁ := hr.of_lexes (lexes_expr hr.notMem_return h₂ fun _ _ => trivial)
      have hlt₁ := Parsed.length_lt_of_map_pair h₂
      simp only [Option.map_some, Prod.map, expand_moreItems hr₁]
      rfl
termination_by 5 * s.length

theorem expand_field {s : List Char} (hs : Safe s) :
    field (expandLines s) =
      (field s).map (Prod.map (Prod.map id (Expr.mapSources expanded)) expandLines) := by
  rw [field_eq, field_eq, expand_key hs]
  cases h₁ : key s with
  | none => rfl
  | some p =>
    have hr := hs.of_lexes (lexes_key hs.notMem_return h₁ trivial)
    have hlt := Parsed.length_lt_of_map_pair h₁
    simp only [Option.map_some, Option.bind_some, Prod.map, expand_expr hr, Option.map_map]
    rfl
termination_by 5 * s.length

theorem expand_fields {s : List Char} (hs : Safe s) :
    fields (expandLines s) =
      Prod.map (Expr.mapSourcesOfFields expanded) expandLines (fields s) := by
  rw [fields_eq, fields_eq, expand_field hs]
  cases h₁ : field s with
  | none => rfl
  | some p =>
    have hr := hs.of_lexes (lexes_field hs.notMem_return h₁ fun _ _ => trivial)
    have hlt := Parsed.length_lt_of_map_pair h₁
    simp only [Option.map_some, Prod.map, expand_moreFields hr]
    rfl
termination_by 5 * s.length + 1

theorem expand_moreFields {s : List Char} (hs : Safe s) :
    moreFields (expandLines s) =
      Prod.map (Expr.mapSourcesOfFields expanded) expandLines (moreFields s) := by
  rw [moreFields_eq, moreFields_eq, expand_comma hs]
  cases h₁ : comma s with
  | none => rfl
  | some r =>
    have hr := hs.of_lexes (lexes_comma hs.notMem_return h₁)
    have hlt := Parsed.length_lt_of_map_rest h₁
    simp only [Option.map_some, Option.bind_some, expand_field hr]
    cases h₂ : field r with
    | none => rfl
    | some p =>
      have hr₁ := hr.of_lexes (lexes_field hr.notMem_return h₂ fun _ _ => trivial)
      have hlt₁ := Parsed.length_lt_of_map_pair h₂
      simp only [Option.map_some, Prod.map, expand_moreFields hr₁]
      rfl
termination_by 5 * s.length

theorem expand_statement {s : List Char} (hs : Safe s) :
    statement (expandLines s) =
      (statement s).map (Prod.map (Statement.mapSources expanded) expandLines) := by
  rw [statement_eq, statement_eq, expand_statementLead hs, expand_expr hs]
  cases h₁ : statementLead s with
  | none =>
    simp only [Option.map_none, Option.bind_none, Option.none_or, Option.map_map]
    rfl
  | some p =>
    have hr := hs.of_lexes (lexes_statementLead h₁)
    have hlt := Parsed.length_lt_of_map_pair h₁
    simp only [Option.map_some, Option.bind_some, Prod.map, id, expand_expr hr, Option.map_or,
      Option.map_map]
    cases p.1 <;> rfl
termination_by 5 * s.length + 3

theorem expand_statements {s : List Char} (hs : Safe s) :
    View.statements (expandLines s) =
      Prod.map (Statement.mapSourcesOfAll expanded) expandLines (View.statements s) := by
  have hr := hs.of_lexes (lexes_separators hs.notMem_return)
  have hle := length_separators_le s
  rw [statements_eq, statements_eq, expand_separators hs, expand_statement hr]
  cases h₁ : statement (separators s) with
  | none => rfl
  | some p =>
    have hr₁ := hr.of_lexes (lexes_statement hr.notMem_return h₁ fun _ _ => trivial)
    have hlt := Parsed.length_lt_of_map_pair h₁
    have hld := Text.length_dropWhile_le isSpace p.2
    have hr₂ := hr₁.dropWhile_space
    simp only [Option.map_some, Prod.map, expand_space hr₁, expand_endsStatement hr₂]
    split
    · simp only [expand_statements hr₂]
      rfl
    · rfl
termination_by 5 * s.length + 4

end

/-! ### Whole bodies -/

/-- A body that can be read is safe if there is no short form in its texts. -/
theorem safe_of_statements {s : List Char} {body : List Statement} (hr : '\r' ∉ s)
    (h : statements s = .ok body) (ht : ∀ t ∈ Statement.textsOfAll body, ¬ Within t.toList) :
    Safe s :=
  lexes_statements hr (statements_eq_ok_iff.1 h) ht

/-- **A body means the same in the bracketed form** if it can be read as it stands and there is no
short form in its texts: only its callables have the bracketed form of their texts, and they stay
as well where that is no other text. -/
theorem statements_expand {s : List Char} {body : List Statement} (hr : '\r' ∉ s)
    (h : statements s = .ok body) (ht : ∀ t ∈ Statement.textsOfAll body, ¬ Within t.toList) :
    statements (expand s) = .ok (Statement.mapSourcesOfAll expanded body) ∧
      ((∀ t ∈ Statement.sourcesOfAll body, expanded t = t) → statements (expand s) = .ok body) := by
  have he : statements (expand s) = .ok (Statement.mapSourcesOfAll expanded body) := by
    rw [statements_eq_ok_iff, expand_eq hr, expand_statements (safe_of_statements hr h ht),
      statements_eq_ok_iff.1 h]
    rfl
  exact ⟨he, fun hf => by rw [he, Statement.mapSourcesOfAll_eq_self hf]⟩

theorem not_within_of_length_lt {t : List Char} (h : t.length < ".should_".toList.length) :
    ¬ Within t := by
  rintro ⟨u, m, w, rfl, -⟩
  simp at h
  omega

/-- An assertion in the bracketed form, a callable with one in it, and a comment with a short
form. -/
theorem statements_expand_comment :
    let s := "x.should_eql('a') // .should_be b\n-> \x7b x.should_be('a') \x7d".toList
    let body : List Statement :=
      [.expr (.assertion (.name "x") "eql" false (some (.string "a"))),
        .expr (.callable "-> \x7b x.should_be('a') \x7d"
          [.expr (.assertion (.name "x") "be" false (some (.string "a")))])]
    '\r' ∉ s ∧ statements s = .ok body ∧ (∀ t ∈ Statement.textsOfAll body, ¬ Within t.toList) ∧
      expand s ≠ s ∧ statements (expand s) = .ok body := by
  intro s body
  have hr : '\r' ∉ s := by decide
  have hs : statements s = .ok body := by decide +kernel
  have ht : ∀ t ∈ Statement.textsOfAll body, ¬ Within t.toList := by
    intro t ht
    have : t = "a" := by simpa [body, Statement.textsOfAll, Statement.texts, Expr.texts,
      Expr.textsOfExpected] using ht
    rw [this]
    exact not_within_of_length_lt (by decide)
  refine ⟨hr, hs, ht, by decide +kernel, (statements_expand hr hs ht).2 ?_⟩
  intro t ht
  have : t = "-> \x7b x.should_be('a') \x7d" := by
    simpa [body, Statement.sourcesOfAll, Statement.sources, Expr.sources,
      Expr.sourcesOfExpected] using ht
  rw [this]
  decide +kernel

/-- Bodies that do not mean the same: a text with a short form in it, after which the body cannot be
read any more, and a callable with a comment, which has another text. -/
theorem statements_of_short_form :
    (let s := "let s = '.should_be x'\n".toList;
      '\r' ∉ s ∧ statements s = .ok [.bind "s" (.string ".should_be x")] ∧
        ∀ body, statements (expand s) ≠ .ok body) ∧
    (let s := "-> \x7b 1 // .should_be x\n\x7d".toList;
      '\r' ∉ s ∧
        statements s =
          .ok [.expr (.callable "-> \x7b 1 // .should_be x\n\x7d"
            [.expr (.number ⟨none, ['1'], none, none⟩)])] ∧
        statements (expand s) =
          .ok [.expr (.callable "-> \x7b 1 // .should_be(x)\n\x7d"
            [.expr (.number ⟨none, ['1'], none, none⟩)])]) := by
  refine ⟨⟨by decide, by decide +kernel, ?_⟩, by decide, by decide +kernel, by decide +kernel⟩
  intro body hs
  have h : (statements (expand "let s = '.should_be x'\n".toList)).isOk = false := by
    decide +kernel
  rw [hs] at h
  cases h

end Body

end SpecEngine
