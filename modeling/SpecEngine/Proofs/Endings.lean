import SpecEngine.Proofs.Writing

/-!
# Where parts of bodies end

What tells that an expression, or one of the parts between two brackets, is over: the text behind
it begins with something that goes on with nothing.

* `IsOver`, `Unopened`, `Over`, `Follows`: texts with which an expression is over, and texts that
  stand behind its beginning;
* `exists_barren`, `exists_of_closing`: what stands in front of a closing bracket;
* `ReadsParts`: how the parts of lists and objects are read;
* `endsStatement_cons`, `after_statementLead`: where a statement ends, and words of statements that
  are read as expressions.
-/

namespace SpecEngine

namespace Body

namespace View

variable {s r u : List Char}

/-! ### Signs behind spacing -/

/-- A sign is found behind spacing and a comma where it was found. -/
theorem signAfter_spacing_eq_some {c : Char} (h : signAfter isSpacing c s = some r) :
    s.dropWhile isSpacing = c :: r := by
  rwa [signAfter_eq, sign_eq_some_iff] at h

theorem spacing_dropWhile_space (s : List Char) :
    (s.dropWhile isSpace).dropWhile isSpacing = s.dropWhile isSpacing := by
  induction s with
  | nil => rfl
  | cons c s ih =>
    cases hc : isSpacing c with
    | true =>
      rw [List.dropWhile_cons]
      split
      · rw [ih, List.dropWhile_cons_of_pos hc]
      · rfl
    | false => rw [List.dropWhile_cons_of_neg (by simp [isSpace_of_isSpacing hc])]

theorem exists_of_opening {c : Char} (h : opening c s = some r) :
    ∃ t, s = c :: t ∧ r = t.dropWhile isSpacing := by
  rw [opening_eq] at h
  obtain ⟨t, ht, rfl⟩ := Option.map_eq_some_iff.1 h
  exact ⟨t, sign_eq_some_iff.1 ht, rfl⟩

theorem mem_barren_of_isSpacing {c : Char} (h : isSpacing c = true) : c ∈ barren := by
  simp only [isSpacing, Bool.or_eq_true, decide_eq_true_eq] at h
  rcases h with ((rfl | rfl) | rfl) | rfl <;> decide

theorem mem_signs_of_isSpacing {c : Char} (h : isSpacing c = true) : c ∈ signs :=
  (class_of_mem_barren c (mem_barren_of_isSpacing h)).1

theorem isSpacing_of_isSpace {c : Char} (h : isSpace c = true) : isSpacing c = true := by
  by_contra hn
  rw [isSpace_of_isSpacing (Bool.not_eq_true _ ▸ hn)] at h
  cases h

/-! ### Where an expression is over -/

/-- Neither a property, a call nor an assertion goes on into the text, and no box has its value
there. -/
def IsOver (s : List Char) : Prop :=
  s.head? ≠ some '.' ∧ (s.dropWhile isSpace).head? ≠ some '('

/-- No box has its value in the text, where brackets with nothing in them may stand. -/
def Unopened (s : List Char) : Prop :=
  ∀ r, opening '(' (s.dropWhile isSpace) = some r → ∃ t, r = ')' :: t

theorem isOver_of_spacing {d : Char} (hd : d ≠ '.' ∧ d ≠ '(') (h : s.dropWhile isSpacing = d :: r) :
    IsOver s := by
  constructor
  · intro hs
    obtain ⟨t, rfl⟩ := List.head?_eq_some_iff.1 hs
    exact hd.1 (List.cons.inj h).1.symm
  · intro hs
    obtain ⟨t, ht⟩ := List.head?_eq_some_iff.1 hs
    rw [← spacing_dropWhile_space, ht] at h
    exact hd.2 (List.cons.inj h).1.symm

theorem barren_of_endsStatement {c : Char} {t : List Char} (h : endsStatement (c :: t) = true) :
    c ∈ barren := by
  by_cases hc : c = '/'
  · simp [hc, barren]
  · have ha : Text.after? "//".toList (c :: t) = none := Text.after?_cons_of_ne (Ne.symm hc) ['/'] t
    rw [endsStatement, ha] at h
    simp only [Bool.or_eq_true, decide_eq_true_eq, Option.isSome_none, Bool.false_eq_true,
      or_false] at h
    rcases h with ((rfl | rfl) | rfl) | rfl <;> decide

theorem isOver_of_endsStatement (h : endsStatement (s.dropWhile isSpace) = true) : IsOver s := by
  constructor
  · intro hs
    obtain ⟨t, rfl⟩ := List.head?_eq_some_iff.1 hs
    cases h
  · intro hs
    obtain ⟨t, ht⟩ := List.head?_eq_some_iff.1 hs
    rw [ht] at h
    exact absurd (barren_of_endsStatement h) (by decide)

theorem suffix_of_isOver (h : IsOver s) : suffix s = none := by
  cases s with
  | nil => rfl
  | cons c s =>
    refine suffix_cons_of_not ⟨fun hc => h.1 (by simp [hc]), ?_⟩ s
    rintro rfl
    exact h.2 rfl

theorem exists_of_suffix {l : Suffix} (h : suffix s = some (l, r)) :
    (∃ t, s = '.' :: t) ∨ ∃ t, opening '(' s = some (')' :: t) := by
  rw [suffix_eq] at h
  cases ha : Text.after? ".should_".toList s with
  | some t => exact Or.inl ⟨_, Text.eq_append_of_after? ha⟩
  | none =>
    rw [ha] at h
    cases hd : sign '.' s with
    | some t => exact Or.inl ⟨t, sign_eq_some_iff.1 hd⟩
    | none =>
      simp only [hd] at h
      obtain ⟨t, ht, -⟩ := Option.map_eq_some_iff.1 h
      obtain ⟨u, hu, hc⟩ := Option.bind_eq_some_iff.1 ht
      exact Or.inr ⟨t, by rw [hu, sign_eq_some_iff.1 hc]⟩

/-- Nothing goes on with an expression into the text. -/
def Over (y : List Char) : Prop :=
  NameEnds y ∧ IsOver y

/-- Behind what begins an expression, the text goes on with that at most from outside. -/
def Follows (y : List Char) : Prop :=
  NumeralEnds y ∧ Unopened y

theorem over_nil : Over [] :=
  ⟨nofun, nofun, nofun⟩

theorem Over.follows {y : List Char} (h : Over y) : Follows y := by
  obtain ⟨hn, hp, ho⟩ := h
  refine ⟨⟨hn, ?_⟩, fun r hr => ?_⟩
  · have hs : sign '.' y = none := by
      refine sign_eq_none ?_
      rintro t rfl
      exact hp rfl
    rw [hs, Option.bind_none]
  · obtain ⟨t, ht, -⟩ := exists_of_opening hr
    rw [ht] at ho
    exact absurd rfl ho

theorem Over.suffixes_eq {y : List Char} (h : Over y) (e : Expr) : suffixes e y = (e, y) := by
  rw [View.suffixes_eq, suffix_of_isOver h.2]

/-- A name ends where, behind spacing, something stands that goes on with none. -/
theorem nameEnds_of_dropWhile {q : Char → Bool} (hq : ∀ c, q c = true → isSpacing c = true)
    (h : NameEnds (s.dropWhile q)) : NameEnds s := by
  cases s with
  | nil => exact nofun
  | cons c s =>
    rw [List.dropWhile_cons] at h
    split at h
    · next hc => exact nameEnds_sign (mem_signs_of_isSpacing (hq c hc)) s
    · exact h

/-- An expression is over where, behind spacing, a sign stands that goes on with none. -/
theorem over_of_spacing {d : Char} (hd : d ∈ signs ∧ d ≠ '.' ∧ d ≠ '(')
    (h : s.dropWhile isSpacing = d :: r) : Over s :=
  ⟨nameEnds_of_dropWhile (fun _ => id) (h ▸ nameEnds_sign hd.1 r), isOver_of_spacing hd.2 h⟩

/-- Blanks end a name. -/
theorem nameEnds_append {a y : List Char} (ha : ∀ c ∈ a, isSpace c = true) (hy : NameEnds y) :
    NameEnds (a ++ y) := by
  cases a with
  | nil => exact hy
  | cons c a =>
    have hc := isSpacing_of_isSpace (ha c List.mem_cons_self)
    exact nameEnds_sign (mem_signs_of_isSpacing hc) _

/-- An expression is over where its statement can end. -/
theorem over_of_endsStatement (h : endsStatement (s.dropWhile isSpace) = true) : Over s := by
  refine ⟨nameEnds_of_dropWhile (fun _ => isSpacing_of_isSpace) ?_, isOver_of_endsStatement h⟩
  cases hd : s.dropWhile isSpace with
  | nil => exact nofun
  | cons c t =>
    rw [hd] at h
    exact nameEnds_sign (class_of_mem_barren c (barren_of_endsStatement h)).1 t

/-! ### In front of a closing bracket -/

theorem exists_barren {d : Char} (hd : d ∈ barren) (h : s.dropWhile isSpacing = d :: r) :
    ∃ c t, s = c :: t ∧ c ∈ barren := by
  cases s with
  | nil => cases h
  | cons c s =>
    refine ⟨c, s, rfl, ?_⟩
    rw [List.dropWhile_cons] at h
    split at h
    · next hc => exact mem_barren_of_isSpacing hc
    · rwa [(List.cons.inj h).1]

theorem field_barren {c : Char} (hc : c ∈ barren) (s : List Char) : field (c :: s) = none := by
  obtain ⟨hs, -, hq, -⟩ := class_of_mem_barren c hc
  rw [field_eq, key_eq, name_cons_of_not (isNameStart_of_mem_signs hs), string_cons_of_not hq]
  rfl

theorem group_emptyBrackets (h : opening '(' s = some (')' :: r)) : group s = none := by
  rw [group_eq, h, Option.bind_some, expr_barren (by decide), Option.bind_none]

theorem expr_emptyBrackets (h : opening '(' s = some (')' :: r)) : expr s = none := by
  have hg := group_emptyBrackets h
  obtain ⟨t, rfl, -⟩ := exists_of_opening h
  rw [expr_eq, primary_eq, lead_group, Option.bind_some, primaryAfter, hg, Option.map_none]

theorem Unopened.group_eq_none (h : Unopened s) : group (s.dropWhile isSpace) = none := by
  cases ho : opening '(' (s.dropWhile isSpace) with
  | none => rw [group_eq, ho, Option.bind_none]
  | some r =>
    obtain ⟨t, rfl⟩ := h r ho
    exact group_emptyBrackets ho

/-- A closing bracket stands behind spacing, and one comma at most. -/
theorem exists_of_closing {c : Char} (h : closing c s = some r) :
    s.dropWhile isSpacing = c :: r ∨
      ∃ t, s.dropWhile isSpacing = ',' :: t ∧ t.dropWhile isSpacing = c :: r := by
  rw [closing_eq] at h
  cases hc : signAfter isSpacing ',' s with
  | none =>
    rw [hc] at h
    exact Or.inl (signAfter_spacing_eq_some h)
  | some t =>
    rw [hc] at h
    exact Or.inr ⟨t, signAfter_spacing_eq_some hc, signAfter_spacing_eq_some h⟩

/-- The brackets that close lists and objects. -/
def IsBracket (c : Char) : Prop :=
  c = ']' ∨ c = '\x7d'

theorem exists_barren_of_closing {c : Char} (hc : IsBracket c) (h : closing c s = some r) :
    ∃ d t, s.dropWhile isSpacing = d :: t ∧ d ∈ barren ∧ d ≠ '.' ∧ d ≠ '(' := by
  obtain hs | ⟨t, hs, -⟩ := exists_of_closing h
  · exact ⟨c, r, hs, by rcases hc with rfl | rfl <;> decide⟩
  · exact ⟨',', t, hs, by decide⟩

section

variable {α : Type} {p : List Char → Option (α × List Char)} {more : List Char → List α × List Char}

/-- Parts are read one behind the other, the ones behind the first by a reader of their own. -/
def ReadsParts (p : List Char → Option (α × List Char)) (more f : List Char → List α × List Char) :
    Prop :=
  ∀ s, f s =
    match p s with
    | none => ([], s)
    | some (x, r) => Prod.map (x :: ·) id (more r)

/-- Nothing is read in front of a closing bracket. -/
theorem eq_none_of_closing {c : Char} (hp : ∀ c ∈ barren, ∀ s, p (c :: s) = none) (hc : IsBracket c)
    (h : closing c s = some r) : p s = none := by
  obtain ⟨d, t, hs, hd, -⟩ := exists_barren_of_closing hc h
  obtain ⟨e, u, rfl, he⟩ := exists_barren hd hs
  exact hp e he u

/-- No part follows the comma in front of a closing bracket. -/
theorem comma_bind_eq_none {c : Char} (hp : ∀ c ∈ barren, ∀ s, p (c :: s) = none) (hc : IsBracket c)
    (h : closing c s = some r) : (comma s).bind p = none := by
  rw [comma_eq, signAfter_eq]
  obtain hs | ⟨t, hs, ht⟩ := exists_of_closing h
  · rw [hs, sign_cons, if_neg (by rcases hc with rfl | rfl <;> decide)]
    rfl
  · rw [hs, sign_cons, if_pos rfl, Option.map_some, Option.bind_some, ht]
    exact hp c (by rcases hc with rfl | rfl <;> decide) r

/-- Behind a part stands a comma, or the bracket. -/
theorem ReadsParts.exists_barren (hf : ReadsParts (fun s => (comma s).bind p) more more) {c : Char}
    (hc : IsBracket c) (h : closing c (more s).2 = some r) :
    ∃ d t, s.dropWhile isSpacing = d :: t ∧ d ∈ barren ∧ d ≠ '.' ∧ d ≠ '(' := by
  cases hs : comma s with
  | some t =>
    rw [comma_eq] at hs
    obtain ⟨u, hu, -⟩ := Option.map_eq_some_iff.1 hs
    exact ⟨',', u, signAfter_spacing_eq_some hu, by decide⟩
  | none =>
    rw [hf s] at h
    simp only [hs, Option.bind_none] at h
    exact exists_barren_of_closing hc h

end

theorem readsParts_items : ReadsParts expr moreItems items := fun s => by
  rw [items_eq]
  cases expr s <;> rfl

theorem readsParts_moreItems :
    ReadsParts (fun s => (comma s).bind expr) moreItems moreItems := fun s => by
  rw [moreItems_eq]
  dsimp only
  cases (comma s).bind expr <;> rfl

theorem readsParts_fields : ReadsParts field moreFields fields := fun s => by
  rw [fields_eq]
  cases field s <;> rfl

theorem readsParts_moreFields :
    ReadsParts (fun s => (comma s).bind field) moreFields moreFields := fun s => by
  rw [moreFields_eq]
  dsimp only
  cases (comma s).bind field <;> rfl

/-! ### Where a statement ends -/

theorem endsStatement_cons (c : Char) (s : List Char) :
    endsStatement (c :: s) =
      (c = '\n' || c = '\r' || c = ';' || c = '\x7d' || (c = '/' && s.head? = some '/')) := by
  have h : (Text.after? "//".toList (c :: s)).isSome =
      (decide (c = '/') && decide (s.head? = some '/')) := by
    by_cases hc : c = '/'
    · subst hc
      cases s with
      | nil => rfl
      | cons d s =>
        by_cases hd : d = '/'
        · subst hd
          rfl
        · simp [Text.after?, hd, Ne.symm hd]
    · rw [show Text.after? "//".toList (c :: s) = none from
        Text.after?_cons_of_ne (Ne.symm hc) ['/'] s]
      simp [hc]
  rw [endsStatement, h]

theorem endsStatement_of_spacing (h : (s.dropWhile isSpace).dropWhile isSpacing = '\x7d' :: r) :
    endsStatement (s.dropWhile isSpace) = true := by
  induction s with
  | nil => cases h
  | cons c s ih =>
    rw [List.dropWhile_cons] at h ⊢
    split
    · next hc =>
      rw [if_pos hc] at h
      exact ih h
    · next hc =>
      rw [if_neg hc, List.dropWhile_cons] at h
      split at h
      · next hs =>
        simp only [isSpace, isSpacing, Bool.or_eq_true, decide_eq_true_eq] at hc hs
        rcases hs with (hs | rfl) | rfl
        · exact absurd hs hc
        · rfl
        · rfl
      · rw [(List.cons.inj h).1]
        rfl

/-! ### Words that could have begun a statement -/

/-- What stands behind a word that is taken as an expression. -/
theorem after_word {w : String} {e : Expr} {u : List Char} (hw : w ≠ "box")
    (hn : name s = some (w, u)) (h : expr s = some (e, r))
    (hr : endsStatement (r.dropWhile isSpace) = true) :
    u.dropWhile isSpace = [] ∨ (∃ c t, u.dropWhile isSpace = c :: t ∧ c ∈ barren) ∨
      ∃ t, opening '(' (u.dropWhile isSpace) = some (')' :: t) := by
  have hp : primary s = some (wordExpr w, u) := by
    rw [primary_eq, lead_of_name hn, Option.bind_some, primaryAfter, if_neg hw]
  have hs : suffixes (wordExpr w) u = (e, r) := Option.some.inj ((expr_of_primary hp).symm.trans h)
  rw [suffixes_eq] at hs
  cases hu : suffix u with
  | none =>
    rw [hu] at hs
    cases hs
    cases hd : r.dropWhile isSpace with
    | nil => exact Or.inl rfl
    | cons c t =>
      rw [hd] at hr
      exact Or.inr (Or.inl ⟨c, t, rfl, barren_of_endsStatement hr⟩)
  | some p =>
    obtain ⟨t, rfl⟩ | ⟨t, ht⟩ := exists_of_suffix hu
    · exact Or.inr (Or.inl ⟨'.', t, rfl, by decide⟩)
    · obtain ⟨v, rfl, -⟩ := exists_of_opening ht
      exact Or.inr (Or.inr ⟨t, ht⟩)

/-- What stands behind the word of a statement that is taken as an expression. -/
theorem after_statementLead {l : StatementLead} {e : Expr} {u : List Char}
    (hl : statementLead s = some (l, u)) (h : expr s = some (e, r))
    (hr : endsStatement (r.dropWhile isSpace) = true) :
    u = [] ∨ (∃ c t, u = c :: t ∧ c ∈ barren) ∨ ∃ t, opening '(' u = some (')' :: t) := by
  have hword : ∀ {w v}, w ≠ "box" → word w s = some v →
      v = [] ∨ (∃ c t, v = c :: t ∧ c ∈ barren) ∨ ∃ t, opening '(' v = some (')' :: t) := by
    intro w v hw hv
    rw [word_eq] at hv
    obtain ⟨⟨n, t⟩, ht, heq⟩ := Option.bind_eq_some_iff.1 hv
    split at heq
    · next hnw =>
      cases heq
      subst hnw
      exact after_word hw ht h hr
    · cases heq
  rw [statementLead_eq] at hl
  rcases Option.or_eq_some_iff.1 hl with hl | ⟨-, hl⟩
  · -- a name stands behind the word of a binding
    obtain ⟨q, hq, -⟩ := Option.map_eq_some_iff.1 hl
    rw [binding_eq] at hq
    obtain ⟨v, hv, hq⟩ := Option.bind_eq_some_iff.1 hq
    obtain ⟨q', hname, -⟩ := Option.bind_eq_some_iff.1 hq
    obtain rfl | ⟨c, t, rfl, hc⟩ | ⟨t, ht⟩ := hword (by decide) hv
    · cases hname
    · rw [name_cons_of_not (isNameStart_of_mem_signs (class_of_mem_barren c hc).1)] at hname
      cases hname
    · obtain ⟨v', rfl, -⟩ := exists_of_opening ht
      rw [name_cons_of_not (isNameStart_of_mem_signs (by decide))] at hname
      cases hname
  · obtain ⟨v, hv, heq⟩ := Option.map_eq_some_iff.1 hl
    cases heq
    exact hword (by decide) hv

/-- No expression follows the word of a statement that was read as an expression. -/
theorem expr_eq_none_of_statementLead {l : StatementLead} {e : Expr}
    (hl : statementLead s = some (l, u)) (h : expr s = some (e, r))
    (hr : endsStatement (r.dropWhile isSpace) = true) : expr u = none := by
  obtain rfl | ⟨c, t, rfl, hc⟩ | ⟨t, ht⟩ := after_statementLead hl h hr
  · rw [expr_eq, primary_eq]
    rfl
  · exact expr_barren hc t
  · exact expr_emptyBrackets ht

end View

end Body

end SpecEngine
