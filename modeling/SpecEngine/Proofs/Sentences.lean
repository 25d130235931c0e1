import SpecEngine.Proofs.Parts

/-!
# Sentences of formulas

The grammar of formulas as a relation between formulas and texts, and the reader of formulas as
its recognizer: it reads the sentences of the grammar, spacing around them aside, each as its
formula, and nothing else.

* `Spells k f t`: the text `t` is a sentence for `f` at level `k`;
* `cases_of_atom`, `cases_of_conjuncts` and their like: each way in which a step of the readers
  takes something;
* `spells_of_conditional`: what is taken is a sentence of what is read;
* `Spells.readsOn`: a sentence is taken, whatever follows that does not go on with it;
* `readAll_eq_ok_iff`, `Spells.unique`: the two together.
-/

namespace SpecEngine

theorem Takes.length_lt {α : Type} {n : Nat} {x : Except Stop (Parsed α n)} {v : α}
    {r : List Char} (h : Takes x v r) : r.length < n := by
  obtain ⟨hr, -⟩ := h
  exact hr

namespace Formula

open Body (isSpacing isName isNameStart signs isNameStart_of_mem_signs NameEnds)
open Body.View (sign signAfter opening name string)
open View

/-- How tightly a numeral binds: a point behind an integer would be part of it. -/
def numeralLevel (n : Numeral) : Nat :=
  if n.fraction = none ∧ n.exponent = none then 5 else 6

/-- The sentences of the grammar, with the formulas that they are.  From the loosest level to the
tightest stand conditionals, what `||`, `&&` and an operator join, what a sign stands before, what
may have a key behind it, and what may have a property behind it. -/
inductive Spells : Nat → Formula → List Char → Prop
  | conditional {f g h : Formula} {t u v a b c d : List Char} :
    Spells 1 f t → Spells 0 g u → Spells 0 h v → Blank a → Blank b → Blank c → Blank d →
    Spells 0 (.conditional f g h) (t ++ (a ++ '?' :: (b ++ (u ++ (c ++ ':' :: (d ++ v))))))
  | or {f g : Formula} {t u a b : List Char} :
    Spells 1 f t → Spells 2 g u → Blank a → Blank b →
    Spells 1 (.or f g) (t ++ (a ++ ("||".toList ++ (b ++ u))))
  | and {f g : Formula} {t u a b : List Char} :
    Spells 2 f t → Spells 3 g u → Blank a → Blank b →
    Spells 2 (.and f g) (t ++ (a ++ ("&&".toList ++ (b ++ u))))
  | compare {o : Operator} {f g : Formula} {t u a b : List Char} :
    Spells 4 f t → Spells 4 g u → Blank a → Blank b →
    Spells 3 (.compare o f g) (t ++ (a ++ (o.text.toList ++ (b ++ u))))
  | not {f : Formula} {t a : List Char} :
    Spells 4 f t → Blank a → Spells 4 (.not f) ('!' :: (a ++ t))
  | typeOf {f : Formula} {t a : List Char} :
    Spells 4 f t → Blank a → NameEnds (a ++ t) → Spells 4 (.typeOf f) ("typeof".toList ++ (a ++ t))
  | property {f : Formula} {t : List Char} {n : String} :
    Spells 6 f t → isName n = true → Spells 6 (.property f n) (t ++ '.' :: n.toList)
  | index {f g : Formula} {t u a b : List Char} :
    Spells 5 f t → Spells 0 g u → Blank a → Blank b →
    Spells 6 (.index f g) (t ++ '[' :: (a ++ (u ++ (b ++ [']']))))
  | group {f : Formula} {t a b : List Char} :
    Spells 0 f t → Blank a → Blank b → Spells 6 f ('(' :: (a ++ (t ++ (b ++ [')']))))
  | word {f : Formula} {w : String} : f.word? = some w → Spells 6 f w.toList
  | string {q : Char} {x : String} :
    (q = '\'' ∨ q = '"') → q ∉ x.toList ∧ '\n' ∉ x.toList →
    Spells 6 (.literal (.string x)) (Body.quoted q x)
  | number {n : Numeral} :
    n.isFloat = true → Spells (numeralLevel n) (.literal (.number n)) n.text
  | looser {k : Nat} {f : Formula} {t : List Char} : Spells (k + 1) f t → Spells k f t

theorem Spells.mono {k l : Nat} {f : Formula} {t : List Char} (hkl : k ≤ l) (h : Spells l f t) :
    Spells k f t := by
  induction hkl with
  | refl => exact h
  | step _ ih => exact ih h.looser

theorem Spells.solid {k : Nat} {f : Formula} {t : List Char} (h : Spells k f t) : Solid t := by
  induction h with
  | conditional _ _ _ _ _ _ _ ih => exact ih.append _
  | or _ _ _ _ ih => exact ih.append _
  | and _ _ _ _ ih => exact ih.append _
  | compare _ _ _ _ ih => exact ih.append _
  | not => exact ⟨_, _, rfl, by decide, by decide⟩
  | typeOf => exact ⟨_, _, rfl, by decide, by decide⟩
  | property _ _ ih => exact ih.append _
  | index _ _ _ _ ih => exact ih.append _
  | group => exact ⟨_, _, rfl, by decide, by decide⟩
  | word hw =>
    obtain ⟨c, u, hc, hs, -⟩ := Body.exists_of_isName (word?_eq_some hw).2.1
    exact hc ▸ solid_of_class (by decide +kernel) hs u
  | string hq => rcases hq with rfl | rfl <;> exact ⟨_, _, rfl, by decide, by decide⟩
  | number hn =>
    obtain ⟨c, u, hc, hs⟩ := Body.View.exists_of_recognize (Numeral.takes_of_isFloat hn)
    exact hc ▸ solid_of_class (by decide) hs u
  | looser _ ih => exact ih

/-! ### The steps of the readers, inverted -/

section

variable {f g h : Formula} {s r t u v : List Char}

theorem exists_of_between {w : List Char} (h : between w s = some r) :
    ∃ a b, Blank a ∧ Blank b ∧ s = a ++ (w ++ (b ++ r)) := by
  rw [between_eq] at h
  obtain ⟨t, ht, rfl⟩ := Option.map_eq_some_iff.1 h
  refine ⟨s.takeWhile isSpacing, t.takeWhile isSpacing, fun _ hd => List.mem_takeWhile_imp hd,
    fun _ hd => List.mem_takeWhile_imp hd, ?_⟩
  rw [List.takeWhile_append_dropWhile, ← Text.eq_append_of_after? ht,
    List.takeWhile_append_dropWhile]

theorem exists_of_operator {o : Operator} (h : operator s = some (o, r)) :
    ∃ a b, Blank a ∧ Blank b ∧ s = a ++ (o.text.toList ++ (b ++ r)) := by
  rw [operator_eq] at h
  obtain ⟨o', -, ho⟩ := List.exists_of_findSome?_eq_some h
  obtain ⟨t, ht, heq⟩ := Option.map_eq_some_iff.1 ho
  cases heq
  exact exists_of_between ht

theorem cases_of_unarySign {x : Sign} (h : unarySign s = some (x, r)) :
    (x = .not ∧ ∃ a, Blank a ∧ s = '!' :: (a ++ r)) ∨
      x = .typeOf ∧ ∃ a, Blank a ∧ NameEnds (a ++ r) ∧ s = "typeof".toList ++ (a ++ r) := by
  rw [unarySign_eq] at h
  split at h
  · next t ht =>
    cases h
    obtain ⟨a, ha, hs, -⟩ := Body.View.spacing_of_opening ht
    exact Or.inl ⟨rfl, a, ha, hs⟩
  · obtain ⟨⟨w, t⟩, hn, hw⟩ := Option.bind_eq_some_iff.1 h
    split at hw
    · next heq =>
      dsimp only at heq
      cases hw
      obtain ⟨-, hs, he⟩ := Body.View.eq_append_of_name hn
      refine Or.inr ⟨rfl, t.takeWhile isSpacing, fun _ hd => List.mem_takeWhile_imp hd, ?_, ?_⟩
      · rwa [List.takeWhile_append_dropWhile]
      · rw [List.takeWhile_append_dropWhile, hs, heq]
    · cases hw

theorem takes_of_map_widen {m n : Nat} {x : Except Stop (Parsed Formula m)} {hmn : m ≤ n}
    (h : Takes (x.map (·.widen hmn)) f r) : Takes x f r := by
  obtain ⟨hr, h⟩ := h
  cases x with
  | error e => cases h
  | ok p =>
    cases h
    exact ⟨p.shorter, rfl⟩

/-- What begins an atom is a bracket, a text, a word or a number. -/
theorem cases_of_head {x : Head} (h : Takes (readHead s) x r) :
    (opening '(' s = some r ∧ x = .group) ∨
    (∃ y, string s = some (y, r) ∧ x = .whole (.literal (.string y))) ∨
    (∃ w f, name s = some (w, r) ∧ ofWord? w = some f ∧ x = .whole f) ∨
    ∃ n, Takes (Numeral.recognize s) n r ∧ x = .whole (.literal (.number n)) := by
  obtain ⟨hr, h⟩ := h
  rw [readHead] at h
  split at h
  · next p hp =>
    cases h
    exact Or.inl ⟨congrArg (Option.map Parsed.rest) hp, rfl⟩
  · split at h
    · next p hp =>
      cases h
      exact Or.inr (Or.inl ⟨p.value, congrArg (Option.map Parsed.pair) hp, rfl⟩)
    · split at h
      · next p hp =>
        split at h
        · next f hf =>
          cases h
          exact Or.inr (Or.inr (Or.inl
            ⟨p.value, f, congrArg (Option.map Parsed.pair) hp, hf, rfl⟩))
        · cases h
      · split at h
        · next p hp =>
          cases h
          exact Or.inr (Or.inr (Or.inr ⟨p.value, ⟨p.shorter, hp⟩, rfl⟩))
        · cases h

/-- An atom is read as a whole, or up to the bracket behind a formula. -/
theorem cases_of_atom (h : Takes (readAtom s) f r) :
    Takes (readHead s) (.whole f) r ∨
    ∃ t u, opening '(' s = some t ∧ Takes (readConditional t) f u ∧
      signAfter isSpacing ')' u = some r := by
  obtain ⟨hr, h⟩ := h
  rw [readAtom] at h
  split at h
  · cases h
  · next hh =>
    cases h
    exact Or.inl ⟨_, hh⟩
  · next t ht hh =>
    right
    have ho : opening '(' s = some t := by
      rcases cases_of_head ⟨ht, hh⟩ with ⟨ho, -⟩ | ⟨_, -, hx⟩ | ⟨_, _, -, -, hx⟩ | ⟨_, -, hx⟩
      · exact ho
      all_goals cases hx
    split at h
    · cases h
    · next g u hu hg =>
      split at h
      · cases h
      · next hc =>
        cases h
        exact ⟨t, u, ho, ⟨hu, hg⟩, congrArg (Option.map Parsed.rest) hc⟩

theorem cases_of_accesses (h : Takes (readAccesses f s) g r) :
    (g = f ∧ r = s) ∨
    (∃ t n u, sign '.' s = some t ∧ name t = some (n, u) ∧
      Takes (readAccesses (.property f n) u) g r) ∨
    ∃ t key u v, opening '[' s = some t ∧ Takes (readConditional t) key u ∧
      signAfter isSpacing ']' u = some v ∧ Takes (readAccesses (.index f key) v) g r := by
  obtain ⟨hr, h⟩ := h
  rw [readAccesses] at h
  split at h
  · next t ht hp =>
    split at h
    · cases h
      exact Or.inl ⟨rfl, rfl⟩
    · next n u hu hn =>
      exact Or.inr (Or.inl ⟨t, n, u, congrArg (Option.map Parsed.rest) hp,
        congrArg (Option.map Parsed.pair) hn, takes_of_map_widen ⟨hr, h⟩⟩)
  · split at h
    · cases h
      exact Or.inl ⟨rfl, rfl⟩
    · next t ht ho =>
      split at h
      · split at h
        · cases h
        · cases h
          exact Or.inl ⟨rfl, rfl⟩
      · next key u hu hk =>
        split at h
        · cases h
          exact Or.inl ⟨rfl, rfl⟩
        · next v hv hc =>
          exact Or.inr (Or.inr ⟨t, key, u, v, congrArg (Option.map Parsed.rest) ho, ⟨hu, hk⟩,
            congrArg (Option.map Parsed.rest) hc, takes_of_map_widen ⟨hr, h⟩⟩)

theorem cases_of_unary (h : Takes (readUnary s) f r) :
    (∃ x t g, unarySign s = some (x, t) ∧ Takes (readUnary t) g r ∧ f = x.apply g) ∨
    ∃ g t, Takes (readAtom s) g t ∧ Takes (readAccesses g t) f r := by
  obtain ⟨hr, h⟩ := h
  rw [readUnary] at h
  split at h
  · right
    rw [readPostfix] at h
    split at h
    · cases h
    · next g t ht ha => exact ⟨g, t, ⟨ht, ha⟩, takes_of_map_widen ⟨hr, h⟩⟩
  · next x t ht hs =>
    left
    split at h
    · cases h
    · next p hp =>
      cases h
      exact ⟨x, t, p.value, congrArg (Option.map Parsed.pair) hs, ⟨p.shorter, hp⟩, rfl⟩

theorem cases_of_comparison (h : Takes (readComparison s) f r) :
    Takes (readUnary s) f r ∨
    ∃ g t o u k, Takes (readUnary s) g t ∧ operator t = some (o, u) ∧ Takes (readUnary u) k r ∧
      f = .compare o g k := by
  obtain ⟨hr, h⟩ := h
  rw [readComparison] at h
  split at h
  · cases h
  · next g t ht hg =>
    split at h
    · cases h
      exact Or.inl ⟨ht, hg⟩
    · next o u hu ho =>
      split at h
      · split at h
        · cases h
        · cases h
          exact Or.inl ⟨ht, hg⟩
      · next p hp =>
        cases h
        exact Or.inr ⟨g, t, o, u, p.value, ⟨ht, hg⟩, congrArg (Option.map Parsed.pair) ho,
          ⟨p.shorter, hp⟩, rfl⟩

theorem cases_of_conjuncts (h : Takes (readConjuncts f s) g r) :
    (g = f ∧ r = s) ∨
    ∃ t k u, between "&&".toList s = some t ∧ Takes (readComparison t) k u ∧
      Takes (readConjuncts (.and f k) u) g r := by
  obtain ⟨hr, h⟩ := h
  rw [readConjuncts] at h
  split at h
  · cases h
    exact Or.inl ⟨rfl, rfl⟩
  · next t ht hb =>
    split at h
    · split at h
      · cases h
      · cases h
        exact Or.inl ⟨rfl, rfl⟩
    · next k u hu hk =>
      exact Or.inr ⟨t, k, u, congrArg (Option.map Parsed.rest) hb, ⟨hu, hk⟩,
        takes_of_map_widen ⟨hr, h⟩⟩

theorem exists_of_and (h : Takes (readAnd s) g r) :
    ∃ f t, Takes (readComparison s) f t ∧ Takes (readConjuncts f t) g r := by
  obtain ⟨hr, h⟩ := h
  rw [readAnd] at h
  split at h
  · cases h
  · next f t ht hf => exact ⟨f, t, ⟨ht, hf⟩, takes_of_map_widen ⟨hr, h⟩⟩

theorem cases_of_disjuncts (h : Takes (readDisjuncts f s) g r) :
    (g = f ∧ r = s) ∨
    ∃ t k u, between "||".toList s = some t ∧ Takes (readAnd t) k u ∧
      Takes (readDisjuncts (.or f k) u) g r := by
  obtain ⟨hr, h⟩ := h
  rw [readDisjuncts] at h
  split at h
  · cases h
    exact Or.inl ⟨rfl, rfl⟩
  · next t ht hb =>
    split at h
    · split at h
      · cases h
      · cases h
        exact Or.inl ⟨rfl, rfl⟩
    · next k u hu hk =>
      exact Or.inr ⟨t, k, u, congrArg (Option.map Parsed.rest) hb, ⟨hu, hk⟩,
        takes_of_map_widen ⟨hr, h⟩⟩

theorem exists_of_or (h : Takes (readOr s) g r) :
    ∃ f t, Takes (readAnd s) f t ∧ Takes (readDisjuncts f t) g r := by
  obtain ⟨hr, h⟩ := h
  rw [readOr] at h
  split at h
  · cases h
  · next f t ht hf => exact ⟨f, t, ⟨ht, hf⟩, takes_of_map_widen ⟨hr, h⟩⟩

theorem cases_of_conditional (h : Takes (readConditional s) f r) :
    Takes (readOr s) f r ∨
    ∃ g t u yes v w no, Takes (readOr s) g t ∧ between ['?'] t = some u ∧
      Takes (readConditional u) yes v ∧ between [':'] v = some w ∧
      Takes (readConditional w) no r ∧ f = .conditional g yes no := by
  obtain ⟨hr, h⟩ := h
  rw [readConditional] at h
  split at h
  · cases h
  · next g t ht hg =>
    split at h
    · split at h
      · cases h
      · cases h
        exact Or.inl ⟨ht, hg⟩
    · next p hp =>
      cases h
      rw [readBranches] at hp
      split at hp
      · cases hp
      · next u hu hq =>
        split at hp
        · cases hp
        · next yes v hv hy =>
          split at hp
          · cases hp
          · next w hw hc =>
            split at hp
            · cases hp
            · next q hq' =>
              cases hp
              exact Or.inr ⟨g, t, u, yes, v, w, q.value, ⟨ht, hg⟩,
                congrArg (Option.map Parsed.rest) hq, ⟨hv, hy⟩,
                congrArg (Option.map Parsed.rest) hc, ⟨q.shorter, hq'⟩, rfl⟩

end

/-! ### What is taken is a sentence -/

theorem word?_of_ofWord? {w : String} {f : Formula} (h : ofWord? w = some f) :
    f.word? = some w := by
  unfold ofWord? at h
  split_ifs at h with h₁ h₂ h₃ h₄ h₅ h₆
  · cases h
    rw [h₁]
    rfl
  · cases h
    rw [h₂]
    rfl
  · cases h
    rw [h₃]
    rfl
  · cases h
    rw [h₄]
    rfl
  · cases h
    rw [h₅]
    rfl
  · cases h
    rw [h₆]
    rfl
  · obtain ⟨t, ht, rfl⟩ := Option.map_eq_some_iff.1 h
    have hw : t.text = w := by simpa [TypeName.ofText?] using List.find?_some ht
    rw [← hw]
    rfl

/-- In front of a point, the numerals that have been taken have a point or an exponent. -/
theorem spells_of_head {s r : List Char} {f : Formula} (h : Takes (readHead s) (.whole f) r) :
    ∃ t, s = t ++ r ∧ Spells 5 f t ∧ (sign '.' r ≠ none → Spells 6 f t) := by
  rcases cases_of_head h with ⟨-, ⟨⟩⟩ | ⟨x, hx, ⟨⟩⟩ | ⟨w, g, hn, hw, ⟨⟩⟩ | ⟨n, hn, ⟨⟩⟩
  · obtain ⟨q, hq, ht, hs⟩ := Body.View.exists_quoted_of_string hx
    have h6 : Spells 6 (.literal (.string x)) _ := .string hq ht
    exact ⟨_, hs, h6.looser, fun _ => h6⟩
  · obtain ⟨-, hs, -⟩ := Body.View.eq_append_of_name hn
    have h6 : Spells 6 f _ := .word (word?_of_ofWord? hw)
    exact ⟨_, hs, h6.looser, fun _ => h6⟩
  · obtain ⟨hfloat, hs, hp⟩ := Body.View.isFloatText_of_recognize hn
    have hl := Spells.number (Numeral.isFloat_iff.2 hfloat)
    unfold numeralLevel at hl
    refine ⟨_, hs, ?_, fun hr => ?_⟩
    · split at hl
      · exact hl
      · exact hl.looser
    · rwa [if_neg fun hn => hr (hp hn.1 hn.2)] at hl

theorem nameEnds_of_append {t r : List Char} (ht : t ≠ []) (h : NameEnds (t ++ r)) :
    NameEnds t := by
  intro c hc
  refine h c ?_
  rw [List.head?_append_of_ne_nil _ ht]
  exact hc

mutual

theorem spells_of_atom {s r : List Char} {f : Formula} (h : Takes (readAtom s) f r) :
    ∃ t, s = t ++ r ∧ Spells 5 f t ∧ (sign '.' r ≠ none → Spells 6 f t) := by
  rcases cases_of_atom h with hh | ⟨t, u, ho, hf, hc⟩
  · exact spells_of_head hh
  · have ht : t.length < s.length := Parsed.length_lt_of_map_rest ho
    obtain ⟨a, ha, rfl, -⟩ := Body.View.spacing_of_opening ho
    obtain ⟨v, rfl, hv⟩ := spells_of_conditional hf
    obtain ⟨b, hb, rfl⟩ := Body.View.exists_of_signAfter hc
    have h6 : Spells 6 f _ := .group hv ha hb
    exact ⟨_, by simp, h6.looser, fun _ => h6⟩
termination_by 7 * s.length

theorem spells_of_accesses {s r : List Char} {f g : Formula} (h : Takes (readAccesses f s) g r) :
    ∃ t, s = t ++ r ∧ ∀ t₀, Spells 5 f t₀ → (sign '.' s ≠ none → Spells 6 f t₀) →
      Spells 5 g (t₀ ++ t) := by
  rcases cases_of_accesses h with ⟨rfl, rfl⟩ | ⟨t, n, u, hp, hn, hg⟩ |
    ⟨t, key, u, v, ho, hk, hc, hg⟩
  · exact ⟨[], rfl, fun t₀ h5 _ => by rwa [List.append_nil]⟩
  · have ht : t.length < s.length := Parsed.length_lt_of_map_rest hp
    have hu : u.length < t.length := Parsed.length_lt_of_map_pair hn
    obtain ⟨w, rfl, hw⟩ := spells_of_accesses hg
    obtain rfl := Body.View.sign_eq_some_iff.1 hp
    obtain ⟨hname, rfl, -⟩ := Body.View.eq_append_of_name hn
    refine ⟨'.' :: (n.toList ++ w), by simp, fun t₀ _ h6 => ?_⟩
    have hacc : Spells 6 (.property f n) (t₀ ++ '.' :: n.toList) :=
      .property (h6 (by rw [hp]; exact nofun)) hname
    simpa using hw _ hacc.looser fun _ => hacc
  · have ht : t.length < s.length := Parsed.length_lt_of_map_rest ho
    have hu : u.length < t.length := hk.length_lt
    have hv : v.length < u.length := Parsed.length_lt_of_map_rest hc
    obtain ⟨w, rfl, hw⟩ := spells_of_accesses hg
    obtain ⟨x, rfl, hx⟩ := spells_of_conditional hk
    obtain ⟨a, ha, rfl, -⟩ := Body.View.spacing_of_opening ho
    obtain ⟨b, hb, rfl⟩ := Body.View.exists_of_signAfter hc
    refine ⟨'[' :: (a ++ (x ++ (b ++ ']' :: w))), by simp, fun t₀ h5 _ => ?_⟩
    have hacc : Spells 6 (.index f key) _ := .index h5 hx ha hb
    simpa using hw _ hacc.looser fun _ => hacc
termination_by 7 * s.length

theorem spells_of_unary {s r : List Char} {f : Formula} (h : Takes (readUnary s) f r) :
    ∃ t, s = t ++ r ∧ Spells 4 f t := by
  rcases cases_of_unary h with ⟨x, t, g, hx, hg, rfl⟩ | ⟨g, t, ha, hg⟩
  · have ht : t.length < s.length := Parsed.length_lt_of_map_pair hx
    obtain ⟨u, rfl, hu⟩ := spells_of_unary hg
    rcases cases_of_unarySign hx with ⟨rfl, a, ha, rfl⟩ | ⟨rfl, a, ha, he, rfl⟩
    · exact ⟨_, by simp, .not hu ha⟩
    · rw [← List.append_assoc] at he
      have hne : a ++ u ≠ [] := by
        obtain ⟨c, w, rfl, -⟩ := hu.solid
        simp
      exact ⟨_, by simp, .typeOf hu ha (nameEnds_of_append hne he)⟩
  · have ht : t.length < s.length := ha.length_lt
    obtain ⟨u, rfl, h5, h6⟩ := spells_of_atom ha
    obtain ⟨v, rfl, hv⟩ := spells_of_accesses hg
    exact ⟨u ++ v, by simp, (hv u h5 h6).looser⟩
termination_by 7 * s.length + 2

theorem spells_of_comparison {s r : List Char} {f : Formula} (h : Takes (readComparison s) f r) :
    ∃ t, s = t ++ r ∧ Spells 3 f t := by
  rcases cases_of_comparison h with hf | ⟨g, t, o, u, k, hg, ho, hk, rfl⟩
  · obtain ⟨t, hs, ht⟩ := spells_of_unary hf
    exact ⟨t, hs, ht.looser⟩
  · have ht : t.length < s.length := hg.length_lt
    have hu : u.length < t.length + 1 := Parsed.length_lt_of_map_pair ho
    obtain ⟨v, rfl, hv⟩ := spells_of_unary hg
    obtain ⟨w, rfl, hw⟩ := spells_of_unary hk
    obtain ⟨a, b, ha, hb, rfl⟩ := exists_of_operator ho
    exact ⟨_, by simp, .compare hv hw ha hb⟩
termination_by 7 * s.length + 3

/-- What is taken behind a conjunction goes on with it. -/
theorem spells_of_conjuncts {s r : List Char} {f g : Formula}
    (h : Takes (readConjuncts f s) g r) :
    ∃ t, s = t ++ r ∧ ∀ t₀, Spells 2 f t₀ → Spells 2 g (t₀ ++ t) := by
  rcases cases_of_conjuncts h with ⟨rfl, rfl⟩ | ⟨t, k, u, hb, hk, hg⟩
  · exact ⟨[], rfl, fun t₀ h₀ => by rwa [List.append_nil]⟩
  · have ht : t.length < s.length + 1 := Parsed.length_lt_of_map_rest hb
    have hu : u.length < t.length := hk.length_lt
    obtain ⟨v, rfl, hv⟩ := spells_of_comparison hk
    obtain ⟨w, rfl, hw⟩ := spells_of_conjuncts hg
    obtain ⟨a, b, ha, hb', rfl⟩ := exists_of_between hb
    refine ⟨a ++ ("&&".toList ++ (b ++ (v ++ w))), by simp, fun t₀ h₀ => ?_⟩
    simpa using hw _ (.and h₀ hv ha hb')
termination_by 7 * s.length + 4

theorem spells_of_and {s r : List Char} {g : Formula} (h : Takes (readAnd s) g r) :
    ∃ t, s = t ++ r ∧ Spells 2 g t := by
  obtain ⟨f, t, hf, hg⟩ := exists_of_and h
  have ht : t.length < s.length := hf.length_lt
  obtain ⟨u, rfl, hu⟩ := spells_of_comparison hf
  obtain ⟨v, rfl, hv⟩ := spells_of_conjuncts hg
  exact ⟨u ++ v, by simp, hv u hu.looser⟩
termination_by 7 * s.length + 4

/-- What is taken behind a disjunction goes on with it. -/
theorem spells_of_disjuncts {s r : List Char} {f g : Formula}
    (h : Takes (readDisjuncts f s) g r) :
    ∃ t, s = t ++ r ∧ ∀ t₀, Spells 1 f t₀ → Spells 1 g (t₀ ++ t) := by
  rcases cases_of_disjuncts h with ⟨rfl, rfl⟩ | ⟨t, k, u, hb, hk, hg⟩
  · exact ⟨[], rfl, fun t₀ h₀ => by rwa [List.append_nil]⟩
  · have ht : t.length < s.length + 1 := Parsed.length_lt_of_map_rest hb
    have hu : u.length < t.length := hk.length_lt
    obtain ⟨v, rfl, hv⟩ := spells_of_and hk
    obtain ⟨w, rfl, hw⟩ := spells_of_disjuncts hg
    obtain ⟨a, b, ha, hb', rfl⟩ := exists_of_between hb
    refine ⟨a ++ ("||".toList ++ (b ++ (v ++ w))), by simp, fun t₀ h₀ => ?_⟩
    simpa using hw _ (.or h₀ hv ha hb')
termination_by 7 * s.length + 5

theorem spells_of_or {s r : List Char} {g : Formula} (h : Takes (readOr s) g r) :
    ∃ t, s = t ++ r ∧ Spells 1 g t := by
  obtain ⟨f, t, hf, hg⟩ := exists_of_or h
  have ht : t.length < s.length := hf.length_lt
  obtain ⟨u, rfl, hu⟩ := spells_of_and hf
  obtain ⟨v, rfl, hv⟩ := spells_of_disjuncts hg
  exact ⟨u ++ v, by simp, hv u hu.looser⟩
termination_by 7 * s.length + 5

/-- **What is taken is a sentence** for the formula that is read. -/
theorem spells_of_conditional {s r : List Char} {f : Formula}
    (h : Takes (readConditional s) f r) : ∃ t, s = t ++ r ∧ Spells 0 f t := by
  rcases cases_of_conditional h with hf | ⟨g, t, u, yes, v, w, no, hg, hq, hy, hc, hn, rfl⟩
  · obtain ⟨t, hs, ht⟩ := spells_of_or hf
    exact ⟨t, hs, ht.looser⟩
  · have ht : t.length < s.length := hg.length_lt
    have hu : u.length < t.length + 1 := Parsed.length_lt_of_map_rest hq
    have hv : v.length < u.length := hy.length_lt
    have hw : w.length < v.length + 1 := Parsed.length_lt_of_map_rest hc
    obtain ⟨x, rfl, hx⟩ := spells_of_or hg
    obtain ⟨y, rfl, hyes⟩ := spells_of_conditional hy
    obtain ⟨z, rfl, hno⟩ := spells_of_conditional hn
    obtain ⟨a, b, ha, hb, rfl⟩ := exists_of_between hq
    obtain ⟨c, d, hc', hd, rfl⟩ := exists_of_between hc
    exact ⟨_, by simp, .conditional hx hyes hno ha hb hc' hd⟩
termination_by 7 * s.length + 6

end

/-! ### Sentences are taken -/

/-- Reading at a level of sentences gets over `t` with `f` and goes on behind it. -/
def ReadsOn : Nat → Formula → List Char → Prop
  | 5, f, t => ContinuesPointless f t
  | 6, f, t => Continues 5 f t
  | k, f, t => Continues k f t

theorem ReadsOn.looser {f : Formula} {t : List Char} :
    ∀ {k : Nat}, ReadsOn (k + 1) f t → ReadsOn k f t
  | 0, h | 1, h | 2, h | 3, h => Continues.step h
  | 4, h => ContinuesPointless.continues h
  | 5, h => Continues.pointless h
  | 6, h => fun _ _ _ hs hg => h (hs.mono (by decide)) hg
  | _ + 7, h => Continues.step h

/-- A numeral that has a point or an exponent is over in front of a point. -/
theorem continues_decimal {n : Numeral} (hn : n.isFloat = true)
    (h : ¬ (n.fraction = none ∧ n.exponent = none)) :
    Continues 5 (.literal (.number n)) n.text := by
  intro s r g hs hg
  have hrec : Takes (Numeral.recognize (n.text ++ s)) n s :=
    (Numeral.isFloat_iff.1 hn).recognize hs.name fun hf he => absurd ⟨hf, he⟩ h
  exact takes_unary_number hn hrec hg

theorem readsOn_number {n : Numeral} (hn : n.isFloat = true) :
    ReadsOn (numeralLevel n) (.literal (.number n)) n.text := by
  unfold numeralLevel
  split
  · exact continues_number hn
  · next h => exact continues_decimal hn h

/-- **A sentence is taken**, whatever follows that does not go on with it. -/
theorem Spells.readsOn {k : Nat} {f : Formula} {t : List Char} (h : Spells k f t) :
    ReadsOn k f t := by
  induction h with
  | conditional _ hu hv ha hb hc hd ih ihu ihv =>
    exact continues_conditional ih ihu ihv hu.solid hv.solid ha hb hc hd
  | or _ hu ha hb ih ihu => exact continues_or ih ihu hu.solid ha hb
  | and _ hu ha hb ih ihu => exact continues_and ih ihu hu.solid ha hb
  | compare _ hu ha hb ih ihu => exact continues_compare ih ihu hu.solid ha hb
  | not ht ha ih => exact continues_not ih ht.solid ha
  | @typeOf f t a ht ha he ih =>
    refine continues_typeOf ih ht.solid ha fun s => ?_
    -- the sign is over where its formula begins
    obtain ⟨c, u, hc, -⟩ := ht.solid
    intro d hd
    refine he d ?_
    rwa [List.head?_append_of_ne_nil _ (by simp [hc])] at hd
  | property _ hn ih => exact continues_property ih hn
  | index _ hu ha hb ih ihu => exact continues_index ih ihu hu.solid ha hb
  | group ht ha hb ih => exact continues_group (k := 0) ih ht.solid ha hb
  | word hw => exact continues_word hw
  | string hq hx => exact continues_string hq hx
  | number hn => exact readsOn_number hn
  | looser _ ih => exact ih.looser

/-! ### The reader of formulas -/

/-- **The sentences of formulas are what is read**, with any spacing around them. -/
theorem readAll_eq_ok_iff {s : List Char} {f : Formula} :
    readAll s = .ok f ↔
      ∃ a t b, Blank a ∧ Blank b ∧ s = a ++ (t ++ b) ∧ Spells 0 f t := by
  constructor
  · intro h
    rw [readAll] at h
    split at h
    · cases h
    · next g r hr hg =>
      split at h
      · next hd =>
        cases h
        obtain ⟨t, hs, ht⟩ := spells_of_conditional ⟨hr, hg⟩
        refine ⟨s.takeWhile isSpacing, t, r, fun _ hc => List.mem_takeWhile_imp hc,
          List.dropWhile_eq_nil_iff.1 hd, ?_, ht⟩
        rw [← hs, List.takeWhile_append_dropWhile]
      · cases h
  · rintro ⟨a, t, b, ha, hb, rfl, ht⟩
    have hd : (a ++ (t ++ b)).dropWhile isSpacing = t ++ b :=
      (ht.solid.append b).dropWhile_eq ha
    have hb' : b.dropWhile isSpacing = [] := List.dropWhile_eq_nil_iff.2 hb
    have hends : Ends 0 b := by
      refine ⟨?_, ?_, ?_⟩
      · intro c hc
        exact Body.isNameChar_of_mem_signs (class_of_isSpacing (hb c (List.mem_of_mem_head? hc))).1
      · intro _ c hc
        exact (class_of_isSpacing (hb c (List.mem_of_mem_head? hc))).2
      · rw [hb']
        rintro _ ⟨⟩
    have hread : Takes (readConditional ((a ++ (t ++ b)).dropWhile isSpacing)) f b := by
      rw [hd]
      exact Continues.takes_conditional ht.readsOn hends
    obtain ⟨_, hread⟩ := hread
    rw [readAll, hread]
    dsimp only
    rw [hb']

/-- No text is a sentence for two formulas. -/
theorem Spells.unique {f g : Formula} {t : List Char} (hf : Spells 0 f t) (hg : Spells 0 g t) :
    f = g := by
  have hread : ∀ {h}, Spells 0 h t → readAll t = .ok h := fun h =>
    readAll_eq_ok_iff.2 ⟨[], t, [], blank_nil, blank_nil, by simp, h⟩
  exact Except.ok.inj ((hread hf).symm.trans (hread hg))

end Formula

end SpecEngine
