import SpecEngine.Proofs.Endings
import SpecEngine.Proofs.Parts

/-!
# Expressions cut off from what follows

A reader may look far beyond what it takes: into a text that is never closed, or into an assertion
that comes to nothing.  What it takes does not depend on that.  Cut off behind what was read, a text
is read as it was, also in front of any other text that does not go on with it.

* `Cut`: what stands in front of a text gives the same in front of all texts of a kind;
* `cut_opening`, `cut_lead`, `cut_suffix`, `cut_separators` and their like: parts that contain no
  expression;
* `ReadsParts.cut`: parts up to a closing bracket;
* `cut_expr`, `cut_statements`: expressions and statements, by the recursion of their readers.
-/

namespace SpecEngine

namespace Body

namespace View

variable {s r u : List Char}

/-! ### Cuts -/

section

variable {β : Type}

/-- The text goes up to `r`, and what stands before `r` gives `g` in front of every text of a
kind. -/
def Cut (C : List Char → Prop) (f g : List Char → β) (s r : List Char) : Prop :=
  ∃ p, s = p ++ r ∧ ∀ y, C y → f (p ++ y) = g y

theorem Cut.suffix {C : List Char → Prop} {f g : List Char → β} (h : Cut C f g s r) : r <:+ s := by
  obtain ⟨p, hp, -⟩ := h
  exact ⟨p, hp.symm⟩

/-- A text that begins with the same character, or is empty as well. -/
def StartsLike (r y : List Char) : Prop :=
  y.head? = r.head?

theorem startsLike_cons (p : List Char) (c : Char) (r y : List Char) :
    StartsLike (p ++ c :: r) (p ++ c :: y) := by
  cases p <;> rfl

theorem startsLike_append {p : List Char} (h : r.length < (p ++ r).length) (y : List Char) :
    StartsLike (p ++ r) (p ++ y) := by
  cases p with
  | nil => exact absurd h (Nat.lt_irrefl _)
  | cons c p => rfl

theorem StartsLike.append {y : List Char} (h : StartsLike r y) (p : List Char) :
    StartsLike (p ++ r) (p ++ y) := by
  cases p with
  | nil => exact h
  | cons c p => rfl

theorem StartsLike.nameEnds {y : List Char} (h : StartsLike r y) (hr : NameEnds r) :
    NameEnds y := by
  intro c hc
  exact hr c (h ▸ hc)

/-- What is left out at the front of a text depends on its first character. -/
theorem StartsLike.dropWhile_eq {q : Char → Bool} {y : List Char} (h : StartsLike r y)
    (hr : r.dropWhile q = r) : y.dropWhile q = y := by
  cases y with
  | nil => rfl
  | cons c y =>
    obtain ⟨t, rfl⟩ := List.head?_eq_some_iff.1 h.symm
    rw [List.dropWhile_eq_self_iff] at hr ⊢
    exact fun _ => hr (Nat.zero_lt_succ _)

theorem StartsLike.dropWhile_append {q : Char → Bool} {y a : List Char} (h : StartsLike r y)
    (hr : r.dropWhile q = r) (ha : ∀ c ∈ a, q c = true) : (a ++ y).dropWhile q = y := by
  rw [List.dropWhile_append_of_pos ha, h.dropWhile_eq hr]

/-- What is left out in front of a text is left out in front of the ones that begin alike. -/
theorem exists_dropWhile (q : Char → Bool) (s : List Char) :
    ∃ a, (∀ c ∈ a, q c = true) ∧ s = a ++ s.dropWhile q ∧
      ∀ y, StartsLike (s.dropWhile q) y → (a ++ y).dropWhile q = y :=
  ⟨s.takeWhile q, fun _ => List.mem_takeWhile_imp, List.takeWhile_append_dropWhile.symm,
    fun _ hy => hy.dropWhile_append (List.dropWhile_idempotent q s) fun _ =>
      List.mem_takeWhile_imp⟩

end

/-! ### Signs and names -/

theorem signAfter_append {q : Char → Bool} {c : Char} (hc : q c = false) {a : List Char}
    (ha : ∀ d ∈ a, q d = true) (y : List Char) : signAfter q c (a ++ c :: y) = some y := by
  rw [signAfter_eq, List.dropWhile_append_of_pos ha, List.dropWhile_cons_of_neg (by simp [hc]),
    sign_cons, if_pos rfl]

theorem cut_signAfter {q : Char → Bool} {c : Char} (hc : q c = false)
    (h : signAfter q c s = some r) : Cut (fun _ => True) (signAfter q c) some s r := by
  obtain ⟨a, ha, rfl⟩ := exists_of_signAfter h
  refine ⟨a ++ [c], by simp, fun y _ => ?_⟩
  rw [List.append_assoc]
  exact signAfter_append hc ha y

theorem cut_opening {c : Char} (h : opening c s = some r) :
    Cut (StartsLike r) (opening c) some s r := by
  obtain ⟨a, ha, rfl, hr⟩ := spacing_of_opening h
  refine ⟨c :: a, rfl, fun y hy => ?_⟩
  rw [List.cons_append, opening_cons, hy.dropWhile_append hr ha]

theorem cut_arrow (h : arrow s = some r) : Cut (fun _ => True) arrow some s r := by
  rw [arrow_eq] at h
  obtain ⟨t, ht, hb⟩ := Option.bind_eq_some_iff.1 h
  obtain ⟨a, rfl, ha⟩ := cut_signAfter (by decide) hb
  refine ⟨"->".toList ++ a, ?_, fun y hy => ?_⟩
  · rw [Text.eq_append_of_after? ht, List.append_assoc]
  · rw [arrow_eq, List.append_assoc, Text.after?_append, Option.bind_some, ha y hy]

/-- Behind a comma all spacing is taken. -/
theorem cut_comma (h : comma s = some r) : Cut (StartsLike r) comma some s r := by
  rw [comma_eq] at h
  obtain ⟨t, ht, rfl⟩ := Option.map_eq_some_iff.1 h
  obtain ⟨b, -, hb, hdrop⟩ := exists_dropWhile isSpacing t
  obtain ⟨a, rfl, ha⟩ := cut_signAfter (by decide) ht
  refine ⟨a ++ b, ?_, fun y hy => ?_⟩
  · rw [List.append_assoc, ← hb]
  · rw [comma_eq, List.append_assoc, ha _ trivial, Option.map_some, hdrop y hy]

/-- A closing bracket is found again behind spacing, and perhaps a comma. -/
theorem cut_closing {c : Char} (hc : IsBracket c) (h : closing c s = some r) :
    Cut (fun _ => True) (closing c) some s r := by
  obtain ⟨hs, hne⟩ : isSpacing c = false ∧ c ≠ ',' := by
    rcases hc with rfl | rfl <;> decide
  rw [closing_eq] at h
  cases hcomma : signAfter isSpacing ',' s with
  | none =>
    rw [hcomma] at h
    obtain ⟨a, ha, rfl⟩ := exists_of_signAfter h
    refine ⟨a ++ [c], by simp, fun y _ => ?_⟩
    have hn : signAfter isSpacing ',' (a ++ c :: y) = none := by
      rw [signAfter_eq, List.dropWhile_append_of_pos ha,
        List.dropWhile_cons_of_neg (by simp [hs]), sign_cons, if_neg hne]
    rw [List.append_assoc, List.singleton_append, closing_eq, hn, Option.getD_none,
      signAfter_append hs ha]
  | some t =>
    rw [hcomma] at h
    obtain ⟨b, rfl, hb⟩ := cut_signAfter hs h
    obtain ⟨a, rfl, ha⟩ := cut_signAfter (by decide) hcomma
    refine ⟨a ++ b, (List.append_assoc a b r).symm, fun y hy => ?_⟩
    rw [closing_eq, List.append_assoc, ha _ trivial, Option.getD_some, hb y hy]

theorem cut_key {k : String} (h : key s = some (k, r)) :
    Cut (StartsLike r) key (fun y => some (k, y)) s r := by
  rw [key_eq] at h
  obtain ⟨⟨n, t⟩, hn, h⟩ := Option.bind_eq_some_iff.1 h
  obtain ⟨u, hu, heq⟩ := Option.map_eq_some_iff.1 h
  cases heq
  obtain ⟨b, -, hb, hdrop⟩ := exists_dropWhile isSpacing u
  obtain ⟨a, ha, rfl⟩ := exists_of_signAfter hu
  obtain ⟨w, rfl, hread⟩ : ∃ w, s = w ++ (a ++ ':' :: u) ∧
      ∀ y, (name (w ++ (a ++ ':' :: y))).or (string (w ++ (a ++ ':' :: y))) =
        some (n, a ++ ':' :: y) := by
    rcases Option.or_eq_some_iff.1 hn with hn | ⟨-, hs⟩
    · obtain ⟨hname, hs, -⟩ := eq_append_of_name hn
      refine ⟨n.toList, hs, fun y => ?_⟩
      -- the colon behind the blanks ends a name
      have hends : NameEnds (a ++ ':' :: y) := nameEnds_append ha (nameEnds_sign (by decide) y)
      rw [name_append hname hends, Option.some_or]
    · obtain ⟨q, hq, ht, hs⟩ := exists_quoted_of_string hs
      refine ⟨Body.quoted q n, hs, fun y => ?_⟩
      have hname : name (Body.quoted q n ++ (a ++ ':' :: y)) = none := by
        refine name_cons_of_not (isNameStart_of_mem_signs ?_) _
        rcases hq with rfl | rfl <;> decide
      rw [hname, Option.none_or, string_append hq ht]
  refine ⟨w ++ (a ++ ':' :: b), ?_, fun y hy => ?_⟩
  · rw [List.append_assoc, List.append_assoc, List.cons_append, ← hb]
  · rw [List.append_assoc, List.append_assoc, List.cons_append, key_eq, hread, Option.bind_some,
      signAfter_append (by decide) ha, Option.map_some, hdrop y hy]

/-! ### Beginnings of expressions -/

/-- In front of which texts the beginning of an expression is read alike. -/
def LeadEnds (r : List Char) : Lead → List Char → Prop
  | .number _, y => NumeralEnds y
  | .word _, y => NameEnds y
  | .string _, _ | .callable, _ => True
  | .list, y | .object, y | .group, y => StartsLike r y

theorem cut_lead_opening {c : Char} {l : Lead}
    (hl : ∀ s, lead (c :: s) = some (l, s.dropWhile isSpacing)) (h : opening c s = some r) :
    Cut (StartsLike r) lead (fun y => some (l, y)) s r := by
  obtain ⟨a, ha, rfl, hr⟩ := spacing_of_opening h
  refine ⟨c :: a, rfl, fun y hy => ?_⟩
  rw [List.cons_append, hl, hy.dropWhile_append hr ha]

theorem cut_lead {l : Lead} (h : lead s = some (l, r)) :
    Cut (LeadEnds r l) lead (fun y => some (l, y)) s r := by
  rw [lead_eq] at h
  -- one case for each of the readers, in their order
  rcases Option.or_eq_some_iff.1 h with h | ⟨-, h⟩
  · obtain ⟨t, ht, heq⟩ := Option.map_eq_some_iff.1 h
    cases heq
    obtain ⟨p, rfl, hp⟩ := cut_arrow ht
    refine ⟨p, rfl, fun y hy => ?_⟩
    rw [lead_eq, hp y hy, Option.map_some, Option.some_or]
  rcases Option.or_eq_some_iff.1 h with h | ⟨-, h⟩
  · obtain ⟨⟨n, t⟩, ht, heq⟩ := Option.map_eq_some_iff.1 h
    cases heq
    obtain ⟨hn, rfl⟩ := eq_append_of_numeral ht
    exact ⟨n.text, rfl, fun y hy => lead_numeral hn hy⟩
  rcases Option.or_eq_some_iff.1 h with h | ⟨-, h⟩
  · obtain ⟨⟨x, t⟩, ht, heq⟩ := Option.map_eq_some_iff.1 h
    cases heq
    obtain ⟨q, hq, hx, rfl⟩ := exists_quoted_of_string ht
    exact ⟨Body.quoted q x, rfl, fun y _ => lead_quoted hq hx y⟩
  rcases Option.or_eq_some_iff.1 h with h | ⟨-, h⟩
  · obtain ⟨t, ht, heq⟩ := Option.map_eq_some_iff.1 h
    cases heq
    exact cut_lead_opening lead_list ht
  rcases Option.or_eq_some_iff.1 h with h | ⟨-, h⟩
  · obtain ⟨t, ht, heq⟩ := Option.map_eq_some_iff.1 h
    cases heq
    exact cut_lead_opening lead_object ht
  rcases Option.or_eq_some_iff.1 h with h | ⟨-, h⟩
  · obtain ⟨⟨n, t⟩, ht, heq⟩ := Option.map_eq_some_iff.1 h
    cases heq
    obtain ⟨hn, rfl, -⟩ := eq_append_of_name ht
    exact ⟨n.toList, rfl, fun y hy => lead_name hn hy⟩
  · obtain ⟨t, ht, heq⟩ := Option.map_eq_some_iff.1 h
    cases heq
    exact cut_lead_opening lead_group ht

/-! ### What goes on with an expression -/

theorem eq_append_of_matcher {negate : Bool} {m : String} (h : matcher s = some ((negate, m), r)) :
    isMatcher negate m = true ∧ ∃ a, (∀ c ∈ a, isSpacing c = true) ∧
      s = (if negate then "not_".toList else []) ++ m.toList ++ '(' :: (a ++ r) ∧
        r.dropWhile isSpacing = r := by
  rw [matcher_eq, not_eq] at h
  obtain ⟨⟨n, t⟩, hn, h⟩ := Option.bind_eq_some_iff.1 h
  obtain ⟨u, hu, heq⟩ := Option.map_eq_some_iff.1 h
  cases heq
  obtain ⟨a, ha, rfl, hr⟩ := spacing_of_opening hu
  obtain ⟨hname, hs, -⟩ := eq_append_of_name hn
  cases hnot : Text.after? "not_".toList s with
  | none =>
    rw [hnot] at hs
    obtain rfl : s = _ := hs
    refine ⟨?_, a, ha, rfl, hr⟩
    rw [Text.after?_eq_none_iff] at hnot
    rw [isMatcher, hname, Bool.true_and, Option.map_none, Option.getD_none, Bool.false_or,
      Bool.not_eq_true', ← Bool.not_eq_true, List.isPrefixOf_iff_prefix]
    exact fun hp => hnot (hp.trans (List.prefix_append _ _))
  | some t =>
    rw [hnot] at hs
    obtain rfl : t = _ := hs
    refine ⟨?_, a, ha, ?_, hr⟩
    · rw [isMatcher, hname]
      rfl
    · rw [Text.eq_append_of_after? hnot]
      simp

/-- How what goes on with an expression is written. -/
inductive SuffixText : Suffix → List Char → Prop
  | property {n : String} (hn : isProperty n = true) :
    SuffixText (.property n) ('.' :: n.toList)
  | call {a : List Char} (ha : ∀ c ∈ a, isSpacing c = true) : SuffixText .call ('(' :: (a ++ [')']))
  | assertion {negate : Bool} {m : String} {a : List Char} (hm : isMatcher negate m = true)
      (ha : ∀ c ∈ a, isSpacing c = true) :
    SuffixText (.assertion negate m) (".should_".toList ++
      ((if negate then "not_".toList else []) ++ m.toList ++ '(' :: a))

/-- In front of which texts it is read alike. -/
def SuffixEnds (r : List Char) : Suffix → List Char → Prop
  | .property _, y => NameEnds y
  | .call, _ => True
  | .assertion _ _, y => StartsLike r y ∧ r.dropWhile isSpacing = r

theorem suffixText_of_suffix {l : Suffix} (h : suffix s = some (l, r)) :
    ∃ p, SuffixText l p ∧ s = p ++ r ∧ SuffixEnds r l r := by
  rw [suffix_eq] at h
  cases ha : Text.after? ".should_".toList s with
  | some t =>
    rw [ha] at h
    obtain ⟨⟨⟨negate, m⟩, u⟩, hm, heq⟩ := Option.map_eq_some_iff.1 h
    cases heq
    obtain ⟨hmatcher, a, hspacing, rfl, hr⟩ := eq_append_of_matcher hm
    refine ⟨_, .assertion hmatcher hspacing, ?_, rfl, hr⟩
    rw [Text.eq_append_of_after? ha]
    simp
  | none =>
    rw [ha] at h
    cases hd : sign '.' s with
    | some t =>
      simp only [hd] at h
      obtain ⟨⟨n, u⟩, hn, heq⟩ := Option.map_eq_some_iff.1 h
      cases heq
      obtain ⟨hname, rfl, hends⟩ := eq_append_of_name hn
      obtain rfl := sign_eq_some_iff.1 hd
      refine ⟨_, .property ?_, rfl, hends⟩
      rw [Text.after?_eq_none_iff] at ha
      rw [isProperty, hname, Bool.true_and, Bool.not_eq_true', ← Bool.not_eq_true,
        List.isPrefixOf_iff_prefix]
      intro hp
      exact ha ((List.cons_prefix_cons.2 ⟨rfl, hp.trans (List.prefix_append _ _)⟩))
    | none =>
      simp only [hd] at h
      obtain ⟨t, ht, heq⟩ := Option.map_eq_some_iff.1 h
      cases heq
      obtain ⟨u, hu, hc⟩ := Option.bind_eq_some_iff.1 ht
      obtain rfl := sign_eq_some_iff.1 hc
      obtain ⟨a, hspacing, rfl, -⟩ := spacing_of_opening hu
      exact ⟨_, .call hspacing, by simp, trivial⟩

theorem SuffixText.suffix_eq {l : Suffix} {p y : List Char} (h : SuffixText l p)
    (hy : SuffixEnds r l y) : suffix (p ++ y) = some (l, y) := by
  cases h with
  | property hn => exact suffix_property hn hy
  | @call a ha =>
    have hd : (a ++ [')'] ++ y).dropWhile isSpacing = ')' :: y := by
      rw [List.append_assoc, List.dropWhile_append_of_pos ha]
      rfl
    have hs : Text.after? ".should_".toList ('(' :: (a ++ [')'] ++ y)) = none :=
      Text.after?_cons_of_ne (by decide) "should_".toList _
    rw [List.cons_append, View.suffix_eq, hs, sign_cons, if_neg (by decide), opening_cons, hd]
    rfl
  | @assertion negate m a hm ha =>
    have hs := suffix_assertion hm (a ++ y)
    rw [hy.1.dropWhile_append hy.2 ha] at hs
    simpa using hs

theorem cut_suffix {l : Suffix} (h : suffix s = some (l, r)) :
    Cut (SuffixEnds r l) suffix (fun y => some (l, y)) s r := by
  obtain ⟨p, hp, rfl, -⟩ := suffixText_of_suffix h
  exact ⟨p, rfl, fun _ => hp.suffix_eq⟩

/-- What goes on with an expression goes on with no numeral, and with no box. -/
theorem SuffixText.follows {l : Suffix} {p : List Char} (h : SuffixText l p) (y : List Char) :
    Follows (p ++ y) := by
  have hpoint : ∀ t, Unopened ('.' :: t) := by
    intro t r hr
    rw [List.dropWhile_cons_of_neg (by decide), opening_cons_of_ne (by decide)] at hr
    cases hr
  cases h with
  | property hn => exact ⟨numeralEnds_point (isName_of_isProperty hn) y, hpoint _⟩
  | @call a ha =>
    refine ⟨⟨nameEnds_sign (by decide) _, rfl⟩, fun r hr => ⟨y, ?_⟩⟩
    rw [List.cons_append, List.dropWhile_cons_of_neg (by decide), opening_cons, List.append_assoc,
      List.dropWhile_append_of_pos ha] at hr
    cases hr
    rfl
  | assertion hm ha =>
    rw [List.append_assoc]
    exact ⟨numeralEnds_should _, hpoint _⟩

theorem follows_of_suffixes {e e' : Expr} (h : suffixes e s = (e', r)) (hr : Over r) :
    Follows s := by
  cases hs : suffix s with
  | none =>
    rw [suffixes_eq, hs] at h
    cases h
    exact hr.follows
  | some q =>
    obtain ⟨l, u⟩ := q
    obtain ⟨p, hp, rfl, -⟩ := suffixText_of_suffix hs
    exact hp.follows u

/-! ### Beginnings of statements -/

theorem cut_word {w : String} (h : word w s = some r) : Cut (StartsLike r) (word w) some s r := by
  rw [word_eq] at h
  obtain ⟨⟨n, t⟩, hn, h⟩ := Option.bind_eq_some_iff.1 h
  split at h
  · next hw =>
    cases h
    obtain ⟨hname, rfl, hends⟩ := eq_append_of_name hn
    obtain ⟨a, -, ha, hdrop⟩ := exists_dropWhile isSpace t
    refine ⟨n.toList ++ a, ?_, fun y hy => ?_⟩
    · rw [List.append_assoc, ← ha]
    · rw [ha] at hends
      rw [List.append_assoc, word_eq, name_append hname ((hy.append a).nameEnds hends),
        Option.bind_some, if_pos hw, hdrop y hy]
  · cases h

theorem cut_binding {n : String} (h : binding s = some (n, r)) :
    Cut (StartsLike r) binding (fun y => some (n, y)) s r := by
  rw [binding_eq] at h
  obtain ⟨u, hu, h⟩ := Option.bind_eq_some_iff.1 h
  obtain ⟨⟨m, t⟩, hm, h⟩ := Option.bind_eq_some_iff.1 h
  split at h
  · cases h
  · next hr =>
    obtain ⟨v, hv, heq⟩ := Option.map_eq_some_iff.1 h
    cases heq
    have hlt := Parsed.length_lt_of_map_pair hm
    obtain ⟨b, -, hb, hdrop⟩ := exists_dropWhile isSpace v
    obtain ⟨a, ha, rfl⟩ := exists_of_signAfter hv
    obtain ⟨hname, rfl, -⟩ := eq_append_of_name hm
    obtain ⟨p, rfl, hp⟩ := cut_word hu
    refine ⟨p ++ (m.toList ++ (a ++ '=' :: b)), ?_, fun y hy => ?_⟩
    · simp [← hb]
    · -- the sign behind the blanks ends the name
      have hends : NameEnds (a ++ '=' :: (b ++ y)) :=
        nameEnds_append ha (nameEnds_sign (by decide) _)
      simp only [List.append_assoc, List.cons_append]
      rw [binding_eq, hp _ (startsLike_append hlt _), Option.bind_some, name_append hname hends,
        Option.bind_some, if_neg hr, signAfter_append (by decide) ha, Option.map_some,
        hdrop y hy]

/-- One word is not read as another. -/
theorem word_eq_none_of_word {w w' : String} (hw : w ≠ w') (h : word w s = some r) :
    word w' s = none := by
  rw [word_eq] at h ⊢
  obtain ⟨p, hp, h⟩ := Option.bind_eq_some_iff.1 h
  split at h
  · next hn => rw [hp, Option.bind_some, if_neg (hn ▸ hw)]
  · cases h

theorem cut_statementLead {l : StatementLead} (h : statementLead s = some (l, r)) :
    Cut (StartsLike r) statementLead (fun y => some (l, y)) s r := by
  rw [statementLead_eq] at h
  rcases Option.or_eq_some_iff.1 h with h | ⟨-, h⟩
  · obtain ⟨⟨n, t⟩, ht, heq⟩ := Option.map_eq_some_iff.1 h
    cases heq
    obtain ⟨p, rfl, hp⟩ := cut_binding ht
    refine ⟨p, rfl, fun y hy => ?_⟩
    rw [statementLead_eq, hp y hy]
    rfl
  · obtain ⟨t, ht, heq⟩ := Option.map_eq_some_iff.1 h
    cases heq
    obtain ⟨p, rfl, hp⟩ := cut_word ht
    refine ⟨p, rfl, fun y hy => ?_⟩
    rw [statementLead_eq, binding_eq, word_eq_none_of_word (by decide) (hp y hy), hp y hy]
    rfl

/-! ### Between statements -/

theorem isSpacing_of_separators {c : Char} (h : separators s = c :: u) :
    isSpacing c = false := by
  induction s using separators_induction with
  | nil =>
    rw [separators_nil] at h
    cases h
  | skip d s hd ih =>
    rw [separators_skip hd] at h
    exact ih h
  | comment s r hr ih =>
    rw [separators_comment hr] at h
    exact ih h
  | stop d s hd hs =>
    rw [separators_stop hd hs] at h
    cases h
    exact (Bool.or_eq_false_iff.1 hd).1

/-- A comment ends where it ended, if what follows it begins alike. -/
theorem cut_comment {p : List Char} {c : Char} (hc : isSpacing c = false)
    (h : comment s = some (p ++ c :: u)) :
    ∃ a, s = a ++ (p ++ c :: u) ∧ ∀ y, comment (a ++ (p ++ y)) = some (p ++ y) := by
  obtain ⟨hdrop, hreturn⟩ := comment_eq_some_iff.1 h
  obtain ⟨a, -, ha, hy⟩ := exists_dropWhile (fun c => c ≠ '\n' && c ≠ '\r') s
  rw [hdrop] at ha hy
  refine ⟨a, ha, fun y => ?_⟩
  -- the comment ends before a line break, whose characters stand in `p`, since `c` is no spacing
  cases p with
  | nil =>
    have hend := List.head?_dropWhile_not (fun c => c ≠ '\n' && c ≠ '\r') s
    rw [hdrop] at hend
    simp [isSpacing] at hc hend
    tauto
  | cons d p =>
    rw [comment_eq_some_iff]
    refine ⟨hy _ rfl, fun t ht => ?_⟩
    obtain ⟨rfl, rfl⟩ := List.cons.inj ht
    obtain ⟨v, hv⟩ := hreturn _ rfl
    cases p with
    | nil =>
      obtain rfl := (List.cons.inj hv).1
      cases hc
    | cons d p =>
      obtain rfl := (List.cons.inj hv).1
      exact ⟨p ++ y, rfl⟩

theorem cut_separators {c : Char} (h : separators s = c :: u) (hc : c ≠ '/') :
    ∃ p, s = p ++ c :: u ∧ ∀ y, separators (p ++ c :: y) = c :: y := by
  induction s using separators_induction with
  | nil =>
    rw [separators_nil] at h
    cases h
  | skip d s hd ih =>
    rw [separators_skip hd] at h
    obtain ⟨p, rfl, hp⟩ := ih h
    refine ⟨d :: p, rfl, fun y => ?_⟩
    rw [List.cons_append, separators_skip hd, hp y]
  | comment s r hr ih =>
    have hs := isSpacing_of_separators h
    rw [separators_comment hr] at h
    obtain ⟨p, rfl, hp⟩ := ih h
    obtain ⟨a, rfl, ha⟩ := cut_comment hs hr
    refine ⟨'/' :: '/' :: (a ++ p), by simp, fun y => ?_⟩
    rw [List.cons_append, List.cons_append, List.append_assoc, separators_comment (ha (c :: y)),
      hp y]
  | stop d s hd hs =>
    rw [separators_stop hd hs] at h
    cases h
    refine ⟨[], rfl, fun y => separators_stop hd ?_⟩
    rw [show Text.after? "//".toList (c :: y) = none from Text.after?_cons_of_ne hc.symm ['/'] y,
      Option.bind_none]

/-! ### Up to a closing bracket -/

/-- Whether a statement ends does not depend on what stands behind a brace. -/
theorem endsStatement_append_brace (p r y : List Char) :
    endsStatement (p ++ '\x7d' :: y) = endsStatement (p ++ '\x7d' :: r) := by
  cases p with
  | nil => rfl
  | cons c p =>
    have hp : (p ++ '\x7d' :: y).head? = (p ++ '\x7d' :: r).head? := startsLike_cons p _ r y
    rw [List.cons_append, List.cons_append, endsStatement_cons, endsStatement_cons, hp]

section

variable {α : Type}

/-- Reads by `f`, and the closing sign behind. -/
def upTo (close : List Char → Option (List Char)) (f : List Char → α × List Char)
    (s : List Char) : Option (α × List Char) :=
  (close (f s).2).map fun r => ((f s).1, r)

variable {close : List Char → Option (List Char)} {p : List Char → Option (α × List Char)}
  {more f : List Char → List α × List Char}

theorem length_lt_of_upTo {c : Char} {g : (s : List Char) → Parsed α (s.length + 1)} {x : α}
    {r : List Char}
    (h : upTo (closing c) (fun s => (g s).pair) s = some (x, r)) : r.length < s.length := by
  obtain ⟨t, ht, heq⟩ := Option.map_eq_some_iff.1 h
  cases heq
  exact (Parsed.length_lt_of_map_rest ht).trans_le (Nat.le_of_lt_succ (g s).shorter)

theorem ReadsParts.upTo_of_none (hf : ReadsParts p more f) (h : p s = none) :
    upTo close f s = (close s).map fun r => ([], r) := by
  have hs := hf s
  rw [h] at hs
  rw [upTo, hs]

theorem ReadsParts.upTo_of_some (hf : ReadsParts p more f) {x : α} (h : p s = some (x, u)) :
    upTo close f s = (upTo close more u).map (Prod.map (x :: ·) id) := by
  have hs := hf s
  rw [h] at hs
  rw [upTo, hs, upTo, Option.map_map]
  rfl

/-- An expression is over where further parts are read up to the bracket. -/
theorem ReadsParts.over {more : List Char → List α × List Char}
    (hf : ReadsParts (fun s => (comma s).bind p) more more) {c : Char} (hc : IsBracket c)
    {xs : List α} (h : upTo (closing c) more s = some (xs, r)) : Over s := by
  obtain ⟨t, ht, -⟩ := Option.map_eq_some_iff.1 h
  obtain ⟨d, v, hd, hb, hne⟩ := hf.exists_barren hc ht
  exact over_of_spacing ⟨(class_of_mem_barren d hb).1, hne⟩ hd

/-- Parts up to a bracket are cut behind it if the first of them is, and the ones behind it are. -/
theorem ReadsParts.cut {q : List Char → Option (α × List Char)} {c : Char} {xs : List α}
    (hf : ReadsParts p more f) (hmore : ReadsParts (fun s => (comma s).bind q) more more)
    (hc : IsBracket c) (hn : ∀ {s r}, closing c s = some r → p s = none)
    (h : upTo (closing c) f s = some (xs, r))
    (hs : ∀ {x u ys}, p s = some (x, u) → upTo (closing c) more u = some (ys, r) →
      Cut Over p (fun y => some (x, y)) s u ∧
        Cut (fun _ => True) (upTo (closing c) more) (fun y => some (ys, y)) u r) :
    Cut (fun _ => True) (upTo (closing c) f) (fun y => some (xs, y)) s r := by
  cases hp : p s with
  | none =>
    rw [hf.upTo_of_none hp] at h
    obtain ⟨t, ht, heq⟩ := Option.map_eq_some_iff.1 h
    cases heq
    obtain ⟨a, rfl, ha⟩ := cut_closing hc ht
    refine ⟨a, rfl, fun y hy => ?_⟩
    rw [hf.upTo_of_none (hn (ha y hy)), ha y hy]
    rfl
  | some w =>
    obtain ⟨x, u⟩ := w
    rw [hf.upTo_of_some hp] at h
    obtain ⟨⟨ys, t⟩, ht, heq⟩ := Option.map_eq_some_iff.1 h
    cases heq
    obtain ⟨⟨a, rfl, ha⟩, b, rfl, hb⟩ := hs hp ht
    refine ⟨a ++ b, by simp, fun y hy => ?_⟩
    rw [List.append_assoc, hf.upTo_of_some (ha _ (hmore.over hc (hb y hy))), hb y hy]
    rfl

/-- A part behind a comma. -/
theorem cut_comma_bind {C : List Char → Prop} {x : α} (h : comma s = some u)
    (hp : Cut C p (fun y => some (x, y)) u r) (hlt : r.length < u.length) :
    Cut C (fun s => (comma s).bind p) (fun y => some (x, y)) s r := by
  obtain ⟨b, rfl, hb⟩ := hp
  obtain ⟨a, rfl, ha⟩ := cut_comma h
  refine ⟨a ++ b, (List.append_assoc a b r).symm, fun y hy => ?_⟩
  rw [List.append_assoc]
  dsimp only
  rw [ha _ (startsLike_append hlt y), Option.bind_some, hb y hy]

end

theorem nameEnds_of_group {p : Expr × List Char} (h : group s = some p) : NameEnds s := by
  rw [group_eq] at h
  obtain ⟨u, hu, -⟩ := Option.bind_eq_some_iff.1 h
  obtain ⟨t, rfl, -⟩ := exists_of_opening hu
  exact nameEnds_sign (by decide) t

theorem primary_of_group {p : Expr × List Char} (h : group s = some p) : primary s = some p := by
  obtain ⟨t, rfl⟩ : ∃ t, s = '(' :: t := by
    rw [group_eq] at h
    obtain ⟨u, hu, -⟩ := Option.bind_eq_some_iff.1 h
    obtain ⟨t, ht, -⟩ := exists_of_opening hu
    exact ⟨t, ht⟩
  rw [primary_eq, lead_group, Option.bind_some, primaryAfter, h]

theorem primaryAfter_list (s u : List Char) :
    primaryAfter s (.list, u) = (upTo (closing ']') items u).map (Prod.map .list id) := by
  rw [upTo, Option.map_map]
  rfl

theorem primaryAfter_object (s u : List Char) :
    primaryAfter s (.object, u) = (upTo (closing '\x7d') fields u).map (Prod.map .object id) := by
  rw [upTo, Option.map_map]
  rfl

/-! ### Expressions and statements -/

-- What a bracket closes is read alike in front of every text.  An expression may go on, so the text
-- behind it is asked to be `Over`, and the one behind its beginning to do what `Follows` says.
mutual

theorem cut_group {s r : List Char} {e : Expr} (h : group s = some (e, r)) :
    Cut (fun _ => True) group (fun y => some (e, y)) s r := by
  rw [group_eq] at h
  obtain ⟨u, hu, h⟩ := Option.bind_eq_some_iff.1 h
  obtain ⟨⟨e', v⟩, hv, h⟩ := Option.bind_eq_some_iff.1 h
  obtain ⟨w, hw, heq⟩ := Option.map_eq_some_iff.1 h
  cases heq
  have hlt := Parsed.length_lt_of_map_rest hu
  have hlt₁ := Parsed.length_lt_of_map_pair hv
  obtain ⟨d, rfl, hd⟩ := cut_signAfter (by decide) hw
  obtain ⟨b, rfl, hb⟩ := cut_expr hv
  obtain ⟨a, rfl, ha⟩ := cut_opening hu
  refine ⟨a ++ (b ++ d), by simp, fun y hy => ?_⟩
  have hov : Over (d ++ y) := over_of_spacing (by decide) (signAfter_spacing_eq_some (hd y hy))
  rw [List.append_assoc, List.append_assoc, group_eq, ha _ (startsLike_append hlt₁ _),
    Option.bind_some, hb _ hov, Option.bind_some, hd y hy]
  rfl
termination_by 5 * s.length

theorem cut_primary {s r : List Char} {e : Expr} (h : primary s = some (e, r)) :
    Cut Follows primary (fun y => some (e, y)) s r := by
  rw [primary_eq] at h
  obtain ⟨⟨l, u⟩, hl, h⟩ := Option.bind_eq_some_iff.1 h
  have hlt := Parsed.length_lt_of_map_pair hl
  have hcut := cut_lead hl
  cases l with
  | number n =>
    cases h
    obtain ⟨a, rfl, ha⟩ := hcut
    refine ⟨a, rfl, fun y hy => ?_⟩
    rw [primary_eq, ha y hy.1]
    rfl
  | string t =>
    cases h
    obtain ⟨a, rfl, ha⟩ := hcut
    refine ⟨a, rfl, fun y hy => ?_⟩
    rw [primary_eq, ha y trivial]
    rfl
  | word w =>
    rw [primaryAfter] at h
    split at h
    · next hw =>
      have hle := Text.length_dropWhile_le isSpace u
      cases hg : group (u.dropWhile isSpace) with
      | some p =>
        rw [hg] at h
        cases h
        have hlt₁ := Parsed.length_lt_of_map_pair (r := p.2) hg
        obtain ⟨b, hspace, hb, hdrop⟩ := exists_dropWhile isSpace u
        obtain ⟨d, hd, hread⟩ := cut_group hg
        rw [hd] at hb hdrop hlt₁
        obtain ⟨a, rfl, ha⟩ := hcut
        refine ⟨a ++ (b ++ d), by simp [hb], fun y hy => ?_⟩
        have hends := nameEnds_append hspace (nameEnds_of_group (hread y trivial))
        rw [List.append_assoc, List.append_assoc, primary_eq, ha _ hends, Option.bind_some,
          primaryAfter, if_pos hw, hdrop _ (startsLike_append hlt₁ y), hread y trivial]
        rfl
      | none =>
        rw [hg] at h
        cases h
        obtain ⟨a, rfl, ha⟩ := hcut
        refine ⟨a, rfl, fun y hy => ?_⟩
        rw [primary_eq, ha y hy.1.1, Option.bind_some, primaryAfter, if_pos hw,
          hy.2.group_eq_none]
        rfl
    · next hw =>
      cases h
      obtain ⟨a, rfl, ha⟩ := hcut
      refine ⟨a, rfl, fun y hy => ?_⟩
      rw [primary_eq, ha y hy.1.1, Option.bind_some, primaryAfter, if_neg hw]
  | callable =>
    obtain ⟨v, hv, heq⟩ := Option.map_eq_some_iff.1 h
    cases heq
    obtain ⟨b, hb, hread⟩ := cut_statements (signAfter_spacing_eq_some hv)
    obtain ⟨a, rfl, ha⟩ := hcut
    have hs : a ++ u = (a ++ (b ++ ['\x7d'])) ++ r := by simp [hb]
    refine ⟨a ++ (b ++ ['\x7d']), hs, fun y hy => ?_⟩
    have hy' : (a ++ (b ++ ['\x7d'])) ++ y = a ++ (b ++ '\x7d' :: y) := by simp
    rw [hs, consumed_append, hy', primary_eq, ha _ trivial, Option.bind_some, primaryAfter,
      hread, signAfter_cons (by decide), ← hy', Option.map_some, consumed_append]
  | list =>
    rw [primaryAfter_list] at h
    obtain ⟨⟨es, v⟩, hv, heq⟩ := Option.map_eq_some_iff.1 h
    cases heq
    have hlt₁ := length_lt_of_upTo hv
    obtain ⟨b, rfl, hb⟩ := cut_items hv
    obtain ⟨a, rfl, ha⟩ := hcut
    refine ⟨a ++ b, by simp, fun y hy => ?_⟩
    rw [List.append_assoc, primary_eq, ha _ (startsLike_append hlt₁ y), Option.bind_some,
      primaryAfter_list, hb y trivial]
    rfl
  | object =>
    rw [primaryAfter_object] at h
    obtain ⟨⟨fs, v⟩, hv, heq⟩ := Option.map_eq_some_iff.1 h
    cases heq
    have hlt₁ := length_lt_of_upTo hv
    obtain ⟨b, rfl, hb⟩ := cut_fields hv
    obtain ⟨a, rfl, ha⟩ := hcut
    refine ⟨a ++ b, by simp, fun y hy => ?_⟩
    rw [List.append_assoc, primary_eq, ha _ (startsLike_append hlt₁ y), Option.bind_some,
      primaryAfter_object, hb y trivial]
    rfl
  | group =>
    obtain ⟨a, rfl, ha⟩ := cut_group h
    exact ⟨a, rfl, fun y _ => primary_of_group (ha y trivial)⟩
termination_by 5 * s.length + 1

theorem cut_expr {s r : List Char} {e : Expr} (h : expr s = some (e, r)) :
    Cut Over expr (fun y => some (e, y)) s r := by
  rw [expr_eq] at h
  obtain ⟨⟨e', u⟩, hu, hs⟩ := Option.map_eq_some_iff.1 h
  have hlt := Parsed.length_lt_of_map_pair hu
  obtain ⟨b, rfl, hb⟩ := cut_suffixes hs
  obtain ⟨a, rfl, ha⟩ := cut_primary hu
  refine ⟨a ++ b, (List.append_assoc a b r).symm, fun y hy => ?_⟩
  have hread := hb y hy
  rw [List.append_assoc, expr_eq, ha _ (follows_of_suffixes hread hy), Option.map_some, hread]
termination_by 5 * s.length + 2

theorem cut_suffixes {s r : List Char} {e e' : Expr} (h : suffixes e s = (e', r)) :
    Cut Over (suffixes e) (fun y => (e', y)) s r := by
  rw [suffixes_eq] at h
  cases hs : suffix s with
  | none =>
    rw [hs] at h
    cases h
    exact ⟨[], rfl, fun y hy => hy.suffixes_eq e⟩
  | some p =>
    obtain ⟨l, u⟩ := p
    have hlt := Parsed.length_lt_of_map_pair hs
    rw [hs] at h
    cases l with
    | property n =>
      obtain ⟨b, rfl, hb⟩ := cut_suffixes (e := .property e n) h
      obtain ⟨a, rfl, ha⟩ := cut_suffix hs
      refine ⟨a ++ b, (List.append_assoc a b r).symm, fun y hy => ?_⟩
      have hread := hb y hy
      rw [List.append_assoc, suffixes_eq, ha _ (follows_of_suffixes hread hy).1.1]
      exact hread
    | call =>
      obtain ⟨b, rfl, hb⟩ := cut_suffixes (e := .call e) h
      obtain ⟨a, rfl, ha⟩ := cut_suffix hs
      refine ⟨a ++ b, (List.append_assoc a b r).symm, fun y hy => ?_⟩
      rw [List.append_assoc, suffixes_eq, ha _ trivial]
      exact hb y hy
    | assertion negate m =>
      cases hx : argument u with
      | none =>
        simp only [hx] at h
        cases h
        exact ⟨[], rfl, fun y hy => hy.suffixes_eq e⟩
      | some q =>
        obtain ⟨x, v⟩ := q
        have hlt₁ := Parsed.length_lt_of_map_pair hx
        simp only [hx] at h
        obtain ⟨d, rfl, hd⟩ := cut_suffixes (e := .assertion e m negate x) h
        obtain ⟨b, rfl, hb⟩ := cut_argument hx
        obtain ⟨p, hp, rfl, -, hu⟩ := suffixText_of_suffix hs
        refine ⟨p ++ (b ++ d), by simp, fun y hy => ?_⟩
        rw [List.append_assoc, List.append_assoc, suffixes_eq,
          hp.suffix_eq ⟨startsLike_append hlt₁ (d ++ y), hu⟩]
        simp only [hb _ trivial]
        exact hd y hy
termination_by 5 * s.length

theorem cut_argument {s r : List Char} {x : Option Expr} (h : argument s = some (x, r)) :
    Cut (fun _ => True) argument (fun y => some (x, y)) s r := by
  rw [argument_eq] at h
  cases he : expr s with
  | none =>
    simp only [he] at h
    obtain ⟨u, hu, heq⟩ := Option.map_eq_some_iff.1 h
    cases heq
    obtain ⟨a, rfl, ha⟩ := cut_signAfter (by decide) hu
    refine ⟨a, rfl, fun y hy => ?_⟩
    obtain ⟨c, t, ht, hc⟩ := exists_barren (by decide) (signAfter_spacing_eq_some (ha y hy))
    have hn : expr (a ++ y) = none := by rw [ht, expr_barren hc]
    rw [argument_eq, hn]
    dsimp only
    rw [ha y hy, Option.map_some]
  | some p =>
    obtain ⟨e, v⟩ := p
    simp only [he] at h
    obtain ⟨u, hu, heq⟩ := Option.map_eq_some_iff.1 h
    cases heq
    obtain ⟨b, rfl, hb⟩ := cut_signAfter (by decide) hu
    obtain ⟨a, rfl, ha⟩ := cut_expr he
    refine ⟨a ++ b, by simp, fun y hy => ?_⟩
    have hov : Over (b ++ y) := over_of_spacing (by decide) (signAfter_spacing_eq_some (hb y hy))
    rw [List.append_assoc, argument_eq, ha _ hov]
    dsimp only
    rw [hb y hy, Option.map_some]
termination_by 5 * s.length + 3

theorem cut_items {s r : List Char} {es : List Expr}
    (h : upTo (closing ']') items s = some (es, r)) :
    Cut (fun _ => True) (upTo (closing ']') items) (fun y => some (es, y)) s r := by
  refine readsParts_items.cut readsParts_moreItems (Or.inl rfl)
    (eq_none_of_closing (fun _ => expr_barren) (Or.inl rfl)) h fun {x u ys} hx hm => ?_
  have hlt := Parsed.length_lt_of_map_pair hx
  exact ⟨cut_expr hx, cut_moreItems hm⟩
termination_by 5 * s.length + 3

theorem cut_moreItems {s r : List Char} {es : List Expr}
    (h : upTo (closing ']') moreItems s = some (es, r)) :
    Cut (fun _ => True) (upTo (closing ']') moreItems) (fun y => some (es, y)) s r := by
  refine readsParts_moreItems.cut readsParts_moreItems (Or.inl rfl)
    (comma_bind_eq_none (fun _ => expr_barren) (Or.inl rfl)) h fun {x u ys} hx hm => ?_
  obtain ⟨v, hv, hx⟩ := Option.bind_eq_some_iff.1 hx
  have hlt := Parsed.length_lt_of_map_rest hv
  have hlt₁ := Parsed.length_lt_of_map_pair hx
  exact ⟨cut_comma_bind hv (cut_expr hx) hlt₁, cut_moreItems hm⟩
termination_by 5 * s.length

theorem cut_field {s r : List Char} {f : String × Expr} (h : field s = some (f, r)) :
    Cut Over field (fun y => some (f, y)) s r := by
  rw [field_eq] at h
  obtain ⟨⟨k, u⟩, hu, h⟩ := Option.bind_eq_some_iff.1 h
  obtain ⟨⟨e, v⟩, hv, heq⟩ := Option.map_eq_some_iff.1 h
  cases heq
  have hlt := Parsed.length_lt_of_map_pair hu
  have hlt₁ := Parsed.length_lt_of_map_pair hv
  obtain ⟨b, rfl, hb⟩ := cut_expr hv
  obtain ⟨a, rfl, ha⟩ := cut_key hu
  refine ⟨a ++ b, by simp, fun y hy => ?_⟩
  rw [List.append_assoc, field_eq, ha _ (startsLike_append hlt₁ y), Option.bind_some, hb y hy]
  rfl
termination_by 5 * s.length

theorem cut_fields {s r : List Char} {fs : List (String × Expr)}
    (h : upTo (closing '\x7d') fields s = some (fs, r)) :
    Cut (fun _ => True) (upTo (closing '\x7d') fields) (fun y => some (fs, y)) s r := by
  refine readsParts_fields.cut readsParts_moreFields (Or.inr rfl)
    (eq_none_of_closing (fun _ => field_barren) (Or.inr rfl)) h fun {x u ys} hx hm => ?_
  have hlt := Parsed.length_lt_of_map_pair hx
  exact ⟨cut_field hx, cut_moreFields hm⟩
termination_by 5 * s.length + 1

theorem cut_moreFields {s r : List Char} {fs : List (String × Expr)}
    (h : upTo (closing '\x7d') moreFields s = some (fs, r)) :
    Cut (fun _ => True) (upTo (closing '\x7d') moreFields) (fun y => some (fs, y)) s r := by
  refine readsParts_moreFields.cut readsParts_moreFields (Or.inr rfl)
    (comma_bind_eq_none (fun _ => field_barren) (Or.inr rfl)) h fun {x u ys} hx hm => ?_
  obtain ⟨v, hv, hx⟩ := Option.bind_eq_some_iff.1 hx
  have hlt := Parsed.length_lt_of_map_rest hv
  have hlt₁ := Parsed.length_lt_of_map_pair hx
  exact ⟨cut_comma_bind hv (cut_field hx) hlt₁, cut_moreFields hm⟩
termination_by 5 * s.length

theorem cut_statement {s r : List Char} {x : Statement} (h : statement s = some (x, r)) :
    Cut (fun y => endsStatement (y.dropWhile isSpace) = true) statement (fun y => some (x, y)) s
      r := by
  rw [statement_eq] at h
  rcases Option.or_eq_some_iff.1 h with h | ⟨-, h⟩
  · obtain ⟨⟨l, u⟩, hl, h⟩ := Option.bind_eq_some_iff.1 h
    obtain ⟨⟨e, v⟩, hv, heq⟩ := Option.map_eq_some_iff.1 h
    cases heq
    have hlt := Parsed.length_lt_of_map_pair hl
    have hlt₁ := Parsed.length_lt_of_map_pair hv
    obtain ⟨b, rfl, hb⟩ := cut_expr hv
    obtain ⟨a, rfl, ha⟩ := cut_statementLead hl
    refine ⟨a ++ b, by simp, fun y hy => ?_⟩
    rw [List.append_assoc, statement_eq, ha _ (startsLike_append hlt₁ y), Option.bind_some,
      hb y (over_of_endsStatement hy)]
    rfl
  · obtain ⟨⟨e, v⟩, hv, heq⟩ := Option.map_eq_some_iff.1 h
    cases heq
    obtain ⟨a, rfl, ha⟩ := cut_expr hv
    refine ⟨a, rfl, fun y hy => ?_⟩
    have hread := ha y (over_of_endsStatement hy)
    rw [statement_eq, hread]
    cases hl : statementLead (a ++ y) with
    | none => rfl
    | some p =>
      rw [Option.bind_some, expr_eq_none_of_statementLead hl hread hy]
      rfl
termination_by 5 * s.length + 3

/-- The first statement, with what is left out in front of it. -/
theorem cut_first {s r : List Char} {x : Statement} (h : statement (separators s) = some (x, r)) :
    Cut (fun y => endsStatement (y.dropWhile isSpace) = true) (fun s => statement (separators s))
      (fun y => some (x, y)) s r := by
  have hlt := Parsed.length_lt_of_map_pair h
  have hle := length_separators_le s
  obtain ⟨a, ha, hread⟩ := cut_statement h
  cases a with
  | nil =>
    rw [ha] at hlt
    exact absurd hlt (Nat.lt_irrefl _)
  | cons c a =>
    have hne : c ≠ '/' := by
      rintro rfl
      rw [ha, List.cons_append, statement_barren (by decide)] at h
      cases h
    obtain ⟨p, hp, hsep⟩ := cut_separators ha hne
    refine ⟨p ++ c :: a, by simpa using hp, fun y hy => ?_⟩
    rw [List.append_assoc, List.cons_append]
    dsimp only
    rw [hsep]
    exact hread y hy
termination_by 5 * s.length + 4

/-- Statements are read up to their brace. -/
theorem cut_statements {s r : List Char}
    (h : (View.statements s).2.dropWhile isSpacing = '\x7d' :: r) :
    ∃ p, s = p ++ '\x7d' :: r ∧ ∀ y,
      View.statements (p ++ '\x7d' :: y) = ((View.statements s).1, '\x7d' :: y) := by
  have hle := length_separators_le s
  rw [statements_eq s] at h ⊢
  cases hx : statement (separators s) with
  | none =>
    rw [hx] at h
    dsimp only at h
    have hs : separators s = '\x7d' :: r := by
      rw [← h]
      cases hs : separators s with
      | nil => rfl
      | cons c u => rw [List.dropWhile_cons_of_neg (by simp [isSpacing_of_separators hs])]
    obtain ⟨p, rfl, hp⟩ := cut_separators hs (by decide)
    refine ⟨p, rfl, fun y => ?_⟩
    rw [statements_eq, hp y, statement_barren (by decide)]
  | some q =>
    obtain ⟨x, u⟩ := q
    have hlt := Parsed.length_lt_of_map_pair hx
    have hld := Text.length_dropWhile_le isSpace u
    rw [hx] at h
    cases hu : endsStatement (u.dropWhile isSpace) with
    | false =>
      simp only [hu, Bool.false_eq_true, if_false] at h
      rw [endsStatement_of_spacing h] at hu
      cases hu
    | true =>
      simp only [hu, if_true] at h ⊢
      obtain ⟨d, hd, hread⟩ := cut_statements h
      obtain ⟨b, -, hb, hdrop⟩ := exists_dropWhile isSpace u
      rw [hd] at hu hb hdrop
      obtain ⟨p, hp, hcut⟩ := cut_first hx
      refine ⟨p ++ (b ++ d), ?_, fun y => ?_⟩
      · rw [hp, hb]
        simp
      · have hspace := hdrop _ (startsLike_cons d '\x7d' r y)
        have hends : endsStatement ((b ++ (d ++ '\x7d' :: y)).dropWhile isSpace) = true := by
          rw [hspace, endsStatement_append_brace d r, hu]
        have hfirst : statement (separators (p ++ (b ++ (d ++ '\x7d' :: y)))) =
            some (x, b ++ (d ++ '\x7d' :: y)) := hcut _ hends
        rw [List.append_assoc, List.append_assoc, statements_eq, hfirst]
        dsimp only
        rw [if_pos hends, hspace, hread y]
        rfl
termination_by 5 * s.length + 5

end

end View

end Body

end SpecEngine
