import Mathlib.Data.List.Infix
import SpecEngine.Outline.Token

/-!
# Cutting texts into tokens

What the tokens of a text are, without looking at how they are searched for.

* `raws_tokensFrom`: tokens lose no character; `chained_tokensFrom`: each starts where the one
  before it ends;
* `tokensFrom_append`: a text that starts with a line break is cut by itself, whatever stands
  before it, unless the break would be torn apart;
* `tokensFrom_keyword`, `tokensFrom_literal`, `tokensFrom_space`, `tokensFrom_newline`: tokens that
  are found where they are written; `tokensFrom_append_feed`: the tokens before and behind a line
  feed;
* `kinds_tokensFrom`: which tokens there are depends on the place before a text only through what
  it says about keywords.
-/

namespace SpecEngine

@[simp] theorem Parsed.pair_widen {α : Type} {m n : Nat} (p : Parsed α m) (h : m ≤ n) :
    (p.widen h).pair = p.pair := rfl

@[simp] theorem Parsed.pair_map {α β : Type} {n : Nat} (f : α → β) (p : Parsed α n) :
    (p.map f).pair = Prod.map f id p.pair := rfl

namespace Text

/-- Whether a text starts with a line feed or a carriage return. -/
def AtBreak : List Char → Prop
  | [] => False
  | c :: _ => c = '\r' ∨ c = '\n'

theorem atBreak_return (s : List Char) : AtBreak ('\r' :: s) := Or.inl rfl

theorem atBreak_feed (s : List Char) : AtBreak ('\n' :: s) := Or.inr rfl

theorem AtBreak.exists_cons {b : List Char} (h : AtBreak b) :
    ∃ c t, b = c :: t ∧ (c = '\r' ∨ c = '\n') := by
  cases b with
  | nil => exact h.elim
  | cons c t => exact ⟨c, t, rfl, h⟩

theorem AtBreak.atBoundary {b : List Char} (h : AtBreak b) : atBoundary b = true := by
  obtain ⟨c, t, rfl, rfl | rfl⟩ := h.exists_cons <;> rfl

theorem atBoundary_append {b : List Char} (h : AtBreak b) (s : List Char) :
    atBoundary (s ++ b) = atBoundary s := by
  cases s with
  | nil => exact h.atBoundary
  | cons c s => rfl

/-- Whether a character is a blank or a line break. -/
def IsBoundary (c : Char) : Prop :=
  c = ' ' ∨ c = '\t' ∨ c = '\r' ∨ c = '\n'

theorem atBoundary_cons_iff {c : Char} {s : List Char} :
    atBoundary (c :: s) = true ↔ IsBoundary c := by
  simp [atBoundary, IsBoundary, or_assoc]

/-- Words without boundaries inside that a boundary follows are told apart by their texts. -/
theorem append_inj_of_atBoundary {v w s t : List Char} (hv : ∀ c ∈ v, ¬ IsBoundary c)
    (hw : ∀ c ∈ w, ¬ IsBoundary c) (hs : atBoundary s = true) (ht : atBoundary t = true)
    (h : v ++ s = w ++ t) : v = w ∧ s = t := by
  induction v generalizing w with
  | nil =>
    cases w with
    | nil => exact ⟨rfl, h⟩
    | cons c w =>
      rw [List.nil_append] at h
      rw [h, List.cons_append, atBoundary_cons_iff] at hs
      exact absurd hs (hw c (by simp))
  | cons c v ih =>
    cases w with
    | nil =>
      rw [List.nil_append] at h
      rw [← h, List.cons_append, atBoundary_cons_iff] at ht
      exact absurd ht (hv c (by simp))
    | cons d w =>
      simp only [List.cons_append, List.cons.injEq] at h
      obtain ⟨rfl, h⟩ := h
      obtain ⟨rfl, rfl⟩ := ih (fun e he => hv e (by simp [he])) (fun e he => hw e (by simp [he])) h
      exact ⟨rfl, rfl⟩

theorem allowsKeyword_space : allowsKeyword (some ' ') = true := by decide +kernel

theorem allowsKeyword_feed : allowsKeyword (some '\n') = true := by decide +kernel

theorem after?_eq_some_iff {w s t : List Char} : after? w s = some t ↔ s = w ++ t :=
  ⟨eq_append_of_after?, fun h => h ▸ after?_append w t⟩

end Text

/-! ### Keywords -/

namespace Keyword

theorem mem_all (k : Keyword) : k ∈ all := by
  cases k with
  | hook h => cases h <;> decide
  | _ => decide

theorem text_toList_inj {j k : Keyword} (h : j.text.toList = k.text.toList) : j = k := by
  have hj := ofText?_text j
  rw [String.toList_inj.1 h, ofText?_text] at hj
  exact (Option.some.inj hj).symm

theorem not_isBoundary_of_mem_text (k : Keyword) : ∀ c ∈ k.text.toList, ¬ Text.IsBoundary c := by
  have h : (k.text.toList.all fun c => !Text.atBoundary [c]) = true := by
    cases k with
    | hook h => cases h <;> rfl
    | _ => rfl
  intro c hc hb
  have hc := List.all_eq_true.1 h c hc
  rw [Text.atBoundary_cons_iff.2 hb] at hc
  cases hc

theorem readAs_pair_eq_some_iff {j k : Keyword} {s t : List Char} :
    (j.readAs s).map Parsed.pair = some (k, t) ↔
      j = k ∧ s = k.text.toList ++ t ∧ Text.atBoundary t = true := by
  unfold readAs
  split
  · next h =>
    simp only [Option.map_none, reduceCtorEq, false_iff, not_and]
    rintro rfl rfl
    simp at h
  · next u h =>
    rw [Text.after?_eq_some_iff] at h
    split
    · next hu =>
      simp only [Option.map_some, Parsed.pair, Option.some.injEq, Prod.mk.injEq]
      constructor
      · rintro ⟨rfl, rfl⟩
        exact ⟨rfl, h, hu⟩
      · rintro ⟨rfl, ht, -⟩
        exact ⟨rfl, List.append_cancel_left (h.symm.trans ht)⟩
    · next hu =>
      simp only [Option.map_none, reduceCtorEq, false_iff, not_and]
      rintro rfl ht
      rwa [← List.append_cancel_left (h.symm.trans ht)]

/-- A keyword is read exactly where its text stands in front of a boundary. -/
theorem read_pair_eq_some_iff {k : Keyword} {s t : List Char} :
    (read s).map Parsed.pair = some (k, t) ↔
      s = k.text.toList ++ t ∧ Text.atBoundary t = true := by
  rw [read, List.map_findSome?]
  constructor
  · intro h
    obtain ⟨j, -, hj⟩ := List.exists_of_findSome?_eq_some h
    obtain ⟨rfl, hs⟩ := readAs_pair_eq_some_iff.1 hj
    exact hs
  · intro h
    have hk := readAs_pair_eq_some_iff.2 ⟨rfl, h⟩
    cases hf : all.findSome? (Option.map Parsed.pair ∘ fun k => k.readAs s) with
    | none =>
      have := List.findSome?_eq_none_iff.1 hf k (mem_all k)
      exact absurd (hk.symm.trans this) (by simp)
    | some r =>
      obtain ⟨j, u⟩ := r
      obtain ⟨i, -, hi⟩ := List.exists_of_findSome?_eq_some hf
      obtain ⟨rfl, hs, hu⟩ := readAs_pair_eq_some_iff.1 hi
      obtain ⟨hj, rfl⟩ := Text.append_inj_of_atBoundary (not_isBoundary_of_mem_text _)
        (not_isBoundary_of_mem_text _) hu h.2 (hs.symm.trans h.1)
      rw [text_toList_inj hj]

theorem read_append_of_atBreak {b : List Char} (hb : Text.AtBreak b) (s : List Char) :
    (read (s ++ b)).map Parsed.pair =
      ((read s).map Parsed.pair).map (Prod.map id (· ++ b)) := by
  refine Option.ext fun r => ?_
  obtain ⟨k, t⟩ := r
  rw [read_pair_eq_some_iff, Option.map_eq_some_iff]
  constructor
  · rintro ⟨h, ht⟩
    obtain ⟨u, rfl, rfl⟩ : ∃ u, s = k.text.toList ++ u ∧ t = u ++ b := by
      rcases List.append_eq_append_iff.1 h with ⟨u, hk, rfl⟩ | ⟨u, hs, ht⟩
      · cases u with
        | nil => exact ⟨[], by simpa using hk.symm, rfl⟩
        | cons c u =>
          -- no keyword reaches over a line break
          have hc : Text.IsBoundary c := Or.inr (Or.inr hb)
          exact absurd hc (k.not_isBoundary_of_mem_text c (by simp [hk]))
      · exact ⟨u, hs, ht⟩
    rw [Text.atBoundary_append hb] at ht
    exact ⟨(k, u), read_pair_eq_some_iff.2 ⟨rfl, ht⟩, rfl⟩
  · rintro ⟨⟨j, u⟩, hj, heq⟩
    obtain ⟨rfl, hu⟩ := read_pair_eq_some_iff.1 hj
    cases heq
    exact ⟨by simp, by rwa [Text.atBoundary_append hb]⟩

end Keyword

/-! ### One token -/

namespace Token

theorem eq_append_of_closeQuote {s : List Char} {p : Parsed (List Char) s.length}
    (h : closeQuote s = some p) : s = p.value ++ '\'' :: p.rest := by
  induction s with
  | nil => cases h
  | cons c s ih =>
    unfold closeQuote at h
    split at h
    · cases h
    · split at h
      · next hc =>
        cases h
        simp only [Bool.and_eq_true, decide_eq_true_eq] at hc
        rw [hc.1]
        rfl
      · obtain ⟨q, hq, rfl⟩ := Option.map_eq_some_iff.1 h
        exact congrArg (c :: ·) (ih hq)

theorem closeQuote_append_of_atBreak {b : List Char} (hb : Text.AtBreak b) (s : List Char) :
    (closeQuote (s ++ b)).map Parsed.pair =
      ((closeQuote s).map Parsed.pair).map (Prod.map id (· ++ b)) := by
  induction s with
  | nil =>
    obtain ⟨c, t, rfl, rfl | rfl⟩ := hb.exists_cons <;> rfl
  | cons c s ih =>
    simp only [List.cons_append, closeQuote, Text.atBoundary_append hb]
    split
    · rfl
    · split
      · rfl
      · have := congrArg (Option.map (Prod.map (c :: ·) id)) ih
        simpa [Option.map_map, Function.comp_def, Parsed.pair, Parsed.map, Parsed.widen] using this

/-- Texts that can stand between quotes: on one line, and without a quote that ends them early. -/
structure IsTitle (d : List Char) : Prop where
  no_return : '\r' ∉ d
  no_feed : '\n' ∉ d
  no_quote_space : ¬ ['\'', ' '] <:+: d
  no_quote_tab : ¬ ['\'', '\t'] <:+: d

instance (d : List Char) : Decidable (IsTitle d) :=
  decidable_of_iff
    ('\r' ∉ d ∧ '\n' ∉ d ∧ ¬ ['\'', ' '] <:+: d ∧ ¬ ['\'', '\t'] <:+: d)
    ⟨fun ⟨hr, hn, hs, ht⟩ => ⟨hr, hn, hs, ht⟩, fun ⟨hr, hn, hs, ht⟩ => ⟨hr, hn, hs, ht⟩⟩

namespace IsTitle

theorem tail {c : Char} {d : List Char} (h : IsTitle (c :: d)) : IsTitle d where
  no_return := fun hd => h.no_return (List.mem_cons_of_mem _ hd)
  no_feed := fun hd => h.no_feed (List.mem_cons_of_mem _ hd)
  no_quote_space := fun hd => h.no_quote_space (List.infix_cons hd)
  no_quote_tab := fun hd => h.no_quote_tab (List.infix_cons hd)

theorem not_atBoundary {d : List Char} (h : IsTitle ('\'' :: d)) (t : List Char) :
    Text.atBoundary (d ++ '\'' :: t) = false := by
  cases d with
  | nil => rfl
  | cons c d =>
    have hc : ¬ Text.IsBoundary c := by
      rintro (rfl | rfl | rfl | rfl)
      · exact h.no_quote_space ⟨[], d, rfl⟩
      · exact h.no_quote_tab ⟨[], d, rfl⟩
      · exact h.no_return (by simp)
      · exact h.no_feed (by simp)
    rw [← Bool.not_eq_true, List.cons_append, Text.atBoundary_cons_iff]
    exact hc

end IsTitle

/-- The quote that closes a title is the one behind it. -/
theorem closeQuote_title {d rest : List Char} (hd : IsTitle d)
    (hr : Text.atBoundary rest = true) :
    (closeQuote (d ++ '\'' :: rest)).map Parsed.pair = some (d, rest) := by
  induction d with
  | nil => simp [closeQuote, hr, Parsed.pair]
  | cons c d ih =>
    have hb : (c = '\'' && Text.atBoundary (d ++ '\'' :: rest)) = false := by
      by_cases hc : c = '\''
      · subst hc
        simp [hd.not_atBoundary]
      · simp [hc]
    have hc : (c = '\n' || c = '\r') = false := by
      have hr := hd.no_return
      have hf := hd.no_feed
      simp only [List.mem_cons, not_or] at hr hf
      simp [Ne.symm hr.1, Ne.symm hf.1]
    have ih := congrArg (Option.map (Prod.map (c :: ·) id)) (ih hd.tail)
    simp only [List.cons_append, closeQuote, hb, hc]
    simpa [Option.map_map, Function.comp_def, Parsed.pair, Parsed.map, Parsed.widen] using ih

theorem readLiteral_pair (s : List Char) :
    (readLiteral ('\'' :: s)).map Parsed.pair = (closeQuote s).map Parsed.pair := by
  rw [readLiteral, Option.map_map]
  rfl

theorem readLiteral_of_ne {c : Char} (h : c ≠ '\'') (s : List Char) :
    readLiteral (c :: s) = none := by
  simp [readLiteral, h]

theorem eq_append_of_readLiteral {s d t : List Char}
    (h : (readLiteral s).map Parsed.pair = some (d, t)) : s = '\'' :: (d ++ '\'' :: t) := by
  unfold readLiteral at h
  split at h
  · rw [Option.map_map] at h
    obtain ⟨p, hp, heq⟩ := Option.map_eq_some_iff.1 h
    cases heq
    exact congrArg ('\'' :: ·) (eq_append_of_closeQuote hp)
  · cases h

theorem readLiteral_append_of_atBreak {b : List Char} (hb : Text.AtBreak b) (c : Char)
    (s : List Char) :
    (readLiteral (c :: s ++ b)).map Parsed.pair =
      ((readLiteral (c :: s)).map Parsed.pair).map (Prod.map id (· ++ b)) := by
  by_cases hc : c = '\''
  · subst hc
    rw [List.cons_append, readLiteral_pair, readLiteral_pair, closeQuote_append_of_atBreak hb]
  · rw [List.cons_append, readLiteral_of_ne hc, readLiteral_of_ne hc]
    rfl

theorem readComment_of_ne {c d : Char} (h : ¬ (c = '/' ∧ d = '/')) (s : List Char) :
    readComment (c :: d :: s) = none := by
  rw [readComment]
  intro t ht
  simp only [List.cons.injEq] at ht
  exact h ⟨ht.1, ht.2.1⟩

theorem eq_append_of_readComment {s t : List Char}
    (h : (readComment s).map Parsed.pair = some ((), t)) : s = '/' :: '/' :: t := by
  unfold readComment at h
  split at h
  · cases h
    rfl
  · cases h

theorem readComment_append_of_atBreak {b : List Char} (hb : Text.AtBreak b) (c : Char)
    (s : List Char) :
    (readComment (c :: s ++ b)).map Parsed.pair =
      ((readComment (c :: s)).map Parsed.pair).map (Prod.map id (· ++ b)) := by
  cases s with
  | nil =>
    obtain ⟨d, t, rfl, rfl | rfl⟩ := hb.exists_cons <;> simp [readComment]
  | cons d s =>
    by_cases h : c = '/' ∧ d = '/'
    · obtain ⟨rfl, rfl⟩ := h
      rfl
    · rw [List.cons_append, List.cons_append, readComment_of_ne h, readComment_of_ne h]
      rfl

theorem readNewline_of_ne {c : Char} (hr : c ≠ '\r') (hn : c ≠ '\n') (s : List Char) :
    readNewline (c :: s) = none := by
  rw [readNewline]
  · intro t ht
    exact hr (List.cons.inj ht).1
  · intro t ht
    exact hn (List.cons.inj ht).1

theorem readNewline_return {s : List Char} (h : s.head? ≠ some '\n') :
    readNewline ('\r' :: s) = none := by
  rw [readNewline]
  · rintro t ht
    cases ht
    exact h rfl
  · intro t ht
    simp at ht

theorem eq_append_of_readNewline {s t : List Char} {carriage : Bool}
    (h : (readNewline s).map Parsed.pair = some (carriage, t)) :
    s = (Token.newline carriage).raw ++ t := by
  unfold readNewline at h
  split at h
  · cases h
    rfl
  · cases h
    rfl
  · cases h

theorem readNewline_append {b : List Char} (c : Char) (s : List Char)
    (h : ¬ ((c :: s).getLast? = some '\r' ∧ b.head? = some '\n')) :
    (readNewline (c :: s ++ b)).map Parsed.pair =
      ((readNewline (c :: s)).map Parsed.pair).map (Prod.map id (· ++ b)) := by
  by_cases hn : c = '\n'
  · subst hn
    rfl
  by_cases hr : c = '\r'
  · subst hr
    cases s with
    | nil =>
      have hb : b.head? ≠ some '\n' := fun hbn => h ⟨rfl, hbn⟩
      rw [List.cons_append, List.nil_append, readNewline_return hb]
      rfl
    | cons d s =>
      by_cases hd : d = '\n'
      · subst hd
        rfl
      · have hs : ∀ t, (d :: t).head? ≠ some '\n' := fun t => by simpa using hd
        rw [List.cons_append, List.cons_append, readNewline_return (hs _),
          readNewline_return (hs _)]
        rfl
  · rw [List.cons_append, readNewline_of_ne hr hn, readNewline_of_ne hr hn]
    rfl

/-- What a token is read as, in the order in which the readings are tried. -/
theorem read_pair (keywords : Bool) (c : Char) (s : List Char) :
    (read keywords c s).pair =
      (((if keywords then (Keyword.read (c :: s)).map Parsed.pair else none).map
          (Prod.map Token.keyword id)).or <|
        (((readLiteral (c :: s)).map Parsed.pair).map (Prod.map Token.literal id)).or <|
        (((readComment (c :: s)).map Parsed.pair).map (Prod.map (fun _ => Token.comment) id)).or <|
        ((readNewline (c :: s)).map Parsed.pair).map (Prod.map Token.newline id)).getD
      (.char c, s) := by
  unfold read
  cases keywords <;> cases Keyword.read (c :: s) <;> cases readLiteral (c :: s) <;>
    cases readComment (c :: s) <;> cases readNewline (c :: s) <;> rfl

/-- Reading a token takes its text from the front. -/
theorem eq_append_of_read {keywords : Bool} {c : Char} {s t : List Char} {token : Token}
    (h : (read keywords c s).pair = (token, t)) : c :: s = token.raw ++ t := by
  rw [read_pair] at h
  cases hk : (if keywords then (Keyword.read (c :: s)).map Parsed.pair else none) with
  | some r =>
    rw [hk] at h
    cases h
    split at hk
    · exact (Keyword.read_pair_eq_some_iff.1 hk).1
    · cases hk
  | none =>
    cases hl : (readLiteral (c :: s)).map Parsed.pair with
    | some r =>
      rw [hk, hl] at h
      cases h
      simpa [raw] using eq_append_of_readLiteral hl
    | none =>
      cases hc : (readComment (c :: s)).map Parsed.pair with
      | some r =>
        rw [hk, hl, hc] at h
        cases h
        exact eq_append_of_readComment hc
      | none =>
        cases hn : (readNewline (c :: s)).map Parsed.pair with
        | some r =>
          rw [hk, hl, hc, hn] at h
          cases h
          exact eq_append_of_readNewline hn
        | none =>
          rw [hk, hl, hc, hn] at h
          cases h
          rfl

/-- What follows a line does not change how its characters are read. -/
theorem read_append_of_atBreak {b : List Char} (hb : Text.AtBreak b) (keywords : Bool) (c : Char)
    (s : List Char) (h : ¬ ((c :: s).getLast? = some '\r' ∧ b.head? = some '\n')) :
    (read keywords c (s ++ b)).pair = Prod.map id (· ++ b) (read keywords c s).pair := by
  rw [read_pair, read_pair, ← List.cons_append, Keyword.read_append_of_atBreak hb,
    readLiteral_append_of_atBreak hb, readComment_append_of_atBreak hb,
    readNewline_append c s h]
  cases keywords <;> cases Keyword.read (c :: s) <;> cases readLiteral (c :: s) <;>
    cases readComment (c :: s) <;> cases readNewline (c :: s) <;> rfl

theorem raw_ne_nil (token : Token) : token.raw ≠ [] := by
  cases token with
  | keyword k => exact List.length_pos_iff.1 k.length_text_pos
  | newline carriage => cases carriage <;> simp [raw]
  | _ => simp [raw]

end Token

/-! ### All tokens -/

/-- The text that tokens make together. -/
def raws (ts : List Located) : List Char :=
  ts.flatMap fun t => t.token.raw

@[simp] theorem raws_nil : raws [] = [] := rfl

@[simp] theorem raws_cons (t : Located) (ts : List Located) :
    raws (t :: ts) = t.token.raw ++ raws ts := rfl

@[simp] theorem raws_append (ts us : List Located) : raws (ts ++ us) = raws ts ++ raws us :=
  List.flatMap_append

/-- Tokens that stand one behind the other from a place on. -/
def Chained : Place → List Located → Prop
  | _, [] => True
  | p, t :: ts => t.place = p ∧ Chained (p.after t.token.raw) ts

/-- A token stands behind the tokens before it. -/
theorem Chained.place_eq {p : Place} (ts us : List Located) {t : Located}
    (h : Chained p (ts ++ t :: us)) : t.place = p.after (raws ts) := by
  induction ts generalizing p with
  | nil => exact h.1
  | cons u ts ih =>
    rw [ih h.2, raws_cons, Place.after_append]

@[simp] theorem tokensFrom_nil (previous : Option Char) (p : Place) :
    tokensFrom previous p [] = [] := by
  rw [tokensFrom]

theorem tokensFrom_cons {previous : Option Char} {c : Char} {s t : List Char} {token : Token}
    (h : (Token.read (Text.allowsKeyword previous) c s).pair = (token, t)) (p : Place) :
    tokensFrom previous p (c :: s) =
      ⟨token, p⟩ :: tokensFrom token.raw.getLast? (p.after token.raw) t := by
  rw [tokensFrom]
  split
  next hr =>
  rw [hr] at h
  cases h
  rfl

/-- What is shown for a text by its first token and the rest holds for all texts. -/
theorem tokensFrom_induction {motive : Option Char → Place → List Char → Prop}
    (nil : ∀ previous p, motive previous p [])
    (cons : ∀ previous p c s token t,
      (Token.read (Text.allowsKeyword previous) c s).pair = (token, t) → c :: s = token.raw ++ t →
      motive token.raw.getLast? (p.after token.raw) t → motive previous p (c :: s))
    (previous : Option Char) (p : Place) (s : List Char) : motive previous p s := by
  fun_induction tokensFrom previous p s with
  | case1 previous p => exact nil previous p
  | case2 previous p c s token t ht hr ih =>
    have h : (Token.read (Text.allowsKeyword previous) c s).pair = (token, t) := by rw [hr]; rfl
    exact cons previous p c s token t h (Token.eq_append_of_read h) ih

/-- Tokens lose no character. -/
@[simp] theorem raws_tokensFrom (previous : Option Char) (p : Place) (s : List Char) :
    raws (tokensFrom previous p s) = s := by
  induction previous, p, s using tokensFrom_induction with
  | nil => simp
  | cons previous p c s token t h hs ih => rw [tokensFrom_cons h, raws_cons, ih, hs]

theorem chained_tokensFrom (previous : Option Char) (p : Place) (s : List Char) :
    Chained p (tokensFrom previous p s) := by
  induction previous, p, s using tokensFrom_induction with
  | nil => simp [Chained]
  | cons previous p c s token t h hs ih =>
    rw [tokensFrom_cons h]
    exact ⟨rfl, ih⟩

/-- Which tokens there are depends on what stands before a text only through whether a keyword may
follow it. -/
theorem kinds_tokensFrom (previous : Option Char) (p : Place) (s : List Char)
    {previous' : Option Char} (hp : Text.allowsKeyword previous' = Text.allowsKeyword previous)
    (p' : Place) :
    (tokensFrom previous' p' s).map Located.token =
      (tokensFrom previous p s).map Located.token := by
  induction previous, p, s using tokensFrom_induction generalizing previous' p' with
  | nil => simp
  | cons previous p c s token t h hs ih =>
    rw [tokensFrom_cons h, tokensFrom_cons (hp ▸ h), List.map_cons, List.map_cons,
      ih rfl]

/-- A text that starts with a line break is cut by itself, whatever stands before it, unless the
line break would be torn apart. -/
theorem tokensFrom_append {b : List Char} (hb : Text.AtBreak b) (previous : Option Char) (p : Place)
    (s : List Char) (h : ¬ (s.getLast? = some '\r' ∧ b.head? = some '\n')) :
    tokensFrom previous p (s ++ b) =
      tokensFrom previous p s ++ tokensFrom (s.getLast?.or previous) (p.after s) b := by
  induction previous, p, s using tokensFrom_induction with
  | nil => simp
  | cons previous p c s token t hr hs ih =>
    have hb' : (Token.read (Text.allowsKeyword previous) c (s ++ b)).pair = (token, t ++ b) := by
      rw [Token.read_append_of_atBreak hb _ c s h, hr]
      rfl
    have hl : (c :: s).getLast? = t.getLast?.or token.raw.getLast? := by
      rw [hs, List.getLast?_append]
    have hn : token.raw.getLast?.or previous = token.raw.getLast? := by
      rw [List.getLast?_eq_some_getLast token.raw_ne_nil]
      rfl
    have ht : ¬ (t.getLast? = some '\r' ∧ b.head? = some '\n') := by
      rintro ⟨ht, hbn⟩
      exact h ⟨by rw [hl, ht]; rfl, hbn⟩
    rw [List.cons_append, tokensFrom_cons hb', tokensFrom_cons hr, ih ht, hl, Option.or_assoc, hn,
      hs, Place.after_append]
    rfl

/-! ### Tokens where they are written -/

theorem Token.read_keyword {k : Keyword} {c : Char} {s t : List Char}
    (h : c :: s = k.text.toList ++ t) (ht : Text.atBoundary t = true) :
    (read true c s).pair = (.keyword k, t) := by
  rw [read_pair, if_pos rfl, Keyword.read_pair_eq_some_iff.2 ⟨h, ht⟩]
  rfl

theorem tokensFrom_keyword {previous : Option Char} (hp : Text.allowsKeyword previous = true)
    (p : Place) (k : Keyword) {rest : List Char} (hr : Text.atBoundary rest = true) :
    tokensFrom previous p (k.text.toList ++ rest) =
      ⟨.keyword k, p⟩ :: tokensFrom k.text.toList.getLast? (p.after k.text.toList) rest := by
  obtain ⟨c, s, hs⟩ := List.exists_cons_of_length_pos
    (l := k.text.toList ++ rest) (by have := k.length_text_pos; simp; omega)
  rw [hs]
  refine tokensFrom_cons ?_ p
  rw [hp]
  exact Token.read_keyword hs.symm hr

/-- No keyword starts with a character that is in none of them. -/
theorem Keyword.read_pair_of_notMem {c : Char} (hc : ∀ k : Keyword, c ∉ k.text.toList)
    (s : List Char) : (Keyword.read (c :: s)).map Parsed.pair = none := by
  refine Option.eq_none_iff_forall_ne_some.2 fun r hr => ?_
  have hs := (Keyword.read_pair_eq_some_iff (k := r.1) (t := r.2)).1 hr
  have hl := r.1.length_text_pos
  cases hk : r.1.text.toList with
  | nil => simp [hk] at hl
  | cons d w =>
    rw [hk] at hs
    exact hc r.1 (by rw [hk, (List.cons.inj hs.1).1]; simp)

theorem Token.read_literal {s d t : List Char}
    (h : (closeQuote s).map Parsed.pair = some (d, t)) (keywords : Bool) :
    (read keywords '\'' s).pair = (.literal d, t) := by
  rw [read_pair, Keyword.read_pair_of_notMem, readLiteral_pair, h]
  · split <;> rfl
  · rintro (_ | _ | ⟨_ | _ | _ | _⟩ | _ | _) <;> decide

theorem tokensFrom_literal (previous : Option Char) (p : Place) {d rest : List Char}
    (hd : Token.IsTitle d) (hr : Text.atBoundary rest = true) :
    tokensFrom previous p ((Token.literal d).raw ++ rest) =
      ⟨.literal d, p⟩ :: tokensFrom (some '\'') (p.after (Token.literal d).raw) rest := by
  have hq : (Token.literal d).raw ++ rest = '\'' :: (d ++ '\'' :: rest) := by simp [Token.raw]
  have hl : (Token.literal d).raw.getLast? = some '\'' := by
    rw [Token.raw, ← List.cons_append, List.getLast?_append]
    rfl
  rw [hq, ← hl]
  exact tokensFrom_cons (Token.read_literal (Token.closeQuote_title hd hr) _) p

theorem tokensFrom_space (previous : Option Char) (p : Place) (s : List Char) :
    tokensFrom previous p (' ' :: s) =
      ⟨.char ' ', p⟩ :: tokensFrom (some ' ') (p.after [' ']) s := by
  refine tokensFrom_cons ?_ p
  rw [Token.read_pair, Keyword.read_pair_of_notMem, Token.readLiteral_of_ne (by decide),
    Token.readNewline_of_ne (by decide) (by decide)]
  · split <;> simp [Token.readComment]
  · exact fun k hk => k.not_isBoundary_of_mem_text ' ' hk (Or.inl rfl)

theorem Token.read_newline {carriage : Bool} {c : Char} {s t : List Char}
    (h : c :: s = (newline carriage).raw ++ t) (keywords : Bool) :
    (read keywords c s).pair = (.newline carriage, t) := by
  have hb : ∀ k : Keyword, c ∉ k.text.toList := fun k hk =>
    k.not_isBoundary_of_mem_text c hk <| by
      cases carriage <;> obtain ⟨rfl, -⟩ := List.cons.inj h
      · exact Or.inr (Or.inr (Or.inr rfl))
      · exact Or.inr (Or.inr (Or.inl rfl))
  rw [read_pair, Keyword.read_pair_of_notMem hb]
  cases carriage <;> obtain ⟨rfl, rfl⟩ := List.cons.inj h <;>
    · rw [readLiteral_of_ne (by decide)]
      split <;> simp [readComment, readNewline, Parsed.pair]

theorem tokensFrom_newline (previous : Option Char) (p : Place) (s : List Char) :
    tokensFrom previous p ('\n' :: s) =
      ⟨.newline false, p⟩ :: tokensFrom (some '\n') (p.after ['\n']) s :=
  tokensFrom_cons (Token.read_newline rfl _) p

theorem tokensFrom_return_newline (previous : Option Char) (p : Place) (s : List Char) :
    tokensFrom previous p ('\r' :: '\n' :: s) =
      ⟨.newline true, p⟩ :: tokensFrom (some '\n') (p.after ['\r', '\n']) s :=
  tokensFrom_cons (Token.read_newline rfl _) p

theorem tokensFrom_return (previous : Option Char) (p : Place) :
    tokensFrom previous p ['\r'] = [⟨.char '\r', p⟩] := by
  have hr : (Token.read (Text.allowsKeyword previous) '\r' []).pair = (.char '\r', []) := by
    cases Text.allowsKeyword previous <;> rfl
  rw [tokensFrom_cons hr, tokensFrom_nil]

/-- The tokens of a text in front of a line feed are its own, but for a return at its end, which
the line feed takes to itself. -/
theorem tokensFrom_append_feed (previous : Option Char) (p : Place) (s t : List Char) :
    ∃ ts carriage q,
      tokensFrom previous p (s ++ '\n' :: t) =
        ts ++ ⟨.newline carriage, q⟩ :: tokensFrom (some '\n') (p.after (s ++ ['\n'])) t ∧
      raws ts ++ (Token.newline carriage).raw = s ++ ['\n'] ∧
      (tokensFrom previous p s = ts ∨ ∃ q, tokensFrom previous p s = ts ++ [⟨.char '\r', q⟩]) := by
  by_cases hr : s.getLast? = some '\r'
  · obtain ⟨u, rfl⟩ := List.getLast?_eq_some_iff.1 hr
    have hu : ∀ b : List Char, ¬ (u.getLast? = some '\r' ∧ ('\r' :: b).head? = some '\n') := by
      simp
    refine ⟨tokensFrom previous p u, true, p.after u, ?_, by simp [Token.raw],
      Or.inr ⟨p.after u, ?_⟩⟩
    · rw [List.append_assoc, List.singleton_append, tokensFrom_append (Text.atBreak_return _) _ _ _
        (hu _), tokensFrom_return_newline]
      simp
    · rw [tokensFrom_append (Text.atBreak_return _) _ _ _ (hu _), tokensFrom_return]
  · refine ⟨tokensFrom previous p s, false, p.after s, ?_, by simp [Token.raw], Or.inl rfl⟩
    rw [tokensFrom_append (Text.atBreak_feed _) _ _ _ fun h => hr h.1, tokensFrom_newline]
    simp

/-! ### Texts without keywords -/

/-- The keyword that a token is. -/
def Token.keyword? : Token → Option Keyword
  | .keyword k => some k
  | _ => none

/-- Texts that by themselves hold no keyword. -/
def KeywordFree (s : List Char) : Prop :=
  ∀ t ∈ tokens s, t.token.keyword? = none

instance (s : List Char) : Decidable (KeywordFree s) :=
  inferInstanceAs (Decidable (∀ t ∈ tokens s, t.token.keyword? = none))

namespace KeywordFree

theorem keyword?_eq_none {s : List Char} (h : KeywordFree s) {previous : Option Char}
    (hp : Text.allowsKeyword previous = true) (p : Place) :
    ∀ t ∈ tokensFrom previous p s, t.token.keyword? = none := by
  intro t ht
  have hm := List.mem_map_of_mem (f := Located.token) ht
  rw [kinds_tokensFrom none Place.first s (hp.trans rfl) p] at hm
  obtain ⟨u, hu, htu⟩ := List.mem_map.1 hm
  exact htu ▸ h u hu

/-- A text without keywords stays one in front of a line feed, which ends it: the line feed
belongs to it, with a carriage return before it or without. -/
theorem exists_tokensFrom {s : List Char} (h : KeywordFree s) {previous : Option Char}
    (hp : Text.allowsKeyword previous = true) (p : Place) (rest : List Char) :
    ∃ ts, tokensFrom previous p (s ++ '\n' :: rest) =
        ts ++ tokensFrom (some '\n') (p.after (s ++ ['\n'])) rest ∧
      raws ts = s ++ ['\n'] ∧ ∀ t ∈ ts, t.token.keyword? = none := by
  obtain ⟨ts, carriage, q, htokens, hraws, hown⟩ := tokensFrom_append_feed previous p s rest
  refine ⟨ts ++ [⟨.newline carriage, q⟩], by rw [htokens, List.append_assoc]; rfl, ?_, ?_⟩
  · rw [raws_append, raws_cons, raws_nil, List.append_nil, hraws]
  · have hts : ∀ t ∈ ts, t ∈ tokensFrom previous p s := by
      intro t ht
      rcases hown with hs | ⟨q, hs⟩
      · exact hs ▸ ht
      · exact hs ▸ List.mem_append_left _ ht
    intro t ht
    rcases List.mem_append.1 ht with ht | ht
    · exact h.keyword?_eq_none hp p t (hts t ht)
    · rw [List.mem_singleton.1 ht]
      rfl

end KeywordFree

end SpecEngine
