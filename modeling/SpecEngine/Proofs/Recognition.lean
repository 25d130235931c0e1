import SpecEngine.Proofs.Coverage
import SpecEngine.Proofs.Lookalikes

/-!
# Where keywords and literals are

Tokens are found one after the other, each where the one before it ends.  Which of them are keywords
and literals can be told from the text around a place, and from whether a literal reaches over it.

* `Encloses`, `closeQuote_eq_some_iff`: which quote closes a literal; `encloses_iff`: what may be
  between the quotes;
* `eq_or_stop_le`: tokens do not overlap; `exists_token_at`: every place lies in a token;
* `SpansLiteral`, `SpansKeyword`, `InsideLiteral`: literals and keywords by their first byte and the
  byte behind them; `exists_token_of_not_inside`: a token starts at every place where a quote or a
  keyword could be read, unless a literal reaches over it;
* `spansLiteral_iff`, `spansKeyword_iff`: where literals and keywords are; `recovers_iff`: which
  texts a literal gives back.
-/

namespace SpecEngine

namespace Text

theorem allowsKeyword_iff {previous : Option Char} :
    allowsKeyword previous = true ↔
      ∀ c, previous = some c → isAlphanumeric c = false ∧ c ≠ '_' := by
  cases previous <;> simp [allowsKeyword]

/-- No keyword follows a character of a keyword. -/
theorem not_allowsKeyword_of_mem_text {k : Keyword} {c : Char} (hc : c ∈ k.text.toList) :
    allowsKeyword (some c) = false := by
  have h : (k.text.toList.all fun c => !allowsKeyword (some c)) = true := by
    cases k with
    | hook h => cases h <;> decide +kernel
    | _ => decide +kernel
  simpa using List.all_eq_true.1 h c hc

end Text

/-! ### Closing quotes -/

namespace Token

/-- Whether a literal with the text `d` ends in front of `r`: it stays on its line, and its closing
quote is the first one that a blank, a line break or the end of the text follows. -/
def Encloses (d r : List Char) : Prop :=
  ('\n' ∉ d ∧ '\r' ∉ d) ∧ Text.atBoundary r = true ∧
    ∀ d₁ d₂, d = d₁ ++ '\'' :: d₂ → Text.atBoundary (d₂ ++ '\'' :: r) = false

theorem encloses_nil {r : List Char} (hr : Text.atBoundary r = true) : Encloses [] r :=
  ⟨by simp, hr, fun d₁ d₂ h => by simp at h⟩

theorem Encloses.cons {c : Char} {d r : List Char} (h : Encloses d r) (hn : c ≠ '\n')
    (hr : c ≠ '\r') (hq : ¬ (c = '\'' ∧ Text.atBoundary (d ++ '\'' :: r) = true)) :
    Encloses (c :: d) r := by
  obtain ⟨⟨hdn, hdr⟩, hb, hd⟩ := h
  refine ⟨⟨List.not_mem_cons_of_ne_of_not_mem hn.symm hdn,
    List.not_mem_cons_of_ne_of_not_mem hr.symm hdr⟩, hb, fun d₁ d₂ h => ?_⟩
  cases d₁ with
  | nil =>
    obtain ⟨rfl, rfl⟩ := List.cons.inj h
    exact Bool.eq_false_iff.2 fun ht => hq ⟨rfl, ht⟩
  | cons e d₁ => exact hd d₁ d₂ (List.cons.inj h).2

/-- Between the quotes of a literal there is a title. -/
theorem encloses_iff {d r : List Char} :
    Encloses d r ↔ IsTitle d ∧ Text.atBoundary r = true := by
  constructor
  · rintro ⟨⟨hn, hr⟩, hb, hd⟩
    refine ⟨⟨hr, hn, ?_, ?_⟩, hb⟩ <;>
      · rintro ⟨d₁, d₂, rfl⟩
        have := hd d₁ (_ :: d₂) (by simp; rfl)
        cases this
  · rintro ⟨ht, hb⟩
    induction d with
    | nil => exact encloses_nil hb
    | cons c d ih =>
      refine (ih ht.tail).cons ?_ ?_ ?_
      · rintro rfl
        exact ht.no_feed (by simp)
      · rintro rfl
        exact ht.no_return (by simp)
      · rintro ⟨rfl, hq⟩
        rw [ht.not_atBoundary] at hq
        cases hq

/-- The closing quote that is found is the one of the literal. -/
theorem closeQuote_eq_some_iff {s d r : List Char} :
    (closeQuote s).map Parsed.pair = some (d, r) ↔ s = d ++ '\'' :: r ∧ Encloses d r := by
  constructor
  · intro h
    induction s generalizing d with
    | nil => cases h
    | cons c s ih =>
      obtain ⟨⟨hn, hr⟩, ⟨rfl, hb, rfl, rfl⟩ | ⟨hq, d', rfl, hd⟩⟩ := closeQuote_cons h
      · exact ⟨rfl, encloses_nil hb⟩
      · obtain ⟨rfl, he⟩ := ih hd
        exact ⟨rfl, he.cons hn hr hq⟩
  · rintro ⟨rfl, he⟩
    obtain ⟨ht, hr⟩ := encloses_iff.1 he
    exact closeQuote_title ht hr

theorem read_eq_literal_iff {keywords : Bool} {c : Char} {s d r : List Char} :
    (read keywords c s).pair = (.literal d, r) ↔
      c = '\'' ∧ s = d ++ '\'' :: r ∧ Encloses d r := by
  constructor
  · intro h
    obtain ⟨rfl, hd⟩ := closeQuote_of_read h
    exact ⟨rfl, closeQuote_eq_some_iff.1 hd⟩
  · rintro ⟨rfl, h⟩
    exact read_literal (closeQuote_eq_some_iff.2 h) keywords

theorem read_eq_keyword_iff {keywords : Bool} {c : Char} {s r : List Char} {k : Keyword} :
    (read keywords c s).pair = (.keyword k, r) ↔
      keywords = true ∧ c :: s = k.text.toList ++ r ∧ Text.atBoundary r = true := by
  constructor
  · intro h
    obtain ⟨hk, hr⟩ := atBoundary_of_read h
    exact ⟨hk, eq_append_of_read h, hr⟩
  · rintro ⟨rfl, h, hr⟩
    exact read_keyword h hr

theorem read_eq_comment_iff {keywords : Bool} {c : Char} {s r : List Char} :
    (read keywords c s).pair = (.comment, r) ↔ c :: s = comment.raw ++ r := by
  constructor
  · exact eq_append_of_read
  · intro h
    obtain ⟨rfl, rfl⟩ := List.cons.inj h
    have hk : ∀ k : Keyword, '/' ∉ k.text.toList := fun k hk =>
      absurd (Text.not_allowsKeyword_of_mem_text hk) (by decide +kernel)
    rw [read_pair, Keyword.read_pair_of_notMem hk, readLiteral_of_ne (by decide)]
    split <;> rfl

theorem read_eq_newline_iff {keywords carriage : Bool} {c : Char} {s r : List Char} :
    (read keywords c s).pair = (.newline carriage, r) ↔ c :: s = (newline carriage).raw ++ r :=
  ⟨eq_append_of_read, fun h => read_newline h keywords⟩

/-- No token but a literal has a quote behind its first character. -/
theorem literal_of_quote {token : Token} {w x : List Char} (h : token.raw = w ++ '\'' :: x)
    (hw : w ≠ []) : ∃ d, token = .literal d := by
  rcases exists_literal_of_quote_mem (show '\'' ∈ token.raw by simp [h]) with rfl | hd
  · cases w with
    | nil => exact absurd rfl hw
    | cons c w => simp [raw] at h
  · exact hd

/-- No token but a literal has a character of a keyword behind one that a keyword may follow. -/
theorem literal_of_keyword {token : Token} {w x : List Char} {c : Char}
    (h : token.raw = w ++ c :: x) (hw : w ≠ []) (hc : Text.allowsKeyword (some c) = false)
    (ha : Text.allowsKeyword w.getLast? = true) : ∃ d, token = .literal d := by
  obtain ⟨v, e, rfl⟩ := (List.eq_nil_or_concat' w).resolve_left hw
  cases token with
  | literal d => exact ⟨d, rfl⟩
  | keyword k =>
    have he : e ∈ k.text.toList := by
      rw [show k.text.toList = (keyword k).raw from rfl, h]
      simp
    rw [List.getLast?_append, List.getLast?_singleton, Option.some_or,
      Text.not_allowsKeyword_of_mem_text he] at ha
    cases ha
  | comment =>
    have hm : c ∈ comment.raw := by simp [h]
    have : c = '/' := by simpa [raw] using hm
    rw [this] at hc
    exact absurd hc (by decide +kernel)
  | newline carriage =>
    have hm : c ∈ (newline carriage).raw := by simp [h]
    have : c = '\r' ∨ c = '\n' := by cases carriage <;> simp [raw] at hm <;> simp [hm]
    rcases this with rfl | rfl <;> exact absurd hc (by decide +kernel)
  | char d =>
    have := congrArg List.length h
    simp [raw] at this
    omega

end Token

/-! ### Places and tokens -/

theorem raws_tokens (s : List Char) : raws (tokens s) = s :=
  raws_tokensFrom none Place.first s

theorem Located.start_lt_stop (t : Located) : t.place.start < t.stop := by
  have hl := List.length_pos_iff.2 t.token.raw_ne_nil
  have hb := Text.length_le_bytes t.token.raw
  rw [stop]
  omega

/-- A token starts behind the tokens before it. -/
theorem start_of_tokens_eq {s : List Char} {ts us : List Located} {t : Located}
    (h : tokens s = ts ++ t :: us) : t.place.start = Text.bytes (raws ts) := by
  have hc : Chained Place.first (ts ++ t :: us) := h ▸ chained_tokensFrom none Place.first s
  rw [hc.place_eq, Place.start_after]
  exact Nat.zero_add _

/-- Two tokens of a text are the same, or one ends before the other starts. -/
theorem eq_or_stop_le {s : List Char} {t l : Located} (ht : t ∈ tokens s) (hl : l ∈ tokens s) :
    t = l ∨ t.stop ≤ l.place.start ∨ l.stop ≤ t.place.start := by
  obtain ⟨ts, us, hts⟩ := List.append_of_mem ht
  obtain ⟨ts', us', hls⟩ := List.append_of_mem hl
  rw [Located.stop, Located.stop, start_of_tokens_eq hts, start_of_tokens_eq hls]
  rcases raws_of_append_cons_eq (hts.symm.trans hls) with rfl | ⟨w, hw⟩ | ⟨w, hw⟩
  · exact Or.inl rfl
  · have := congrArg Text.bytes hw
    simp at this
    omega
  · have hs : raws ts ++ raws (t :: us) = raws ts' ++ raws (l :: us') := by
      rw [← raws_append, ← raws_append, ← hts, hls]
    have hs := congrArg Text.bytes hs
    have := congrArg Text.bytes hw
    simp at this hs
    omega

/-- Every place in a text lies in a token, or where one starts. -/
theorem exists_token_at {ts : List Located} {u v : List Char} (h : raws ts = u ++ v)
    (hv : v ≠ []) :
    ∃ ts' t us w x, ts = ts' ++ t :: us ∧ u = raws ts' ++ w ∧ t.token.raw = w ++ x ∧
      v = x ++ raws us ∧ x ≠ [] := by
  induction ts generalizing u with
  | nil => simp [hv] at h
  | cons t ts ih =>
    rw [raws_cons] at h
    rcases List.append_eq_append_iff.1 h with ⟨w, rfl, hw⟩ | ⟨x, hx, rfl⟩
    · obtain ⟨ts', l, us, y, z, rfl, rfl, hl⟩ := ih hw
      exact ⟨t :: ts', l, us, y, z, rfl, by simp, hl⟩
    · cases x with
      | nil =>
        obtain ⟨ts', l, us, y, z, rfl, hu, hl⟩ := ih (u := []) rfl
        exact ⟨t :: ts', l, us, y, z, rfl, by simp [← hu, hx], hl⟩
      | cons c x => exact ⟨[], t, ts, u, c :: x, rfl, rfl, hx, rfl, by simp⟩

/-! ### Literals and keywords by their bytes -/

/-- Whether a literal reaches from byte `p` to byte `q`. -/
def SpansLiteral (s : List Char) (p q : Nat) : Prop :=
  ∃ t ∈ tokens s, (∃ d, t.token = .literal d) ∧ t.place.start = p ∧ t.stop = q

/-- Whether a keyword reaches from byte `p` to byte `q`. -/
def SpansKeyword (s : List Char) (p q : Nat) : Prop :=
  ∃ t ∈ tokens s, (∃ k, t.token = .keyword k) ∧ t.place.start = p ∧ t.stop = q

/-- Whether a place is strictly inside a literal. -/
def InsideLiteral (s : List Char) (p : Nat) : Prop :=
  ∃ p' q', SpansLiteral s p' q' ∧ p' < p ∧ p < q'

instance decidableIsLiteral : (token : Token) → Decidable (∃ d, token = .literal d)
  | .literal d => isTrue ⟨d, rfl⟩
  | .keyword _ | .comment | .newline _ | .char _ => isFalse fun ⟨_, h⟩ => Token.noConfusion h

instance (s : List Char) (p : Nat) : Decidable (InsideLiteral s p) :=
  decidable_of_iff
    (∃ t ∈ tokens s, (∃ d, t.token = .literal d) ∧ t.place.start < p ∧ p < t.stop)
    ⟨fun ⟨t, ht, hd, hp, hq⟩ => ⟨_, _, ⟨t, ht, hd, rfl, rfl⟩, hp, hq⟩,
      fun ⟨_, _, ⟨t, ht, hd, hp, hq⟩, hlt, hgt⟩ => ⟨t, ht, hd, hp ▸ hlt, hq ▸ hgt⟩⟩

theorem not_insideLiteral_start {s : List Char} {t : Located} (ht : t ∈ tokens s) :
    ¬ InsideLiteral s t.place.start := by
  rintro ⟨p, q, ⟨l, hl, -, rfl, rfl⟩, hlt, hgt⟩
  rcases eq_or_stop_le hl ht with rfl | h | h
  · omega
  · omega
  · have := t.start_lt_stop
    omega

/-- Where a literal starts no keyword starts. -/
theorem SpansLiteral.not_spansKeyword {s : List Char} {p q q' : Nat} (h : SpansLiteral s p q) :
    ¬ SpansKeyword s p q' := by
  obtain ⟨t, ht, ⟨d, hd⟩, rfl, -⟩ := h
  rintro ⟨l, hl, ⟨k, hk⟩, hp, -⟩
  have h₁ := t.start_lt_stop
  have h₂ := l.start_lt_stop
  rcases eq_or_stop_le ht hl with rfl | h | h
  · rw [hd] at hk
    cases hk
  · omega
  · omega

/-- A token starts at a place, and is read there, unless a literal reaches over it, or a token that
is none. -/
theorem exists_token_of_not_inside {u r : List Char} {c : Char}
    (hin : ¬ InsideLiteral (u ++ c :: r) (Text.bytes u))
    (hc : ∀ (token : Token) w x, token.raw = w ++ c :: x → w ≠ [] → w <:+ u →
      ∃ d, token = .literal d) :
    ∃ t ∈ tokens (u ++ c :: r), t.place.start = Text.bytes u ∧
      ∃ v, (Token.read (Text.allowsKeyword u.getLast?) c r).pair = (t.token, v) := by
  obtain ⟨ts, t, us, w, x, hts, hu, hx, hr, hne⟩ :=
    exists_token_at (raws_tokens (u ++ c :: r)) (List.cons_ne_nil c r)
  have ht : t ∈ tokens (u ++ c :: r) := hts ▸ List.mem_append_right ts (List.mem_cons_self ..)
  have hstart := start_of_tokens_eq hts
  obtain ⟨d, x, rfl⟩ := List.exists_cons_of_ne_nil hne
  obtain ⟨rfl, rfl⟩ := List.cons.inj hr
  by_cases hw : w = []
  · subst hw
    obtain ⟨e, v, hv⟩ := read_of_tokensFrom_eq hts
    have he := Token.eq_append_of_read hv
    rw [hx] at he
    obtain ⟨rfl, rfl⟩ := List.cons.inj he
    rw [List.append_nil] at hu
    rw [Option.or_none, ← hu] at hv
    exact ⟨t, ht, hu ▸ hstart, _, hv⟩
  · have hd := hc t.token w x hx hw (hu ▸ List.suffix_append _ _)
    refine absurd ⟨_, _, ⟨t, ht, hd, rfl, rfl⟩, ?_, ?_⟩ hin
    · have := List.length_pos_iff.2 hw
      have := Text.length_le_bytes w
      rw [hstart, hu, Text.bytes_append]
      omega
    · have := c.utf8Size_pos
      rw [Located.stop, hstart, hx, hu, Text.bytes_append, Text.bytes_append, Text.bytes_cons]
      omega

theorem stop_of_literal {t : Located} {d : List Char} (h : t.token = .literal d) :
    t.stop = t.place.start + Text.bytes d + 2 := by
  have hq : '\''.utf8Size = 1 := rfl
  rw [Located.stop, h, Token.raw, Text.bytes_cons, Text.bytes_append, Text.bytes_cons, hq]
  simp
  omega

/-- A quote that no literal reaches over opens a literal if it is closed. -/
theorem exists_literal_of_not_inside {u d r : List Char}
    (hin : ¬ InsideLiteral (u ++ '\'' :: (d ++ '\'' :: r)) (Text.bytes u))
    (he : Token.Encloses d r) :
    ∃ t ∈ tokens (u ++ '\'' :: (d ++ '\'' :: r)),
      t.token = .literal d ∧ t.place.start = Text.bytes u := by
  obtain ⟨t, ht, hstart, v, hv⟩ :=
    exists_token_of_not_inside hin fun _ _ _ h hw _ => Token.literal_of_quote h hw
  rw [Token.read_eq_literal_iff.2 ⟨rfl, rfl, he⟩] at hv
  exact ⟨t, ht, (Prod.mk.inj hv).1.symm, hstart⟩

/-- A literal is a quoted text. -/
theorem exists_encloses_of_mem {s d : List Char} {t : Located} (ht : t ∈ tokens s)
    (hd : t.token = .literal d) :
    ∃ u r, s = u ++ '\'' :: (d ++ '\'' :: r) ∧ t.place.start = Text.bytes u ∧
      Token.Encloses d r := by
  obtain ⟨ts, us, hts⟩ := List.append_of_mem ht
  obtain ⟨c, v, hv⟩ := read_of_tokensFrom_eq hts
  rw [hd] at hv
  have hs := raws_tokens s
  rw [hts, raws_append, raws_cons, hd] at hs
  exact ⟨raws ts, raws us, by simp [← hs, Token.raw], start_of_tokens_eq hts,
    (Token.read_eq_literal_iff.1 hv).2.2⟩

/-- Whether a quote stands at byte `p` and the quote that closes it in front of byte `q`. -/
def QuotedBetween (s : List Char) (p q : Nat) : Prop :=
  ∃ u d r, s = u ++ '\'' :: (d ++ '\'' :: r) ∧ p = Text.bytes u ∧ q = p + Text.bytes d + 2 ∧
    Token.Encloses d r

/-- Whether the text of a keyword stands between bytes `p` and `q`, behind no letter, digit or
underscore and in front of a boundary. -/
def WordBetween (s : List Char) (p q : Nat) : Prop :=
  ∃ (u : List Char) (k : Keyword) (r : List Char), s = u ++ (k.text.toList ++ r) ∧
    p = Text.bytes u ∧ q = p + Text.bytes k.text.toList ∧
    (∀ c, u.getLast? = some c → Text.isAlphanumeric c = false ∧ c ≠ '_') ∧
    Text.atBoundary r = true

/-- Literals are the quoted texts that start inside no other literal. -/
theorem spansLiteral_iff {s : List Char} {p q : Nat} :
    SpansLiteral s p q ↔
      ¬ InsideLiteral s p ∧ (¬ ∃ q', SpansKeyword s p q') ∧ QuotedBetween s p q := by
  constructor
  · intro h
    have hk : ¬ ∃ q', SpansKeyword s p q' := fun ⟨_, hq⟩ => h.not_spansKeyword hq
    obtain ⟨t, ht, ⟨d, hd⟩, rfl, rfl⟩ := h
    obtain ⟨u, r, hs, hstart, he⟩ := exists_encloses_of_mem ht hd
    exact ⟨not_insideLiteral_start ht, hk, u, d, r, hs, hstart, stop_of_literal hd, he⟩
  · rintro ⟨hin, -, u, d, r, rfl, rfl, rfl, he⟩
    obtain ⟨t, ht, hd, hstart⟩ := exists_literal_of_not_inside hin he
    exact ⟨t, ht, ⟨d, hd⟩, hstart, by rw [stop_of_literal hd, hstart]⟩

/-- Keywords are the words with the text of one that are not inside a literal. -/
theorem spansKeyword_iff {s : List Char} {p q : Nat} :
    SpansKeyword s p q ↔
      WordBetween s p q ∧ ¬ ∃ p' q', SpansLiteral s p' q' ∧ p' ≤ p ∧ p < q' := by
  constructor
  · intro h
    have hl : ∀ q', ¬ SpansLiteral s p q' := fun _ hq => hq.not_spansKeyword h
    obtain ⟨t, ht, ⟨k, hk⟩, rfl, rfl⟩ := h
    obtain ⟨ts, us, hts⟩ := List.append_of_mem ht
    obtain ⟨c, v, hv⟩ := read_of_tokensFrom_eq hts
    rw [hk] at hv
    obtain ⟨ha, -, hr⟩ := Token.read_eq_keyword_iff.1 hv
    rw [Option.or_none, Text.allowsKeyword_iff] at ha
    have hs := raws_tokens s
    rw [hts, raws_append, raws_cons, hk] at hs
    refine ⟨⟨raws ts, k, raws us, hs.symm, start_of_tokens_eq hts, ?_, ha, hr⟩, ?_⟩
    · rw [Located.stop, hk]
      rfl
    · rintro ⟨p', q', hq, hp, hlt⟩
      rcases Nat.lt_or_eq_of_le hp with hp | rfl
      · exact not_insideLiteral_start ht ⟨p', q', hq, hp, hlt⟩
      · exact hl q' hq
  · rintro ⟨⟨u, k, r, rfl, rfl, rfl, ha, hr⟩, hin⟩
    obtain ⟨c, w, hw⟩ := List.exists_cons_of_length_pos k.length_text_pos
    have hc := Text.not_allowsKeyword_of_mem_text (show c ∈ k.text.toList by simp [hw])
    have hu := Text.allowsKeyword_iff.2 ha
    have hs : u ++ (k.text.toList ++ r) = u ++ c :: (w ++ r) := by rw [hw]; rfl
    have hin' : ¬ InsideLiteral (u ++ c :: (w ++ r)) (Text.bytes u) := by
      rw [← hs]
      rintro ⟨p', q', hq, hp, hlt⟩
      exact hin ⟨p', q', hq, hp.le, hlt⟩
    obtain ⟨t, ht, hstart, v, hv⟩ :=
        exists_token_of_not_inside hin' fun token x y h hx hsuffix => by
      refine Token.literal_of_keyword h hx hc ?_
      obtain ⟨u', rfl⟩ := hsuffix
      rw [List.getLast?_append, List.getLast?_eq_some_getLast hx] at hu
      rwa [List.getLast?_eq_some_getLast hx]
    rw [Token.read_eq_keyword_iff.2 ⟨hu, by rw [hw]; rfl, hr⟩] at hv
    have hk : t.token = .keyword k := (Prod.mk.inj hv).1.symm
    refine ⟨t, hs ▸ ht, ⟨k, hk⟩, hstart, ?_⟩
    rw [Located.stop, hstart, hk]
    rfl

theorem unquote_raw_literal (d : List Char) : Text.unquote (Token.literal d).raw = d := by
  simp [Token.raw, Text.unquote]

/-- A literal gives back the text between two quotes at the end of a line if and only if that text
is a title. -/
theorem recovers_iff {u d r : List Char}
    (hin : ¬ InsideLiteral (u ++ '\'' :: (d ++ '\'' :: '\n' :: r)) (Text.bytes u)) :
    (∃ t ∈ tokens (u ++ '\'' :: (d ++ '\'' :: '\n' :: r)), (∃ e, t.token = .literal e) ∧
        t.place.start = Text.bytes u ∧ Text.unquote t.token.raw = d) ↔ Token.IsTitle d := by
  constructor
  · rintro ⟨t, ht, ⟨e, he⟩, -, hd⟩
    rw [he, unquote_raw_literal] at hd
    obtain ⟨_, _, -, -, hencl⟩ := exists_encloses_of_mem ht he
    exact hd ▸ (Token.encloses_iff.1 hencl).1
  · intro hd
    obtain ⟨t, ht, hl, hstart⟩ :=
      exists_literal_of_not_inside hin (Token.encloses_iff.2 ⟨hd, rfl⟩)
    exact ⟨t, ht, ⟨d, hl⟩, hstart, by rw [hl, unquote_raw_literal]⟩

/-- **Keywords and literals are told from the text around them.**  A literal reaches from a quote to
the first one on its line that a boundary follows, wherever no other literal reaches over the quote
that opens it; a keyword is wherever its text stands as a word that no literal reaches over.  A
literal gives back a text between quotes in front of a line feed if and only if that text stays on
its line and has in it no quote with a blank behind it. -/
theorem recognised_exactly :
    (∀ (s : List Char) (p q : Nat), SpansLiteral s p q ↔
      ¬ InsideLiteral s p ∧ (¬ ∃ q', SpansKeyword s p q') ∧ QuotedBetween s p q) ∧
    (∀ (s : List Char) (p q : Nat), SpansKeyword s p q ↔
      WordBetween s p q ∧ ¬ ∃ p' q', SpansLiteral s p' q' ∧ p' ≤ p ∧ p < q') ∧
    ∀ u d r : List Char,
      ¬ InsideLiteral (u ++ '\'' :: (d ++ '\'' :: '\n' :: r)) (Text.bytes u) →
      ((∃ t ∈ tokens (u ++ '\'' :: (d ++ '\'' :: '\n' :: r)), (∃ e, t.token = .literal e) ∧
          t.place.start = Text.bytes u ∧ Text.unquote t.token.raw = d) ↔
        '\r' ∉ d ∧ '\n' ∉ d ∧ ¬ ['\'', ' '] <:+: d ∧ ¬ ['\'', '\t'] <:+: d) := by
  refine ⟨fun _ _ _ => spansLiteral_iff, fun _ _ _ => spansKeyword_iff, fun _ _ _ hin => ?_⟩
  rw [recovers_iff hin]
  constructor
  · rintro ⟨hr, hn, hs, ht⟩
    exact ⟨hr, hn, hs, ht⟩
  · rintro ⟨hr, hn, hs, ht⟩
    exact ⟨hr, hn, hs, ht⟩

/-- Behind another literal, a title with a quote in it and a text that is none. -/
theorem recognised_exactly_titles :
    let u := "it 'a' ".toList
    let d := "don't".toList
    let d' := "dogs' tails".toList
    ¬ InsideLiteral (u ++ '\'' :: (d ++ '\'' :: '\n' :: [])) (Text.bytes u) ∧
      (∃ t ∈ tokens (u ++ '\'' :: (d ++ '\'' :: '\n' :: [])), (∃ e, t.token = .literal e) ∧
        t.place.start = Text.bytes u ∧ Text.unquote t.token.raw = d) ∧
      ¬ InsideLiteral (u ++ '\'' :: (d' ++ '\'' :: '\n' :: [])) (Text.bytes u) ∧
      ¬ ∃ t ∈ tokens (u ++ '\'' :: (d' ++ '\'' :: '\n' :: [])), (∃ e, t.token = .literal e) ∧
        t.place.start = Text.bytes u ∧ Text.unquote t.token.raw = d' := by
  intro u d d'
  have hd : ¬ InsideLiteral (u ++ '\'' :: (d ++ '\'' :: '\n' :: [])) (Text.bytes u) := by
    decide +kernel
  have hd' : ¬ InsideLiteral (u ++ '\'' :: (d' ++ '\'' :: '\n' :: [])) (Text.bytes u) := by
    decide +kernel
  refine ⟨hd, (recognised_exactly.2.2 u d [] hd).2 (by decide), hd', fun h => ?_⟩
  exact absurd ((recognised_exactly.2.2 u d' [] hd').1 h) (by decide)

end SpecEngine
