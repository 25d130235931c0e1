import SpecEngine.Proofs.Reading
import SpecEngine.Proofs.RoundTrip

/-!
# Keyword lookalikes

The words that give a spec file its structure may stand in a body without being read as keywords.

* `Lookalike`: a keyword's text that goes on with a letter, or stands between quotes that are read
  as the quotes of one text; `lookalike_of_quoted`: a text of the body language gives such
  quotes when a boundary follows it;
* `exists_literal`: a quoted text is one token, whatever stands before it;
* `keywordFree_of_lookalikes`, `read_spec_of_lookalikes`: a body with lookalikes only is read whole,
  and which keywords in texts of the body language are lookalikes;
* `read_specFile_ne_of_code`: bodies that are not read whole, because of a keyword in a text or in a
  comment of the body language.
-/

namespace SpecEngine

namespace Text

/-- Whether there is a quote on the last line of a text. -/
def QuoteOnLine (u : List Char) : Prop :=
  ∃ p q, u = p ++ '\'' :: q ∧ '\n' ∉ q ∧ '\r' ∉ q

theorem QuoteOnLine.append_left {u : List Char} (h : QuoteOnLine u) (t : List Char) :
    QuoteOnLine (t ++ u) := by
  obtain ⟨p, q, rfl, hn, hr⟩ := h
  exact ⟨t ++ p, q, by simp, hn, hr⟩

end Text

/-! ### Quoted texts -/

namespace Token

/-- How the closing quote is looked for: the character in front is it, or it is passed over. -/
theorem closeQuote_cons {c : Char} {s d t : List Char}
    (h : (closeQuote (c :: s)).map Parsed.pair = some (d, t)) :
    (c ≠ '\n' ∧ c ≠ '\r') ∧
      ((c = '\'' ∧ Text.atBoundary s = true ∧ d = [] ∧ t = s) ∨
        (¬ (c = '\'' ∧ Text.atBoundary s = true) ∧
          ∃ d', d = c :: d' ∧ (closeQuote s).map Parsed.pair = some (d', t))) := by
  rw [closeQuote] at h
  split at h
  · cases h
  · next hc =>
    refine ⟨by simpa using hc, ?_⟩
    split at h
    · next hq =>
      cases h
      simp only [Bool.and_eq_true, decide_eq_true_eq] at hq
      exact Or.inl ⟨hq.1, hq.2, rfl, rfl⟩
    · next hq =>
      rw [Option.map_map] at h
      obtain ⟨p, hp, heq⟩ := Option.map_eq_some_iff.1 h
      cases heq
      exact Or.inr ⟨by simpa using hq, p.value, rfl, by rw [hp]; rfl⟩

/-- The text before a closing quote stays on its line. -/
theorem notMem_of_closeQuote {s d t : List Char}
    (h : (closeQuote s).map Parsed.pair = some (d, t)) : '\n' ∉ d ∧ '\r' ∉ d := by
  induction s generalizing d with
  | nil => cases h
  | cons c s ih =>
    obtain ⟨⟨hn, hr⟩, ⟨-, -, rfl, -⟩ | ⟨-, d', rfl, hd⟩⟩ := closeQuote_cons h
    · simp
    · have hd := ih hd
      simp [Ne.symm hn, Ne.symm hr, hd]

/-- A quoted text that is opened before a title ends before it, or with the opening quote of the
title, or together with it. -/
theorem closeQuote_append_title {v m x d t : List Char} (hm : IsTitle m)
    (hx : Text.atBoundary x = true)
    (h : (closeQuote (v ++ '\'' :: (m ++ '\'' :: x))).map Parsed.pair = some (d, t)) :
    d.length < v.length ∨ (d = v ∧ Text.atBoundary (m ++ '\'' :: x) = true) ∨ t = x := by
  induction v generalizing d with
  | nil =>
    obtain ⟨-, ⟨-, hb, rfl, -⟩ | ⟨-, d', rfl, hd⟩⟩ := closeQuote_cons h
    · exact Or.inr (Or.inl ⟨rfl, hb⟩)
    · rw [closeQuote_title hm hx] at hd
      cases hd
      exact Or.inr (Or.inr rfl)
  | cons c v ih =>
    obtain ⟨-, ⟨-, -, rfl, -⟩ | ⟨-, d', rfl, hd⟩⟩ := closeQuote_cons h
    · exact Or.inl (Nat.succ_pos _)
    · rcases ih hd with hl | ⟨rfl, hb⟩ | ht
      · exact Or.inl (Nat.succ_lt_succ hl)
      · exact Or.inr (Or.inl ⟨rfl, hb⟩)
      · exact Or.inr (Or.inr ht)

/-- What a token says about the text that it was read from. -/
theorem cases_of_read {keywords : Bool} {c : Char} {s t : List Char} {token : Token}
    (h : (read keywords c s).pair = (token, t)) :
    (∃ k, token = .keyword k ∧ keywords = true ∧ Text.atBoundary t = true) ∨
      (∃ d, token = .literal d ∧ c = '\'' ∧ (closeQuote s).map Parsed.pair = some (d, t)) ∨
      ((∀ k, token ≠ .keyword k) ∧ ∀ d, token ≠ .literal d) := by
  rw [read_pair] at h
  cases hk : (if keywords then (Keyword.read (c :: s)).map Parsed.pair else none) with
  | some r =>
    rw [hk] at h
    cases h
    split at hk
    · next hb => exact Or.inl ⟨_, rfl, hb, (Keyword.read_pair_eq_some_iff.1 hk).2⟩
    · cases hk
  | none =>
    cases hl : (readLiteral (c :: s)).map Parsed.pair with
    | some r =>
      rw [hk, hl] at h
      cases h
      by_cases hc : c = '\''
      · subst hc
        exact Or.inr (Or.inl ⟨_, rfl, rfl, by rwa [readLiteral_pair] at hl⟩)
      · rw [readLiteral_of_ne hc] at hl
        cases hl
    | none =>
      rw [hk, hl] at h
      refine Or.inr (Or.inr ?_)
      cases hc : (readComment (c :: s)).map Parsed.pair <;>
        cases hn : (readNewline (c :: s)).map Parsed.pair <;>
        · rw [hc, hn] at h
          cases h
          exact ⟨fun _ => Token.noConfusion, fun _ => Token.noConfusion⟩

theorem closeQuote_of_read {keywords : Bool} {c : Char} {s d t : List Char}
    (h : (read keywords c s).pair = (.literal d, t)) :
    c = '\'' ∧ (closeQuote s).map Parsed.pair = some (d, t) := by
  rcases cases_of_read h with ⟨k, hk, -⟩ | ⟨d', hd, h⟩ | ⟨-, hd⟩
  · cases hk
  · cases hd
    exact h
  · exact absurd rfl (hd d)

theorem atBoundary_of_read {keywords : Bool} {c : Char} {s t : List Char} {k : Keyword}
    (h : (read keywords c s).pair = (.keyword k, t)) :
    keywords = true ∧ Text.atBoundary t = true := by
  rcases cases_of_read h with ⟨k', hk, h⟩ | ⟨d, hd, -⟩ | ⟨hk, -⟩
  · exact h
  · cases hd
  · exact absurd rfl (hk k)

theorem exists_literal_of_quote_mem {token : Token} (h : '\'' ∈ token.raw) :
    token = .char '\'' ∨ ∃ d, token = .literal d := by
  cases token with
  | keyword k => cases k with
    | hook h' => cases h' <;> exact absurd h (by decide)
    | _ => exact absurd h (by decide)
  | literal d => exact Or.inr ⟨d, rfl⟩
  | comment => exact absurd h (by decide)
  | newline carriage => cases carriage <;> exact absurd h (by decide)
  | char c => exact Or.inl (by simpa [raw, eq_comm] using h)

/-- A title with its quotes is not torn apart: a token that starts before it ends before it or
together with it. -/
theorem read_append_title {keywords : Bool} {c : Char} {v m x t : List Char} {token : Token}
    (hm : IsTitle m) (hx : Text.atBoundary x = true)
    (ho : Text.atBoundary (m ++ '\'' :: x) = true → ¬ Text.QuoteOnLine (c :: v))
    (h : (read keywords c (v ++ '\'' :: (m ++ '\'' :: x))).pair = (token, t)) :
    (∃ u, c :: v = token.raw ++ u ∧ t = u ++ '\'' :: (m ++ '\'' :: x)) ∨
      (t = x ∧ ∃ d, token = .literal d) := by
  have hs := eq_append_of_read h
  rw [← List.cons_append] at hs
  rcases List.append_eq_append_iff.1 hs with ⟨u, hu, hr⟩ | ⟨u, hu, hr⟩
  · cases u with
    | nil => exact Or.inl ⟨[], by simpa using hu.symm, by simpa using hr.symm⟩
    | cons q u =>
      -- the token holds the quote that opens the title, and does not start with it
      obtain ⟨rfl, hr⟩ := List.cons.inj hr
      rcases exists_literal_of_quote_mem (show '\'' ∈ token.raw by simp [hu]) with rfl | ⟨d, rfl⟩
      · have := congrArg List.length hu
        simp [raw] at this
      · obtain ⟨rfl, hd⟩ := closeQuote_of_read h
        rcases closeQuote_append_title hm hx hd with hl | ⟨rfl, hb⟩ | ht
        · have := congrArg List.length hu
          simp [raw] at this
          omega
        · exact absurd ⟨[], d, rfl, notMem_of_closeQuote hd⟩ (ho hb)
        · exact Or.inr ⟨ht, d, rfl⟩
  · exact Or.inl ⟨u, hu, hr⟩

end Token

/-- **A title between quotes is a token or ends one**, wherever it stands: unless a quote before it
on its line can be closed by its opening quote, the tokens before it, one literal that ends with
it, and the tokens behind it make up the text. -/
theorem exists_literal {u m x : List Char} (hm : Token.IsTitle m) (hx : Text.atBoundary x = true)
    (ho : Text.atBoundary (m ++ '\'' :: x) = true → ¬ Text.QuoteOnLine u)
    (previous : Option Char) (p : Place) :
    ∃ ts t us, tokensFrom previous p (u ++ '\'' :: (m ++ '\'' :: x)) = ts ++ t :: us ∧
      raws ts <+: u ∧ (∃ d, t.token = .literal d) ∧ raws us = x := by
  induction hn : u.length using Nat.strong_induction_on generalizing u previous p with
  | _ n ih =>
    subst hn
    cases u with
    | nil =>
      rw [List.nil_append, show '\'' :: (m ++ '\'' :: x) = (Token.literal m).raw ++ x by
        simp [Token.raw], tokensFrom_literal _ _ hm hx]
      exact ⟨[], _, _, rfl, List.nil_prefix, ⟨m, rfl⟩, by simp⟩
    | cons c v =>
      rcases h : (Token.read (Text.allowsKeyword previous) c
        (v ++ '\'' :: (m ++ '\'' :: x))).pair with ⟨token, t⟩
      rw [List.cons_append, tokensFrom_cons h]
      rcases Token.read_append_title hm hx ho h with ⟨u, hu, rfl⟩ | ⟨rfl, d, rfl⟩
      · have hl : u.length < (c :: v).length := by
          have := List.length_pos_of_ne_nil token.raw_ne_nil
          rw [hu, List.length_append]
          omega
        obtain ⟨ts, t, us, hts, hp, ht, hus⟩ := ih u.length hl
          (fun hb hq => ho hb (by rw [hu]; exact hq.append_left _)) token.raw.getLast?
          (p.after token.raw) rfl
        exact ⟨⟨token, p⟩ :: ts, t, us, by rw [hts]; rfl,
          by rw [raws_cons, hu]; exact (List.prefix_append_right_inj _).2 hp, ht, hus⟩
      · exact ⟨[], ⟨.literal d, p⟩, _, rfl, List.nil_prefix, ⟨d, rfl⟩, raws_tokensFrom _ _ _⟩

/-! ### Lookalikes -/

/-- The text of a keyword between `u` and `w` that is not read as the keyword. -/
inductive Lookalike (u w : List Char) (k : Keyword) : Prop
  /-- It goes on with a word. -/
  | wordBefore (h : Text.allowsKeyword u.getLast? = false)
  /-- A word or a sign goes on with it. -/
  | wordAfter (h : Text.atBoundary w = false)
  /-- It stands between quotes on one line, of which the second stands at a boundary, and no quote
  between them does.  The first may stand at a boundary when no quote stands before it on its
  line. -/
  | quoted {v d₁ d₂ x : List Char} (hu : u = v ++ '\'' :: d₁) (hw : w = d₂ ++ '\'' :: x)
      (hd : Token.IsTitle (d₁ ++ (k.text.toList ++ d₂))) (hx : Text.atBoundary x = true)
      (ho : Text.atBoundary (d₁ ++ k.text.toList) = true → ¬ Text.QuoteOnLine v)

/-- Texts in which the texts of keywords are lookalikes everywhere. -/
def OnlyLookalikes (s : List Char) : Prop :=
  ∀ u w k, s = u ++ (k.text.toList ++ w) → Lookalike u w k

/-- The texts of keywords in a text and how many characters are before them. -/
def occurrences (s : List Char) : List (Nat × Keyword) :=
  (List.range (s.length + 1)).flatMap fun i =>
    (Keyword.all.filter fun k => k.text.toList.isPrefixOf (s.drop i)).map fun k => (i, k)

theorem forall_occurrence_iff {s : List Char} {P : List Char → List Char → Keyword → Prop} :
    (∀ u w k, s = u ++ (k.text.toList ++ w) → P u w k) ↔
      ∀ o ∈ occurrences s, P (s.take o.1) (s.drop (o.1 + o.2.text.toList.length)) o.2 := by
  constructor
  · intro h o ho
    obtain ⟨i, -, ho⟩ := List.mem_flatMap.1 ho
    obtain ⟨k, hk, rfl⟩ := List.mem_map.1 ho
    have hk := List.isPrefixOf_iff_prefix.1 (List.mem_filter.1 hk).2
    refine h _ _ k ?_
    rw [← List.drop_drop, List.prefix_iff_eq_append.1 hk, List.take_append_drop]
  · rintro h u w k rfl
    have ho : (u.length, k) ∈ occurrences (u ++ (k.text.toList ++ w)) := by
      have hu : u.length ∈ List.range ((u ++ (k.text.toList ++ w)).length + 1) := by
        rw [List.mem_range, List.length_append]
        omega
      refine List.mem_flatMap.2 ⟨u.length, hu, List.mem_map.2 ⟨k, ?_, rfl⟩⟩
      exact List.mem_filter.2 ⟨Keyword.mem_all k, List.isPrefixOf_iff_prefix.2 (by simp)⟩
    simpa [← List.drop_drop] using h _ ho

theorem Text.atBoundary_append_keyword (d : List Char) (k : Keyword) (s : List Char) :
    Text.atBoundary (d ++ (k.text.toList ++ s)) = Text.atBoundary (d ++ k.text.toList) := by
  cases d with
  | nil =>
    obtain ⟨c, w, hw⟩ := List.exists_cons_of_length_pos k.length_text_pos
    rw [hw]
    rfl
  | cons c d => rfl

/-- A token in a row of tokens was read where the tokens before it end. -/
theorem read_of_tokensFrom_eq {previous : Option Char} {p : Place} {s : List Char} {t : Located}
    {ts us : List Located} (h : tokensFrom previous p s = ts ++ t :: us) :
    ∃ c r, (Token.read (Text.allowsKeyword ((raws ts).getLast?.or previous)) c r).pair =
      (t.token, raws us) := by
  induction previous, p, s using tokensFrom_induction generalizing ts with
  | nil => simp at h
  | cons previous p c s token rest hr hs ih =>
    rw [tokensFrom_cons hr] at h
    cases ts with
    | nil =>
      obtain ⟨rfl, rfl⟩ := List.cons.inj h
      exact ⟨c, s, by rw [raws_tokensFrom]; exact hr⟩
    | cons u ts =>
      obtain ⟨rfl, hts⟩ := List.cons.inj h
      obtain ⟨d, r, hd⟩ := ih hts
      refine ⟨d, r, ?_⟩
      rw [raws_cons, List.getLast?_append, Option.or_assoc,
        List.getLast?_eq_some_getLast token.raw_ne_nil]
      rw [List.getLast?_eq_some_getLast token.raw_ne_nil] at hd
      exact hd

/-- Of two tokens in a row, one is before the other if they are not the same. -/
theorem raws_of_append_cons_eq {ts us ts' us' : List Located} {t l : Located}
    (h : ts ++ t :: us = ts' ++ l :: us') :
    t = l ∨ raws (ts ++ [t]) <+: raws ts' ∨ raws (t :: us) <:+ raws us' := by
  rcases List.append_eq_append_iff.1 h with ⟨w, rfl, hw⟩ | ⟨w, rfl, hw⟩
  · cases w with
    | nil => exact Or.inl (List.cons.inj hw).1
    | cons a w =>
      obtain ⟨rfl, -⟩ := List.cons.inj hw
      exact Or.inr (Or.inl ⟨raws w, by simp⟩)
  · cases w with
    | nil => exact Or.inl (List.cons.inj hw).1.symm
    | cons a w =>
      obtain ⟨-, hw⟩ := List.cons.inj hw
      exact Or.inr (Or.inr ⟨raws w, by rw [← raws_append]; exact congrArg raws hw.symm⟩)

/-- A keyword that is read is no lookalike. -/
theorem not_lookalike_of_tokensFrom_eq {s : List Char} {t : Located} {ts us : List Located}
    {k : Keyword} (h : tokens s = ts ++ t :: us) (ht : t.token = .keyword k) :
    ¬ Lookalike (raws ts) (raws us) k := by
  obtain ⟨c, r, hr⟩ := read_of_tokensFrom_eq h
  rw [ht, Option.or_none] at hr
  obtain ⟨hk, hb⟩ := Token.atBoundary_of_read hr
  intro hl
  cases hl with
  | wordBefore hw =>
    rw [hw] at hk
    cases hk
  | wordAfter hw =>
    rw [hw] at hb
    cases hb
  | @quoted v d₁ d₂ x hu hw hd hx ho =>
    have hs : s = v ++ '\'' :: (d₁ ++ (k.text.toList ++ d₂) ++ '\'' :: x) := by
      have hr := raws_tokensFrom none Place.first s
      rw [← tokens, h, raws_append, raws_cons, hu, hw, ht] at hr
      simpa [Token.raw] using hr.symm
    have ho' : Text.atBoundary (d₁ ++ (k.text.toList ++ d₂) ++ '\'' :: x) = true →
        ¬ Text.QuoteOnLine v := by
      rwa [List.append_assoc, List.append_assoc, Text.atBoundary_append_keyword]
    obtain ⟨ts', l, us', hs', hp, ⟨d, hl⟩, hus⟩ :=
      exists_literal hd hx ho' none Place.first
    rw [← hs, ← tokens, h] at hs'
    -- the literal that closes there is neither the keyword nor before it nor behind it
    rcases raws_of_append_cons_eq hs' with rfl | hb' | ha'
    · rw [ht] at hl
      cases hl
    · have := (hb'.trans hp).length_le
      rw [raws_append, hu] at this
      simp only [List.length_append, List.length_cons] at this
      omega
    · have := ha'.length_le
      simp [hus, hw] at this
      omega

theorem keywordFree_of_lookalikes {s : List Char} (h : OnlyLookalikes s) : KeywordFree s := by
  intro t ht
  obtain ⟨ts, us, hs⟩ := List.append_of_mem ht
  cases hk : t.token with
  | keyword k =>
    have hr := raws_tokensFrom none Place.first s
    rw [← tokens, hs, raws_append, raws_cons, hk] at hr
    exact absurd (h _ _ k hr.symm) (not_lookalike_of_tokensFrom_eq hs hk)
  | _ => rfl

/-! ### Bodies -/

/-- A keyword in a text of the body language is a lookalike if that text has no carriage return in
it, a boundary follows it, and it does not start with a boundary behind a quote of its line. -/
theorem lookalike_of_quoted {b v d₁ d₂ s x : List Char} {k : Keyword} (hb : b = v ++ '\'' :: s)
    (h : Body.View.quoted '\'' s = some (d₁ ++ (k.text.toList ++ d₂), x))
    (hr : '\r' ∉ d₁ ++ (k.text.toList ++ d₂)) (hx : Text.atBoundary x = true)
    (ho : Text.atBoundary (d₁ ++ k.text.toList) = true → ¬ Text.QuoteOnLine v) :
    b = v ++ '\'' :: d₁ ++ (k.text.toList ++ (d₂ ++ '\'' :: x)) ∧
      Lookalike (v ++ '\'' :: d₁) (d₂ ++ '\'' :: x) k := by
  obtain ⟨rfl, hq, hn⟩ := Body.View.eq_append_of_quoted h
  refine ⟨by simp [hb], .quoted rfl rfl ⟨hr, hn, ?_, ?_⟩ hx ho⟩
  · exact fun hi => hq (hi.subset (by simp))
  · exact fun hi => hq (hi.subset (by simp))

namespace Outline

/-- A spec file with one suite and one spec. -/
def specFile (body : String) : String :=
  "describe 'd'\nit 's' " ++ body ++ "\nend\nend\n"

/-- What is read from it when its body is read whole. -/
def specCatalogue (body : String) : Catalogue :=
  [("d", { description := "d", specs := [⟨"s", " " ++ body ++ "\n", "d", []⟩] })]

theorem specFile_eq (body : String) :
    (specFile body).toList = (Content.renderAll [⟨"d", [.spec "s" body]⟩]).toList := by
  have hd : "describe 'd'\nit 's' ".toList =
      "describe '".toList ++ ("d".toList ++ ("'\n".toList ++
        ("it '".toList ++ ("s".toList ++ "' ".toList)))) := by
    decide
  have he : "\nend\nend\n".toList = "\nend\n".toList ++ "end\n".toList := by decide
  unfold specFile Content.renderAll Content.render
  simp only [List.map_cons, List.map_nil, String.join_cons, String.join_nil, String.toList_append,
    Item.render, hd, he, List.append_assoc, String.toList_empty, List.append_nil]

/-- **A body in which all keywords are lookalikes is read whole**, and the keywords in a text of the
body language are lookalikes, if that text has no carriage return in it, a boundary follows it, and
it does not start with a boundary behind a quote of its line. -/
theorem read_spec_of_lookalikes (body : String) :
    (OnlyLookalikes body.toList → read (specFile body).toList = .ok (specCatalogue body)) ∧
    ∀ v s d₁ d₂ x k, body.toList = v ++ '\'' :: s →
      Body.View.quoted '\'' s = some (d₁ ++ (k.text.toList ++ d₂), x) →
      '\r' ∉ d₁ ++ (k.text.toList ++ d₂) → Text.atBoundary x = true →
      (Text.atBoundary (d₁ ++ k.text.toList) = true → ¬ Text.QuoteOnLine v) →
      body.toList = v ++ '\'' :: d₁ ++ (k.text.toList ++ (d₂ ++ '\'' :: x)) ∧
        Lookalike (v ++ '\'' :: d₁) (d₂ ++ '\'' :: x) k := by
  refine ⟨fun h => ?_, fun v s d₁ d₂ x k hb hq hr hx ho => lookalike_of_quoted hb hq hr hx ho⟩
  have hw : ∀ s ∈ [Content.mk "d" [.spec "s" body]], s.Writable := by
    simp only [List.mem_singleton, forall_eq, Content.Writable, Item.Writable]
    exact ⟨by decide, by decide, keywordFree_of_lookalikes h⟩
  rw [specFile_eq, read, tokens, feedAll_renderAll hw [] rfl]
  simp [finish, Opened.innermost?, Content.written, Item.written, Catalogue.putContent,
    Catalogue.insert, Catalogue.update, Table.upsert, Item.put, Suite.addSpec, specCatalogue]

/-- Lookalikes of three kinds, one of them in a text of the body language. -/
theorem read_spec_of_lookalikes_kinds :
    let body := "ending.it_ 'at the end ' // bend"
    OnlyLookalikes body.toList ∧ read (specFile body).toList = .ok (specCatalogue body) := by
  intro body
  have ho : occurrences body.toList = [(0, .close), (7, .it), (19, .close), (29, .close)] := by
    decide +kernel
  have htake : body.toList.take 19 = "ending.it_ ".toList ++ '\'' :: "at the ".toList := by decide
  have hdrop : body.toList.drop (19 + Keyword.close.text.toList.length) =
      [' '] ++ '\'' :: " // bend".toList := by
    decide
  obtain ⟨-, hquoted⟩ := (read_spec_of_lookalikes body).2 "ending.it_ ".toList
    "at the end ' // bend".toList "at the ".toList [' '] " // bend".toList .close (by decide)
    (by decide) (by decide) (by decide) fun h => absurd h (by decide)
  have h : OnlyLookalikes body.toList := by
    rw [OnlyLookalikes, forall_occurrence_iff, ho]
    simp only [List.forall_mem_cons, List.not_mem_nil, false_implies, implies_true, and_true]
    refine ⟨.wordAfter (by decide), .wordAfter (by decide), ?_, .wordBefore (by decide +kernel)⟩
    rwa [htake, hdrop]
  exact ⟨h, (read_spec_of_lookalikes body).1 h⟩

/-- Bodies that are not read whole, although the only keyword in them is part of a text or of a
comment: no boundary follows the closing quote, the quotes are double quotes, or there is no
quote. -/
theorem read_specFile_ne_of_code :
    (Body.statements "'x end y'.length".toList =
        .ok [.expr (.property (.string "x end y") "length")] ∧
      occurrences "'x end y'.length".toList = [(3, .close)] ∧
      read (specFile "'x end y'.length").toList ≠ .ok (specCatalogue "'x end y'.length")) ∧
    (Body.statements "\"x end y\"".toList = .ok [.expr (.string "x end y")] ∧
      occurrences "\"x end y\"".toList = [(3, .close)] ∧
      read (specFile "\"x end y\"").toList ≠ .ok (specCatalogue "\"x end y\"")) ∧
    (Body.statements "1 // x end y".toList = .ok [.expr (.number ⟨none, ['1'], none, none⟩)] ∧
      occurrences "1 // x end y".toList = [(7, .close)] ∧
      read (specFile "1 // x end y").toList ≠ .ok (specCatalogue "1 // x end y")) := by
  have hr : ∀ {x : Except OutlineError Catalogue} {c : Catalogue}, x.isOk = false → x ≠ .ok c := by
    rintro x c h rfl
    cases h
  exact ⟨⟨by decide +kernel, by decide +kernel, hr (by decide +kernel)⟩,
    ⟨by decide +kernel, by decide +kernel, hr (by decide +kernel)⟩,
    by decide +kernel, by decide +kernel, hr (by decide +kernel)⟩

end Outline

end SpecEngine
