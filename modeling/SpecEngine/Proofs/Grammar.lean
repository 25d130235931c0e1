import SpecEngine.Proofs.Contents
import SpecEngine.Proofs.Feeding

/-!
# The grammar of spec files

The outline reader accepts the spec files of a grammar and no others, and reads them as the
grammar means them.

* `Part`, `Block`, `Clause`: parse trees.  A file is a list of clauses: suites, and tokens without
  meaning between them;
* `yield`: the tokens of a tree; `Block.content`: what it means, its bodies being slices of the
  text; `Block.rawContent`: the same with bodies made of tokens;
* `take_clauses`: the reader takes the tokens of a tree for what the tree means, whatever follows;
* `Rest`, `rest_of_accepts`, `rest_of_take`: the tokens that a reader still takes until nothing is
  open are those that complete a tree;
* `isSliceOf_of_isInfix`: no comment is left out within a body, so a body is one slice;
* `read_eq_ok_iff`: the grammar of `read`.
-/

namespace SpecEngine

namespace Text

/-- The text behind the first `n` bytes. -/
def dropBytes : Nat → List Char → List Char
  | 0, s => s
  | _ + 1, [] => []
  | n + 1, c :: s => dropBytes (n + 1 - c.utf8Size) s

/-- The text of the first `n` bytes. -/
def takeBytes : Nat → List Char → List Char
  | 0, _ => []
  | _ + 1, [] => []
  | n + 1, c :: s => c :: takeBytes (n + 1 - c.utf8Size) s

/-- The text from byte `i` up to byte `j`. -/
def slice (s : List Char) (i j : Nat) : List Char :=
  takeBytes (j - i) (dropBytes i s)

theorem bytes_cons_eq_succ (c : Char) (s : List Char) :
    ∃ n, bytes (c :: s) = n + 1 ∧ n + 1 - c.utf8Size = bytes s := by
  have := c.utf8Size_pos
  exact ⟨bytes (c :: s) - 1, by simp; omega, by simp; omega⟩

theorem dropBytes_append (a b : List Char) : dropBytes (bytes a) (a ++ b) = b := by
  induction a with
  | nil => simp [dropBytes]
  | cons c a ih =>
    obtain ⟨n, hn, hb⟩ := bytes_cons_eq_succ c a
    rw [hn, List.cons_append, dropBytes, hb, ih]

theorem takeBytes_append (a b : List Char) : takeBytes (bytes a) (a ++ b) = a := by
  induction a with
  | nil => simp [takeBytes]
  | cons c a ih =>
    obtain ⟨n, hn, hb⟩ := bytes_cons_eq_succ c a
    rw [hn, List.cons_append, takeBytes, hb, ih]

theorem slice_append (a b c : List Char) :
    slice (a ++ (b ++ c)) (bytes a) (bytes a + bytes b) = b := by
  rw [slice, dropBytes_append, Nat.add_sub_cancel_left, takeBytes_append]

theorem trim_cons_ne_nil {c : Char} (hc : isBlank c = false) (s : List Char) :
    trim (c :: s) ≠ [] := by
  rw [trim, List.dropWhile_cons_of_neg (by simp [hc]), trimEnd]
  split
  · simp [hc]
  · simp

end Text

/-! ### Parse trees -/

namespace Token

/-- Tokens that are no keywords. -/
def IsText (t : Token) : Prop :=
  t.keyword? = none

/-- Tokens that are neither keywords nor literals. -/
def IsLoose (t : Token) : Prop :=
  t.IsText ∧ ∀ w, t ≠ .literal w

/-- Tokens of blanks and line breaks. -/
def IsBlank (t : Token) : Prop :=
  Text.trim t.raw = []

theorem IsBlank.isLoose {t : Token} (h : t.IsBlank) : t.IsLoose := by
  refine ⟨?_, ?_⟩
  · cases t with
    | keyword k =>
      -- the text of a keyword starts with a letter, so it is not blank
      exfalso
      revert h
      cases k with
      | hook hk => cases hk <;> exact Text.trim_cons_ne_nil (by decide +kernel) _
      | _ => exact Text.trim_cons_ne_nil (by decide +kernel) _
    | _ => rfl
  · rintro w rfl
    exact Text.trim_cons_ne_nil (by decide +kernel) _ h

end Token

/-- Tokens of a kind, in a row. -/
abbrev Tokens (P : Token → Prop) := List { t : Located // P t.token }

/-- What stands in a suite behind its description: a spec, a hook, or a token without meaning. -/
inductive Part
  | loose (t : Located) (ht : t.token.IsLoose)
  | spec (it : Place) (blanks : Tokens Token.IsBlank) (title : List Char) (quote : Place)
      (text : Tokens Token.IsText) (close : Place)
  | hook (h : Hook) (place : Place) (text : Tokens Token.IsText) (close : Place)

/-- A suite, which may hold tokens without meaning before its description. -/
structure Block where
  describe : Place
  lead : Tokens Token.IsLoose
  title : List Char
  quote : Place
  parts : List Part
  close : Place

/-- What stands in a file. -/
inductive Clause
  | loose (t : Located) (ht : t.token.IsText)
  | block (b : Block)

/-- A body whose opener is behind it. -/
def Part.bodyYield (text : Tokens Token.IsText) (close : Place) : List Located :=
  text.unattach ++ [⟨.keyword .close, close⟩]

/-- The tokens of a part. -/
def Part.yield : Part → List Located
  | loose t _ => [t]
  | spec it blanks title quote text close =>
    ⟨.keyword .it, it⟩ :: (blanks.unattach ++ ⟨.literal title, quote⟩ :: bodyYield text close)
  | hook h place text close => ⟨.keyword (.hook h), place⟩ :: bodyYield text close

/-- The tokens of a suite. -/
def Block.yield (b : Block) : List Located :=
  ⟨.keyword .describe, b.describe⟩ :: (b.lead.unattach ++ ⟨.literal b.title, b.quote⟩ ::
    (b.parts.flatMap Part.yield ++ [⟨.keyword .close, b.close⟩]))

/-- The tokens of a clause. -/
def Clause.yield : Clause → List Located
  | loose t _ => [t]
  | block b => b.yield

/-! ### What trees mean -/

/-- The text of `s` between a token and a place behind it. -/
def Located.textTo (t : Located) (s : List Char) (p : Place) : List Char :=
  Text.slice s t.stop p.start

/-- The item of a part.  Its body is what stands between its opener and its `end`. -/
def Part.item? (s : List Char) : Part → Option Item
  | loose .. => none
  | spec _ _ title quote _ close =>
    some (.spec (String.ofList title)
      (String.ofList (Located.textTo ⟨.literal title, quote⟩ s close)))
  | hook h place _ close =>
    some (.hook h (String.ofList (Located.textTo ⟨.keyword (.hook h), place⟩ s close)))

/-- What a suite that stands in `s` holds. -/
def Block.content (s : List Char) (b : Block) : Content :=
  ⟨String.ofList b.title, b.parts.filterMap (Part.item? s)⟩

/-- The suite of a clause that stands in `s`. -/
def Clause.content? (s : List Char) : Clause → Option Content
  | loose .. => none
  | block b => some (b.content s)

/-- Whether the tokens of a body are those that stand in `s` where the body stands. -/
def Part.IsSliceOf (s : List Char) : Part → Prop
  | loose .. => True
  | spec _ _ title quote text close =>
    Located.textTo ⟨.literal title, quote⟩ s close = raws text.unattach
  | hook h place text close =>
    Located.textTo ⟨.keyword (.hook h), place⟩ s close = raws text.unattach

/-- Whether the tokens of all bodies are those that stand in `s` where the bodies stand. -/
def Clause.IsSliceOf (s : List Char) : Clause → Prop
  | loose .. => True
  | block b => ∀ q ∈ b.parts, q.IsSliceOf s

/-- The item of a part, with a body that is made of its tokens. -/
def Part.rawItem? : Part → Option Item
  | loose .. => none
  | spec _ _ title _ text _ =>
    some (.spec (String.ofList title) (String.ofList (raws text.unattach)))
  | hook h _ text _ => some (.hook h (String.ofList (raws text.unattach)))

/-- What a suite holds, with bodies that are made of its tokens. -/
def Block.rawContent (b : Block) : Content :=
  ⟨String.ofList b.title, b.parts.filterMap Part.rawItem?⟩

/-- The suite of a clause, with bodies that are made of their tokens. -/
def Clause.rawContent? : Clause → Option Content
  | loose .. => none
  | block b => some b.rawContent

theorem Part.item?_of_isSliceOf {s : List Char} {q : Part} (h : q.IsSliceOf s) :
    q.item? s = q.rawItem? := by
  cases q with
  | loose t ht => rfl
  | spec it blanks title quote text close =>
    rw [IsSliceOf] at h
    rw [item?, h, rawItem?]
  | hook hk place text close =>
    rw [IsSliceOf] at h
    rw [item?, h, rawItem?]

theorem Clause.content?_of_isSliceOf {s : List Char} {x : Clause} (h : x.IsSliceOf s) :
    x.content? s = x.rawContent? := by
  cases x with
  | loose t ht => rfl
  | block b =>
    rw [content?, Block.content, rawContent?, Block.rawContent,
      List.filterMap_congr fun q hq => Part.item?_of_isSliceOf (h q hq)]

/-- Keywords behind which a body stands, at once or behind a title. -/
inductive Keyword.OpensBody : Keyword → Prop
  | it : OpensBody .it
  | hook (h : Hook) : OpensBody (.hook h)

namespace Outline

/-! ### Trees are read -/

theorem take_cons {o o' : Outline} {t : Located} (hf : o.feed t = .ok o') (ts : List Located) :
    take o (t :: ts) = take { o' with commenting := false } ts := by
  rw [take, hf]

/-- Tokens that change nothing but perhaps start a comment are passed over. -/
theorem take_skip {c : Catalogue} {x : Opened} {ts : List Located}
    (h : ∀ t ∈ ts, ∃ b, (⟨c, x, false⟩ : Outline).feed t = .ok ⟨c, x, b⟩) (us : List Located) :
    take ⟨c, x, false⟩ (ts ++ us) = take ⟨c, x, false⟩ us := by
  induction ts with
  | nil => rfl
  | cons t ts ih =>
    obtain ⟨b, hb⟩ := h t (by simp)
    rw [List.cons_append, take_cons hb, ih fun u hu => h u (by simp [hu])]

theorem feed_loose (c : Catalogue) {x : Opened} (hx : x.inBody = false) {t : Located}
    (ht : t.token.IsLoose) : ∃ b, (⟨c, x, false⟩ : Outline).feed t = .ok ⟨c, x, b⟩ := by
  obtain ⟨token, p⟩ := t
  obtain ⟨hk, hl⟩ := ht
  cases token with
  | keyword k => cases hk
  | literal w => exact absurd rfl (hl w)
  | _ =>
    cases x with
    | untitledSpec d q => cases hx
    | body d opener q text => cases hx
    | _ => exact ⟨_, rfl⟩

theorem feed_nothing (c : Catalogue) {t : Located} (ht : t.token.IsText) :
    ∃ b, (⟨c, .nothing, false⟩ : Outline).feed t = .ok ⟨c, .nothing, b⟩ := by
  obtain ⟨token, p⟩ := t
  cases token with
  | keyword k => cases ht
  | _ => exact ⟨_, rfl⟩

theorem feed_blank (c : Catalogue) (d : Draft) (q : Place) {t : Located} (ht : t.token.IsBlank) :
    ∃ b, (⟨c, .untitledSpec d q, false⟩ : Outline).feed t = .ok ⟨c, .untitledSpec d q, b⟩ := by
  obtain ⟨token, p⟩ := t
  obtain ⟨hk, hl⟩ := ht.isLoose
  refine ⟨false, ?_⟩
  cases token with
  | keyword k => cases hk
  | literal w => exact absurd rfl (hl w)
  | _ =>
    unfold Token.IsBlank at ht
    simp only [feed, feedText, ht, if_true]

theorem take_text (c : Catalogue) (d : Draft) (opener : Opener) (p : Place)
    (text : Tokens Token.IsText) (collected : String) (us : List Located) :
    take ⟨c, .body d opener p collected, false⟩ (text.unattach ++ us) =
      take ⟨c, .body d opener p (collected ++ String.ofList (raws text.unattach)), false⟩ us := by
  induction text generalizing collected with
  | nil => simp
  | cons t text ih =>
    rw [List.unattach_cons, List.cons_append, take_cons (feed_body t.2), ih, raws_cons,
      String.ofList_append, String.append_assoc]

theorem take_bodyYield {c : Catalogue} {d : Draft} {opener : Opener} {p close : Place}
    {text : Tokens Token.IsText} (us : List Located) (collected : String) :
    take ⟨c, .body d opener p collected, false⟩ (Part.bodyYield text close ++ us) =
      take ⟨c, .suite ⟨opener.finish d.suite (collected ++ String.ofList (raws text.unattach)),
        d.place⟩, false⟩ us := by
  rw [Part.bodyYield, List.append_assoc, take_text, List.singleton_append, take_cons rfl]

theorem take_part (q : Part) (c : Catalogue) (d : Draft) (us : List Located) :
    take ⟨c, .suite d, false⟩ (q.yield ++ us) =
      take ⟨c, .suite ⟨q.rawItem?.toList.foldl Item.put d.suite, d.place⟩, false⟩ us := by
  cases q with
  | loose t ht =>
    obtain ⟨b, hb⟩ := feed_loose c (x := .suite d) rfl ht
    rw [Part.yield, List.singleton_append, take_cons hb]
    rfl
  | spec it blanks title quote text close =>
    rw [Part.yield, List.cons_append, take_cons rfl, List.append_assoc,
      take_skip (fun t ht => feed_blank c d it (List.mem_unattach.1 ht).1), List.cons_append,
      take_cons rfl, take_bodyYield, String.empty_append]
    rfl
  | hook h place text close =>
    rw [Part.yield, List.cons_append, take_cons rfl, take_bodyYield, String.empty_append]
    rfl

theorem take_parts (parts : List Part) (c : Catalogue) (d : Draft) (us : List Located) :
    take ⟨c, .suite d, false⟩ (parts.flatMap Part.yield ++ us) =
      take ⟨c, .suite ⟨(parts.filterMap Part.rawItem?).foldl Item.put d.suite, d.place⟩, false⟩
        us := by
  induction parts generalizing d with
  | nil => rfl
  | cons q parts ih =>
    rw [List.flatMap_cons, List.append_assoc, take_part, ih]
    cases h : q.rawItem? <;> simp [h]

/-- The tokens of a suite up to its description, tokens without meaning among them. -/
theorem take_heading (c : Catalogue) (describe quote : Place) (lead : Tokens Token.IsLoose)
    (title : List Char) (us : List Located) :
    take ⟨c, .nothing, false⟩
        (⟨.keyword .describe, describe⟩ :: (lead.unattach ++ ⟨.literal title, quote⟩ :: us)) =
      take ⟨c, .suite ⟨{ description := String.ofList title }, describe⟩, false⟩ us := by
  rw [take_cons rfl, take_skip (fun t ht => feed_loose c rfl (List.mem_unattach.1 ht).1),
    take_cons rfl]

theorem take_block (b : Block) (c : Catalogue) (us : List Located) :
    take ⟨c, .nothing, false⟩ (b.yield ++ us) =
      take ⟨c.putContent b.rawContent, .nothing, false⟩ us := by
  rw [Block.yield, List.cons_append, List.append_assoc, List.cons_append, take_heading,
    List.append_assoc, take_parts, List.singleton_append, take_cons rfl, ← register_draft]
  rfl

theorem take_clauses (f : List Clause) (c : Catalogue) (us : List Located) :
    take ⟨c, .nothing, false⟩ (f.flatMap Clause.yield ++ us) =
      take ⟨(f.filterMap Clause.rawContent?).foldl Catalogue.putContent c, .nothing, false⟩
        us := by
  induction f generalizing c with
  | nil => rfl
  | cons x f ih =>
    cases x with
    | loose t ht =>
      obtain ⟨b, hb⟩ := feed_nothing c ht
      rw [List.flatMap_cons, Clause.yield, List.append_assoc, List.singleton_append,
        take_cons hb, ih]
      rfl
    | block b =>
      rw [List.flatMap_cons, Clause.yield, List.append_assoc, take_block, ih]
      rfl

/-! ### Whatever is read is a tree -/

/-- The tokens of the rest of a described suite, and of a file behind it. -/
def RestOfSuite (ts : List Located) : Prop :=
  ∃ (parts : List Part) (close : Place) (f : List Clause),
    ts = parts.flatMap Part.yield ++ ⟨.keyword .close, close⟩ :: f.flatMap Clause.yield

/-- The tokens of the rest of a body, and of the suite and the file behind it. -/
def RestOfBody (ts : List Located) : Prop :=
  ∃ text close us, RestOfSuite us ∧ ts = Part.bodyYield text close ++ us

/-- The tokens that close what is open, and of a file behind it. -/
def Rest : Opened → List Located → Prop
  | .nothing, ts => ∃ f : List Clause, ts = f.flatMap Clause.yield
  | .untitled _, ts =>
    ∃ (lead : Tokens Token.IsLoose) (title : List Char) (quote : Place) (us : List Located),
      RestOfSuite us ∧ ts = lead.unattach ++ ⟨.literal title, quote⟩ :: us
  | .suite _, ts => RestOfSuite ts
  | .untitledSpec .., ts =>
    ∃ (blanks : Tokens Token.IsBlank) (title : List Char) (quote : Place) (us : List Located),
      RestOfBody us ∧ ts = blanks.unattach ++ ⟨.literal title, quote⟩ :: us
  | .body .., ts => RestOfBody ts

theorem RestOfSuite.cons {ts : List Located} (h : RestOfSuite ts) (q : Part) :
    RestOfSuite (q.yield ++ ts) := by
  obtain ⟨parts, close, f, rfl⟩ := h
  exact ⟨q :: parts, close, f, by simp⟩

theorem Rest.cons_loose {x : Opened} (hx : x.inBody = false) {t : Located} (ht : t.token.IsLoose)
    {ts : List Located} (h : Rest x ts) : Rest x (t :: ts) := by
  cases x with
  | nothing =>
    obtain ⟨f, rfl⟩ := h
    exact ⟨.loose t ht.1 :: f, rfl⟩
  | untitled q =>
    obtain ⟨lead, title, quote, us, hus, rfl⟩ := h
    exact ⟨⟨t, ht⟩ :: lead, title, quote, us, hus, rfl⟩
  | suite d => exact RestOfSuite.cons h (.loose t ht)
  | untitledSpec d q => cases hx
  | body d opener q text => cases hx

/-- A token that is accepted completes what is completed after it. -/
theorem rest_of_accepts {o o' : Outline} {t : Located} (h : Accepts o t o')
    (ht : t.token ≠ .keyword .halt) {ts : List Located} (hr : Rest o'.opened ts) :
    Rest o.opened (t :: ts) := by
  cases h with
  | halt p => exact absurd rfl ht
  | describe c b p =>
    obtain ⟨lead, title, quote, us, ⟨parts, close, f, rfl⟩, rfl⟩ := hr
    exact ⟨.block ⟨p, lead, title, quote, parts, close⟩ :: f, by simp [Clause.yield, Block.yield]⟩
  | it c d b p =>
    obtain ⟨blanks, title, quote, us, ⟨text, close, vs, hvs, rfl⟩, rfl⟩ := hr
    have hp := hvs.cons (.spec p blanks title quote text close)
    simpa [Rest, Part.yield] using hp
  | hook c d b h p =>
    obtain ⟨text, close, us, hus, rfl⟩ := hr
    exact hus.cons (.hook h p text close)
  | closeSuite c d b p =>
    obtain ⟨f, rfl⟩ := hr
    exact ⟨[], p, f, rfl⟩
  | closeBody c d opener q text b p => exact ⟨[], p, ts, hr, rfl⟩
  | collect c d opener q text b t hk =>
    obtain ⟨text, close, us, hus, rfl⟩ := hr
    exact ⟨⟨t, hk⟩ :: text, close, us, hus, rfl⟩
  | titleSuite c q b w p => exact ⟨[], w, p, ts, hr, rfl⟩
  | titleSpec c d q b w p => exact ⟨[], w, p, ts, hr, rfl⟩
  | blank c d q b t hk hb =>
    obtain ⟨blanks, title, quote, us, hus, rfl⟩ := hr
    exact ⟨⟨t, hb⟩ :: blanks, title, quote, us, hus, rfl⟩
  | comment c x b p hx => exact hr.cons_loose hx ⟨by rfl, fun w => Token.noConfusion⟩
  | loose c x b t hx hk hc hl =>
    rcases hl with rfl | hl
    · obtain ⟨f, rfl⟩ := hr
      exact ⟨.loose t hk :: f, rfl⟩
    · exact hr.cons_loose hx ⟨hk, hl⟩

theorem rest_of_take {o o' : Outline} {ts : List Located}
    (ht : ∀ t ∈ ts, t.token ≠ .keyword .halt) (h : take o ts = .ok o')
    (ho : o'.opened = .nothing) : Rest o.opened ts := by
  induction ts generalizing o with
  | nil =>
    cases h
    rw [ho]
    exact ⟨[], rfl⟩
  | cons t ts ih =>
    rw [take] at h
    cases hf : o.feed t with
    | error e =>
      rw [hf] at h
      cases h
    | ok p =>
      rw [hf] at h
      exact rest_of_accepts (accepts_of_feed hf) (ht t (by simp))
        (ih (o := { p with commenting := false }) (fun u hu => ht u (by simp [hu])) h)

/-! ### Bodies are slices -/

theorem Region.next_opensBody {r : Region} (hr : r ≠ .comment) {k : Keyword} (hk : k.OpensBody) :
    r.next (.keyword k) = .body := by
  cases r with
  | comment => exact absurd rfl hr
  | _ => cases hk <;> rfl

theorem not_halt_of_mem_significant {r : Region} {ts : List Located} {t : Located}
    (h : t ∈ significant r ts) : t.token ≠ .keyword .halt := by
  induction ts generalizing r with
  | nil => simp [significant] at h
  | cons u ts ih =>
    rw [significant] at h
    split at h
    · cases h
    · next hu =>
      split at h
      · exact ih h
      · next hr =>
        rcases List.mem_cons.1 h with rfl | h
        · exact fun ht => hu ⟨fun hc => hr (Or.inl hc), ht⟩
        · exact ih h

theorem significant_body_cons (t : Located) (ts : List Located) :
    significant .body (t :: ts) =
      if t.token = .keyword .halt then []
      else t :: significant (Region.next .body t.token) ts := by
  have hn : Region.next .body t.token ≠ .comment := fun h =>
    nomatch (Region.eq_of_next_eq_comment (by simp) h).1
  rw [significant]
  simp [hn]

/-- The tokens of a body stand in a row in the text. -/
theorem prefix_of_significant {m : List Located} (hm : ∀ t ∈ m, t.token.IsText) {e : Located}
    {ts : List Located} (h : m ++ [e] <+: significant .body ts) : m ++ [e] <+: ts := by
  induction m generalizing ts with
  | nil =>
    cases ts with
    | nil => simp [significant] at h
    | cons t ts =>
      rw [significant_body_cons] at h
      split at h
      · simp at h
      · simpa using h
  | cons u m ih =>
    cases ts with
    | nil => simp [significant] at h
    | cons t ts =>
      rw [significant_body_cons] at h
      split at h
      · simp at h
      · obtain ⟨rfl, h⟩ := List.cons_prefix_cons.1 h
        rw [Region.next_body (hm u (by simp))] at h
        exact List.cons_prefix_cons.2 ⟨rfl, ih (fun v hv => hm v (by simp [hv])) h⟩

theorem isInfix_of_significant {k : Keyword} (hk : k.OpensBody) {p : Place} {m : List Located}
    (hm : ∀ t ∈ m, t.token.IsText) {e : Located} {r : Region} {ts : List Located}
    (h : ⟨.keyword k, p⟩ :: (m ++ [e]) <:+: significant r ts) :
    ⟨.keyword k, p⟩ :: (m ++ [e]) <:+: ts := by
  induction ts generalizing r with
  | nil => simp [significant] at h
  | cons t ts ih =>
    rw [significant] at h
    split at h
    · simp at h
    · split at h
      · exact List.infix_cons (ih h)
      · next hr =>
        rcases List.infix_cons_iff.1 h with h | h
        · -- from its opener on a body holds no comment, so nothing is left out
          obtain ⟨rfl, h⟩ := List.cons_prefix_cons.1 h
          rw [Region.next_opensBody (fun hc => hr (Or.inl hc)) hk] at h
          exact (List.cons_prefix_cons.2 ⟨rfl, prefix_of_significant hm h⟩).isInfix
        · exact List.infix_cons (ih h)

end Outline

/-- Tokens in a row make up the text that stands in their place. -/
theorem textTo_of_isInfix {s : List Char} {t e : Located} {m : List Located}
    (h : t :: (m ++ [e]) <:+: tokens s) : t.textTo s e.place = raws m := by
  obtain ⟨ts, us, h⟩ := h
  have hs : raws ts ++ t.token.raw ++ (raws m ++ (e.token.raw ++ raws us)) = s := by
    have hr := raws_tokensFrom none Place.first s
    rw [← tokens, ← h] at hr
    simpa using hr
  have hc := chained_tokensFrom none Place.first s
  rw [← tokens, ← h] at hc
  -- both places count the bytes before them, so the slice between them is `m` by `slice_append`
  have ht : t.place = Place.first.after (raws ts) :=
    Chained.place_eq ts (m ++ [e] ++ us) (by simpa using hc)
  have he : e.place = Place.first.after (raws (ts ++ t :: m)) :=
    Chained.place_eq (ts ++ t :: m) us (by simpa using hc)
  have hi : t.stop = Text.bytes (raws ts ++ t.token.raw) := by
    rw [Located.stop, ht, Place.start_after, Text.bytes_append]
    exact congrArg (· + _) (Nat.zero_add _)
  have hj : e.place.start = Text.bytes (raws ts ++ t.token.raw) + Text.bytes (raws m) := by
    rw [he, Place.start_after, raws_append, raws_cons, ← List.append_assoc, Text.bytes_append]
    exact Nat.zero_add _
  rw [Located.textTo, hi, hj, ← hs, Text.slice_append]

theorem Part.isSliceOf_of_isInfix {s : List Char} {q : Part}
    (h : q.yield <:+: Outline.significant .outside (tokens s)) : q.IsSliceOf s := by
  have ht : ∀ {P : Token → Prop} (l : Tokens P), ∀ t ∈ l.unattach, P t.token :=
    fun l t h => (List.mem_unattach.1 h).1
  cases q with
  | loose t h => trivial
  | spec it blanks title quote text close =>
    have hm : ∀ t ∈ blanks.unattach ++ ⟨.literal title, quote⟩ :: text.unattach,
        t.token.IsText := by
      intro t hmem
      rcases List.mem_append.1 hmem with hb | hb
      · exact (ht blanks t hb).isLoose.1
      · rcases List.mem_cons.1 hb with rfl | hb
        · rfl
        · exact ht text t hb
    have hi := Outline.isInfix_of_significant .it hm (e := ⟨.keyword .close, close⟩)
      (by simpa [Part.yield, Part.bodyYield] using h)
    refine textTo_of_isInfix (e := ⟨.keyword .close, close⟩) (List.IsInfix.trans ?_ hi)
    exact ⟨⟨.keyword .it, it⟩ :: blanks.unattach, [], by simp⟩
  | hook hk place text close =>
    exact textTo_of_isInfix (e := ⟨.keyword .close, close⟩)
      (Outline.isInfix_of_significant (.hook hk) (ht text) h)

theorem Clause.isSliceOf_of_mem {s : List Char} {f : List Clause}
    (h : f.flatMap Clause.yield = Outline.significant .outside (tokens s)) :
    ∀ x ∈ f, x.IsSliceOf s := by
  intro x hx
  have hi : x.yield <:+: f.flatMap Clause.yield := by
    obtain ⟨l, m, rfl⟩ := List.append_of_mem hx
    exact ⟨l.flatMap Clause.yield, m.flatMap Clause.yield, by simp⟩
  cases x with
  | loose t ht => trivial
  | block b =>
    intro q hq
    refine Part.isSliceOf_of_isInfix (h ▸ List.IsInfix.trans ?_ hi)
    obtain ⟨l, m, hl⟩ := List.append_of_mem hq
    refine ⟨⟨.keyword .describe, b.describe⟩ ::
        (b.lead.unattach ++ ⟨.literal b.title, b.quote⟩ :: l.flatMap Part.yield),
      m.flatMap Part.yield ++ [⟨.keyword .close, b.close⟩], ?_⟩
    simp [Clause.yield, Block.yield, hl]

namespace Outline

/-- The tokens of a tree are read as the tree means. -/
theorem read_of_yield {s : List Char} {f : List Clause}
    (hf : f.flatMap Clause.yield = significant .outside (tokens s)) :
    read s = .ok (Catalogue.ofContents (f.filterMap (Clause.content? s))) := by
  rw [read_eq_take, ← hf, ← List.append_nil (f.flatMap Clause.yield), take_clauses,
    List.filterMap_congr fun x hx =>
      Clause.content?_of_isSliceOf (Clause.isSliceOf_of_mem hf x hx)]
  rfl

/-- What can be read has a tree. -/
theorem exists_yield_of_read {s : List Char} {c : Catalogue} (h : read s = .ok c) :
    ∃ f : List Clause, f.flatMap Clause.yield = significant .outside (tokens s) := by
  rw [read_eq_take] at h
  cases ht : take {} (significant .outside (tokens s)) with
  | error e =>
    rw [ht] at h
    cases h
  | ok o =>
    rw [ht] at h
    have ho : o.opened = .nothing := by
      obtain ⟨c, x, b⟩ := o
      cases x with
      | nothing => rfl
      | _ => cases h
    obtain ⟨f, hf⟩ := rest_of_take (fun t h => not_halt_of_mem_significant h) ht ho
    exact ⟨f, hf.symm⟩

/-- What is read is made of contents. -/
theorem exists_contents_of_read {s : List Char} {c : Catalogue} (h : read s = .ok c) :
    ∃ l, c = Catalogue.ofContents l := by
  obtain ⟨f, hf⟩ := exists_yield_of_read h
  exact ⟨_, Except.ok.inj (h.symm.trans (read_of_yield hf))⟩

/-- **The grammar of spec files**: a text is read if and only if its tokens without comments, up to
the halt, are those of a list of clauses, and then its suites are those of the clauses in their
order, with bodies that stand in the text as they are. -/
theorem read_eq_ok_iff (s : List Char) (c : Catalogue) :
    read s = .ok c ↔
      ∃ f : List Clause, f.flatMap Clause.yield = significant .outside (tokens s) ∧
        Catalogue.ofContents (f.filterMap (Clause.content? s)) = c := by
  constructor
  · intro h
    obtain ⟨f, hf⟩ := exists_yield_of_read h
    exact ⟨f, hf, Except.ok.inj ((read_of_yield hf).symm.trans h)⟩
  · rintro ⟨f, hf, rfl⟩
    exact read_of_yield hf

end Outline

end SpecEngine
