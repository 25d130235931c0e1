import SpecEngine.Proofs.Grammar

/-!
# Blaming tokens

Where a spec file leaves the grammar, and which token its error blames.

* `Viable`: tokens with which a spec file may begin; `Beginning`: parse trees of such tokens, in
  which one suite may be unfinished; `Beginning.viable`: every one of them can be finished;
* `Unfinished.Shows`: the state of a reader behind a beginning; `take_beginning`: every beginning
  is accepted;
* `Unfinished.Blames`: the errors of a token behind a beginning; `feed_eq_error_iff`: they are those
  of the reader;
* `read_eq_error_iff`: a file fails at the first token that leaves the grammar, or at its end for
  what is open there.
-/

namespace SpecEngine

/-! ### Beginnings of files -/

/-- A suite that has its description and is not closed. -/
structure Front where
  describe : Place
  lead : Tokens Token.IsLoose
  title : List Char
  quote : Place
  parts : List Part

/-- The tokens of an open suite. -/
def Front.yield (b : Front) : List Located :=
  ⟨.keyword .describe, b.describe⟩ ::
    (b.lead.unattach ++ ⟨.literal b.title, b.quote⟩ :: b.parts.flatMap Part.yield)

/-- An open suite with one more part. -/
def Front.add (b : Front) (q : Part) : Front :=
  { b with parts := b.parts ++ [q] }

/-- The suite that an open suite is when it is closed. -/
def Front.close (b : Front) (p : Place) : Block :=
  ⟨b.describe, b.lead, b.title, b.quote, b.parts, p⟩

@[simp] theorem Front.yield_add (b : Front) (q : Part) : (b.add q).yield = b.yield ++ q.yield := by
  simp [Front.yield, add]

@[simp] theorem Front.yield_close (b : Front) (p : Place) :
    (b.close p).yield = b.yield ++ [⟨.keyword .close, p⟩] := by
  simp [Front.yield, Block.yield, close]

/-- What may be unfinished in a file: a suite with or without its description, and in the suite a
spec with or without its description, or a hook. -/
inductive Unfinished
  | nothing
  | untitled (describe : Place) (lead : Tokens Token.IsLoose)
  | suite (b : Front)
  | untitledSpec (b : Front) (it : Place) (blanks : Tokens Token.IsBlank)
  | spec (b : Front) (it : Place) (blanks : Tokens Token.IsBlank) (title : List Char)
      (quote : Place) (text : Tokens Token.IsText)
  | hook (b : Front) (h : Hook) (place : Place) (text : Tokens Token.IsText)

namespace Unfinished

/-- The tokens of what is unfinished. -/
def yield : Unfinished → List Located
  | nothing => []
  | untitled describe lead => ⟨.keyword .describe, describe⟩ :: lead.unattach
  | suite b => b.yield
  | untitledSpec b it blanks => b.yield ++ ⟨.keyword .it, it⟩ :: blanks.unattach
  | spec b it blanks title quote text =>
    b.yield ++ ⟨.keyword .it, it⟩ :: (blanks.unattach ++ ⟨.literal title, quote⟩ :: text.unattach)
  | hook b h place text => b.yield ++ ⟨.keyword (.hook h), place⟩ :: text.unattach

/-- The innermost open construct and the keyword that opened it. -/
def innermost? : Unfinished → Option (Construct × Located)
  | nothing => none
  | untitled describe _ => some (.describe, ⟨.keyword .describe, describe⟩)
  | suite b => some (.describe, ⟨.keyword .describe, b.describe⟩)
  | untitledSpec _ it _ | spec _ it .. => some (.it, ⟨.keyword .it, it⟩)
  | hook _ h place _ => some (.hook, ⟨.keyword (.hook h), place⟩)

/-- What a token may do wrong behind what is unfinished, and the error for it. -/
inductive Blames : Unfinished → Located → OutlineError → Prop
  | unmatchedEnd (p : Place) : Blames nothing ⟨.keyword .close, p⟩ (.unmatchedEnd p)
  | outsideSuite {k : Keyword} (hk : k.OpensBody) (p : Place) :
      Blames nothing ⟨.keyword k, p⟩ (.outsideSuite k p)
  | nestedSuite {u : Unfinished} {c : Construct} {v : Located} (h : u.innermost? = some (c, v))
      (p : Place) : Blames u ⟨.keyword .describe, p⟩ (.nested .describe c p)
  | nestedBody {u : Unfinished} {c : Construct} {v : Located} {k : Keyword}
      (h : u.innermost? = some (c, v)) (hc : c ≠ .describe) (hk : k.OpensBody) (p : Place) :
      Blames u ⟨.keyword k, p⟩ (.nested k c p)
  | untitledSuite {k : Keyword} (hk : k.OpensBody ∨ k = .close) (describe : Place)
      (lead : Tokens Token.IsLoose) (p : Place) :
      Blames (untitled describe lead) ⟨.keyword k, p⟩ (.missingDescription .describe describe)
  | untitledSpec {t : Located}
      (ht : t.token = .keyword .close ∨ t.token.IsLoose ∧ ¬ t.token.IsBlank)
      (b : Front) (it : Place) (blanks : Tokens Token.IsBlank) :
      Blames (untitledSpec b it blanks) t (.missingDescription .it it)
  | unexpectedLiteral (b : Front) (w : List Char) (p : Place) :
      Blames (suite b) ⟨.literal w, p⟩ (.unexpectedLiteral (Token.literal w).raw p)

end Unfinished

/-- The beginning of a file: clauses, and what is unfinished behind them. -/
structure Beginning where
  clauses : List Clause
  last : Unfinished

/-- The tokens of a beginning. -/
def Beginning.yield (b : Beginning) : List Located :=
  b.clauses.flatMap Clause.yield ++ b.last.yield

/-- Tokens with which a file of the grammar begins. -/
def Viable (ts : List Located) : Prop :=
  ∃ (us : List Located) (f : List Clause), ts ++ us = f.flatMap Clause.yield

/-- What is unfinished can be finished. -/
theorem Beginning.viable (b : Beginning) : Viable b.yield := by
  obtain ⟨f, u⟩ := b
  -- a title where one is missing, then an `end` for each open construct
  suffices h : ∃ (us : List Located) (g : List Clause), u.yield ++ us = g.flatMap Clause.yield by
    obtain ⟨us, g, hg⟩ := h
    exact ⟨us, f ++ g, by simp [yield, hg]⟩
  cases u with
  | nothing => exact ⟨[], [], rfl⟩
  | untitled p lead =>
    exact ⟨[⟨.literal [], p⟩, ⟨.keyword .close, p⟩], [.block ⟨p, lead, [], p, [], p⟩],
      by simp [Unfinished.yield, Clause.yield, Block.yield]⟩
  | suite b =>
    exact ⟨[⟨.keyword .close, b.describe⟩], [.block (b.close b.describe)],
      by simp [Unfinished.yield, Clause.yield]⟩
  | untitledSpec b p blanks =>
    exact ⟨[⟨.literal [], p⟩, ⟨.keyword .close, p⟩, ⟨.keyword .close, p⟩],
      [.block ((b.add (.spec p blanks [] p [] p)).close p)],
      by simp [Unfinished.yield, Clause.yield, Part.yield, Part.bodyYield]⟩
  | spec b p blanks title quote text =>
    exact ⟨[⟨.keyword .close, p⟩, ⟨.keyword .close, p⟩],
      [.block ((b.add (.spec p blanks title quote text p)).close p)],
      by simp [Unfinished.yield, Clause.yield, Part.yield, Part.bodyYield]⟩
  | hook b h p text =>
    exact ⟨[⟨.keyword .close, p⟩, ⟨.keyword .close, p⟩],
      [.block ((b.add (.hook h p text p)).close p)],
      by simp [Unfinished.yield, Clause.yield, Part.yield, Part.bodyYield]⟩

/-! ### Tokens to blame -/

/-- What a keyword opens. -/
def Keyword.construct? : Keyword → Option Construct
  | .describe => some .describe
  | .it => some .it
  | .hook _ => some .hook
  | .close | .halt => none

/-- Whether an error may blame a token: the offending token, or the keyword that opened what is
incomplete. -/
def OutlineError.PointsAt : OutlineError → Token → Prop
  | unmatchedEnd _, t => t = .keyword .close
  | nested k _ _, t => t = .keyword k
  | outsideSuite k _, t => t = .keyword k ∧ k ≠ .close
  | unexpectedLiteral raw _, t => (∃ w, t = .literal w) ∧ t.raw = raw
  | missingDescription c _, t | unterminated c _, t => ∃ k, t = .keyword k ∧ k.construct? = some c

namespace Beginning

theorem mem_yield_of_innermost? {b : Beginning} {c : Construct} {v : Located}
    (h : b.last.innermost? = some (c, v)) :
    v ∈ b.yield ∧ ∃ k, v.token = .keyword k ∧ k.construct? = some c := by
  obtain ⟨f, u⟩ := b
  cases u <;> cases h <;> simp [yield, Unfinished.yield, Front.yield, Keyword.construct?]

/-- The token that an error blames is the one that does wrong, or it was read before. -/
theorem exists_pointsAt {b : Beginning} {t : Located} {e : OutlineError}
    (h : b.last.Blames t e) : ∃ v ∈ b.yield ++ [t], v.place = e.place ∧ e.PointsAt v.token := by
  obtain ⟨f, u⟩ := b
  cases h with
  | unmatchedEnd p => exact ⟨⟨.keyword .close, p⟩, by simp, rfl, rfl⟩
  | outsideSuite hk p => exact ⟨⟨.keyword _, p⟩, by simp, rfl, rfl, by cases hk <;> simp⟩
  | nestedSuite h p => exact ⟨⟨.keyword .describe, p⟩, by simp, rfl, rfl⟩
  | nestedBody h hc hk p => exact ⟨⟨.keyword _, p⟩, by simp, rfl, rfl⟩
  | untitledSuite hk describe lead p =>
    exact ⟨⟨.keyword .describe, describe⟩, by simp [yield, Unfinished.yield], rfl, .describe, rfl,
      rfl⟩
  | untitledSpec ht b it blanks =>
    exact ⟨⟨.keyword .it, it⟩, by simp [yield, Unfinished.yield], rfl, .it, rfl, rfl⟩
  | unexpectedLiteral b w p => exact ⟨⟨.literal w, p⟩, by simp, rfl, ⟨w, rfl⟩, rfl⟩

end Beginning

/-! ### What a reader holds behind a beginning -/

namespace Unfinished

/-- What is open in a reader behind what is unfinished. -/
inductive Shows : Unfinished → Opened → Prop
  | nothing : Shows nothing .nothing
  | untitled (p : Place) (lead : Tokens Token.IsLoose) : Shows (untitled p lead) (.untitled p)
  | suite (b : Front) (s : Suite) : Shows (suite b) (.suite ⟨s, b.describe⟩)
  | untitledSpec (b : Front) (s : Suite) (p : Place) (blanks : Tokens Token.IsBlank) :
      Shows (untitledSpec b p blanks) (.untitledSpec ⟨s, b.describe⟩ p)
  | spec (b : Front) (s : Suite) (p : Place) (blanks : Tokens Token.IsBlank) (title : List Char)
      (quote : Place) (text : Tokens Token.IsText) (collected : String) :
      Shows (spec b p blanks title quote text)
        (.body ⟨s, b.describe⟩ (.spec (String.ofList title)) p collected)
  | hook (b : Front) (s : Suite) (h : Hook) (p : Place) (text : Tokens Token.IsText)
      (collected : String) :
      Shows (hook b h p text) (.body ⟨s, b.describe⟩ (.hook h) p collected)

theorem Shows.innermost?_eq {u : Unfinished} {x : Opened} (h : u.Shows x) :
    x.innermost? = u.innermost?.map fun r => (r.1, r.2.place) := by
  cases h <;> rfl

end Unfinished

namespace Outline

/-- A token without meaning goes on with a beginning and opens nothing. -/
theorem exists_beginning_of_loose {b : Beginning} {x : Opened} (hb : b.last.Shows x)
    (hx : x.inBody = false) {t : Located} (ht : t.token.IsText)
    (hl : x = .nothing ∨ ∀ w, t.token ≠ .literal w) :
    ∃ b' : Beginning, b'.yield = b.yield ++ [t] ∧ b'.last.Shows x := by
  obtain ⟨f, u⟩ := b
  cases hb with
  | nothing =>
    exact ⟨⟨f ++ [.loose t ht], .nothing⟩,
      by simp [Beginning.yield, Unfinished.yield, Clause.yield], .nothing⟩
  | untitled p lead =>
    have ht : t.token.IsLoose := ⟨ht, hl.resolve_left Opened.noConfusion⟩
    exact ⟨⟨f, .untitled p (lead ++ [⟨t, ht⟩])⟩, by simp [Beginning.yield, Unfinished.yield],
      .untitled p _⟩
  | suite b s =>
    have ht : t.token.IsLoose := ⟨ht, hl.resolve_left Opened.noConfusion⟩
    exact ⟨⟨f, .suite (b.add (.loose t ht))⟩,
      by simp [Beginning.yield, Unfinished.yield, Part.yield], .suite (b.add (.loose t ht)) s⟩
  | untitledSpec b s p blanks => cases hx
  | spec b s p blanks title quote text collected => cases hx
  | hook b s h p text collected => cases hx

/-- A token that is accepted goes on with a beginning. -/
theorem exists_beginning_of_accepts {b : Beginning} {o o' : Outline} {t : Located}
    (hb : b.last.Shows o.opened) (h : Accepts o t o') (ht : t.token ≠ .keyword .halt) :
    ∃ b' : Beginning, b'.yield = b.yield ++ [t] ∧ b'.last.Shows o'.opened := by
  obtain ⟨f, u⟩ := b
  cases h with
  | halt p => exact absurd rfl ht
  | describe c x p =>
    cases hb
    exact ⟨⟨f, .untitled p []⟩, by simp [Beginning.yield, Unfinished.yield], .untitled p []⟩
  | it c d x p =>
    cases hb with
    | suite b s =>
      exact ⟨⟨f, .untitledSpec b p []⟩, by simp [Beginning.yield, Unfinished.yield],
        .untitledSpec b s p []⟩
  | hook c d x h p =>
    cases hb with
    | suite b s =>
      exact ⟨⟨f, .hook b h p []⟩, by simp [Beginning.yield, Unfinished.yield], .hook b s h p [] ""⟩
  | closeSuite c d x p =>
    cases hb with
    | suite b s =>
      exact ⟨⟨f ++ [.block (b.close p)], .nothing⟩,
        by simp [Beginning.yield, Unfinished.yield, Clause.yield], .nothing⟩
  | closeBody c d opener q text x p =>
    cases hb with
    | spec b s p' blanks title quote text' =>
      exact ⟨⟨f, .suite (b.add (.spec q blanks title quote text' p))⟩,
        by simp [Beginning.yield, Unfinished.yield, Part.yield, Part.bodyYield], .suite _ _⟩
    | hook b s h p' text' =>
      exact ⟨⟨f, .suite (b.add (.hook h q text' p))⟩,
        by simp [Beginning.yield, Unfinished.yield, Part.yield, Part.bodyYield], .suite _ _⟩
  | collect c d opener q text x t hk =>
    cases hb with
    | spec b s p' blanks title quote text' =>
      exact ⟨⟨f, .spec b q blanks title quote (text' ++ [⟨t, hk⟩])⟩,
        by simp [Beginning.yield, Unfinished.yield], .spec b s q blanks title quote _ _⟩
    | hook b s h p' text' =>
      exact ⟨⟨f, .hook b h q (text' ++ [⟨t, hk⟩])⟩,
        by simp [Beginning.yield, Unfinished.yield], .hook b s h q _ _⟩
  | titleSuite c q x w p =>
    cases hb with
    | untitled _ lead =>
      exact ⟨⟨f, .suite ⟨q, lead, w, p, []⟩⟩,
        by simp [Beginning.yield, Unfinished.yield, Front.yield], .suite ⟨q, lead, w, p, []⟩ _⟩
  | titleSpec c d q x w p =>
    cases hb with
    | untitledSpec b s _ blanks =>
      exact ⟨⟨f, .spec b q blanks w p []⟩, by simp [Beginning.yield, Unfinished.yield],
        .spec b s q blanks w p [] ""⟩
  | blank c d q x t hk hbl =>
    cases hb with
    | untitledSpec b s _ blanks =>
      exact ⟨⟨f, .untitledSpec b q (blanks ++ [⟨t, hbl⟩])⟩,
        by simp [Beginning.yield, Unfinished.yield], .untitledSpec b s q _⟩
  | comment c x b p hx =>
    exact exists_beginning_of_loose hb hx rfl (.inr fun _ => Token.noConfusion)
  | loose c x b t hx hk hc hl => exact exists_beginning_of_loose hb hx hk hl

theorem take_front (b : Front) (c : Catalogue) :
    ∃ s, ∀ us, take ⟨c, .nothing, false⟩ (b.yield ++ us) =
      take ⟨c, .suite ⟨s, b.describe⟩, false⟩ us := by
  refine ⟨(b.parts.filterMap Part.rawItem?).foldl Item.put
    { description := String.ofList b.title }, fun us => ?_⟩
  rw [Front.yield, List.cons_append, List.append_assoc, List.cons_append, take_heading, take_parts]

theorem take_unfinished (u : Unfinished) (c : Catalogue) :
    ∃ x, u.Shows x ∧ ∀ us, take ⟨c, .nothing, false⟩ (u.yield ++ us) = take ⟨c, x, false⟩ us := by
  cases u with
  | nothing => exact ⟨.nothing, .nothing, fun us => rfl⟩
  | untitled p lead =>
    refine ⟨.untitled p, .untitled p lead, fun us => ?_⟩
    rw [Unfinished.yield, List.cons_append, take_cons rfl,
      take_skip fun t ht => feed_loose c rfl (List.mem_unattach.1 ht).1]
  | suite b =>
    obtain ⟨s, hs⟩ := take_front b c
    exact ⟨_, .suite b s, hs⟩
  | untitledSpec b p blanks =>
    obtain ⟨s, hs⟩ := take_front b c
    refine ⟨_, .untitledSpec b s p blanks, fun us => ?_⟩
    rw [Unfinished.yield, List.append_assoc, hs, List.cons_append, take_cons rfl,
      take_skip fun t ht => feed_blank c _ p (List.mem_unattach.1 ht).1]
  | spec b p blanks title quote text =>
    obtain ⟨s, hs⟩ := take_front b c
    refine ⟨_, .spec b s p blanks title quote text (String.ofList (raws text.unattach)),
      fun us => ?_⟩
    rw [Unfinished.yield, List.append_assoc, hs, List.cons_append, take_cons rfl,
      List.append_assoc, take_skip fun t ht => feed_blank c _ p (List.mem_unattach.1 ht).1,
      List.cons_append, take_cons rfl, take_text, String.empty_append]
  | hook b h p text =>
    obtain ⟨s, hs⟩ := take_front b c
    refine ⟨_, .hook b s h p text (String.ofList (raws text.unattach)), fun us => ?_⟩
    rw [Unfinished.yield, List.append_assoc, hs, List.cons_append, take_cons rfl, take_text,
      String.empty_append]

/-- Behind a beginning a reader holds what is unfinished. -/
theorem take_beginning (b : Beginning) :
    ∃ c x, b.last.Shows x ∧ ∀ us, take {} (b.yield ++ us) = take ⟨c, x, false⟩ us := by
  obtain ⟨x, hx, ht⟩ :=
    take_unfinished b.last ((b.clauses.filterMap Clause.rawContent?).foldl Catalogue.putContent [])
  exact ⟨_, x, hx, fun us => by rw [Beginning.yield, List.append_assoc, take_clauses, ht]⟩

/-! ### Errors of one token -/

theorem blames_of_roomFor {u : Unfinished} {x : Opened} (h : u.Shows x) {k : Keyword}
    (hk : k.OpensBody) {p : Place} {e : OutlineError} (he : roomFor k p x = .error e) :
    u.Blames ⟨.keyword k, p⟩ e := by
  cases h with
  | nothing =>
    cases he
    exact .outsideSuite hk p
  | untitled q lead =>
    cases he
    exact .untitledSuite (.inl hk) q lead p
  | suite b s => cases he
  | untitledSpec b s q blanks =>
    cases he
    exact .nestedBody rfl Construct.noConfusion hk p
  | spec b s q blanks title quote text collected =>
    cases he
    exact .nestedBody rfl Construct.noConfusion hk p
  | hook b s hk' q text collected =>
    cases he
    exact .nestedBody rfl Construct.noConfusion hk p

/-- A keyword of a body fails only for want of room. -/
theorem roomFor_of_feedKeyword {o : Outline} {k : Keyword} (hk : k.OpensBody) {p : Place}
    {e : OutlineError} (he : o.feedKeyword k p = .error e) : roomFor k p o.opened = .error e := by
  cases hr : roomFor k p o.opened with
  | ok d => cases hk <;> simp [feedKeyword, hr, Except.map] at he
  | error e' => cases hk <;> simpa [feedKeyword, hr, Except.map] using he

theorem blames_of_feedKeyword {u : Unfinished} {c : Catalogue} {x : Opened} (h : u.Shows x)
    {k : Keyword} {p : Place} {e : OutlineError}
    (he : (⟨c, x, false⟩ : Outline).feedKeyword k p = .error e) :
    u.Blames ⟨.keyword k, p⟩ e := by
  cases k with
  | halt => cases he
  | describe =>
    simp only [feedKeyword, h.innermost?_eq] at he
    cases hi : u.innermost? with
    | none => simp [hi] at he
    | some r =>
      rw [hi] at he
      cases he
      exact .nestedSuite hi p
  | it => exact blames_of_roomFor h .it (roomFor_of_feedKeyword .it he)
  | hook hk => exact blames_of_roomFor h (.hook hk) (roomFor_of_feedKeyword (.hook hk) he)
  | close =>
    cases h with
    | nothing =>
      cases he
      exact .unmatchedEnd p
    | untitled q lead =>
      cases he
      exact .untitledSuite (.inr rfl) q lead p
    | untitledSpec b s q blanks =>
      cases he
      exact .untitledSpec (.inl rfl) b q blanks
    | _ => cases he

/-- Between `it` and the description everything but blanks is an error. -/
theorem feed_untitledSpec (c : Catalogue) (d : Draft) (q : Place) {t : Located}
    (ht : t.token.IsLoose) (hb : ¬ t.token.IsBlank) :
    (⟨c, .untitledSpec d q, false⟩ : Outline).feed t = .error (.missingDescription .it q) := by
  obtain ⟨token, p⟩ := t
  obtain ⟨hk, hl⟩ := ht
  unfold Token.IsBlank at hb
  cases token with
  | keyword k => cases hk
  | literal w => exact absurd rfl (hl w)
  | _ => simp only [feed, feedText, hb, if_false]

theorem blames_of_text {u : Unfinished} {c : Catalogue} {x : Opened} (h : u.Shows x)
    {t : Located} (ht : t.token.IsText) {e : OutlineError}
    (he : (⟨c, x, false⟩ : Outline).feed t = .error e) : u.Blames t e := by
  obtain ⟨token, p⟩ := t
  -- literals are told apart from tokens without meaning
  have hl : (∃ w, token = .literal w) ∨ token.IsLoose := by
    by_cases hw : ∃ w, token = .literal w
    · exact .inl hw
    · exact .inr ⟨ht, fun w hw' => hw ⟨w, hw'⟩⟩
  cases h with
  | nothing =>
    obtain ⟨b, hb⟩ := feed_nothing c ht
    simp [hb] at he
  | untitled q lead =>
    rcases hl with ⟨w, rfl⟩ | hl
    · cases he
    · obtain ⟨b, hb⟩ := feed_loose c (x := .untitled q) rfl (t := ⟨token, p⟩) hl
      simp [hb] at he
  | suite b s =>
    rcases hl with ⟨w, rfl⟩ | hl
    · cases he
      exact .unexpectedLiteral b w p
    · obtain ⟨b', hb⟩ := feed_loose c (x := .suite ⟨s, b.describe⟩) rfl (t := ⟨token, p⟩) hl
      simp [hb] at he
  | untitledSpec b s q blanks =>
    rcases hl with ⟨w, rfl⟩ | hl
    · cases he
    · by_cases hb : token.IsBlank
      · obtain ⟨b', hb'⟩ := feed_blank c ⟨s, b.describe⟩ q (t := ⟨token, p⟩) hb
        simp [hb'] at he
      · rw [feed_untitledSpec c _ q hl hb] at he
        cases he
        exact .untitledSpec (.inr ⟨hl, hb⟩) b q blanks
  | spec b s q blanks title quote text collected =>
    rw [feed_body ht] at he
    cases he
  | hook b s hk q text collected =>
    rw [feed_body ht] at he
    cases he

/-- Behind a beginning a token is an error exactly where it does something wrong. -/
theorem feed_eq_error_iff {u : Unfinished} {c : Catalogue} {x : Opened} (h : u.Shows x)
    (t : Located) (e : OutlineError) :
    (⟨c, x, false⟩ : Outline).feed t = .error e ↔ u.Blames t e := by
  constructor
  · intro he
    cases hk : t.token with
    | keyword k =>
      obtain ⟨token, p⟩ := t
      cases hk
      exact blames_of_feedKeyword h he
    | _ => exact blames_of_text h (by rw [hk]; rfl) he
  · intro hb
    cases hb with
    | unmatchedEnd =>
      cases h
      rfl
    | outsideSuite hk =>
      cases h
      cases hk <;> rfl
    | nestedSuite hi =>
      simp only [feed, feedKeyword, h.innermost?_eq, hi]
      rfl
    | nestedBody hi hc hk =>
      cases h with
      | nothing => cases hi
      | untitled | suite =>
        cases hi
        exact absurd rfl hc
      | untitledSpec | spec | hook =>
        cases hi
        cases hk <;> rfl
    | untitledSuite hk =>
      cases h
      rcases hk with ⟨_ | _⟩ | rfl <;> rfl
    | untitledSpec ht =>
      cases h
      rcases ht with ht | ⟨hl, hn⟩
      · obtain ⟨token, p⟩ := t
        cases ht
        rfl
      · exact feed_untitledSpec c _ _ hl hn
    | unexpectedLiteral =>
      cases h
      rfl

/-! ### Errors of files -/

/-- What a reader makes of tokens behind a beginning: it accepts them and holds what is unfinished
then, or fails with the error of the first of them that does wrong. -/
theorem take_cases {b : Beginning} {c : Catalogue} {x : Opened} (hb : b.last.Shows x)
    {ts : List Located} (ht : ∀ t ∈ ts, t.token ≠ .keyword .halt) :
    (∃ (b' : Beginning) (c' : Catalogue) (x' : Opened), b'.yield = b.yield ++ ts ∧
      b'.last.Shows x' ∧ take ⟨c, x, false⟩ ts = .ok ⟨c', x', false⟩) ∨
    ∃ (b' : Beginning) (us : List Located) (t : Located) (vs : List Located) (e : OutlineError),
      b'.yield = b.yield ++ us ∧ ts = us ++ t :: vs ∧ b'.last.Blames t e ∧
      take ⟨c, x, false⟩ ts = .error e := by
  induction ts generalizing b c x with
  | nil => exact .inl ⟨b, c, x, by simp, hb, rfl⟩
  | cons t ts ih =>
    cases hf : (⟨c, x, false⟩ : Outline).feed t with
    | error e =>
      exact .inr ⟨b, [], t, ts, e, by simp, rfl, (feed_eq_error_iff hb t e).1 hf, by rw [take, hf]⟩
    | ok o =>
      obtain ⟨b₁, hy₁, hb₁⟩ := exists_beginning_of_accepts hb (accepts_of_feed hf) (ht t (by simp))
      rw [take_cons hf]
      rcases ih (c := o.catalogue) hb₁ fun u hu => ht u (by simp [hu]) with
        ⟨b', c', x', hy, hx, hok⟩ | ⟨b', us, u, vs, e, hy, rfl, hu, he⟩
      · exact .inl ⟨b', c', x', by rw [hy, hy₁, ← List.append_cons], hx, hok⟩
      · exact .inr ⟨b', t :: us, u, vs, e, by rw [hy, hy₁, ← List.append_cons], rfl, hu, he⟩

/-- Behind a token that does something wrong no file can go on. -/
theorem not_viable_of_blames {b : Beginning} {t : Located} {e : OutlineError}
    (h : b.last.Blames t e) : ¬ Viable (b.yield ++ [t]) := by
  rintro ⟨us, f, hf⟩
  obtain ⟨c, x, hx, hb⟩ := take_beginning b
  have he : take {} (b.yield ++ t :: us) = .error e := by
    rw [hb, take, (feed_eq_error_iff hx t e).2 h]
  rw [List.append_cons, hf, ← List.append_nil (f.flatMap Clause.yield), take_clauses] at he
  cases he

theorem mem_of_mem_significant {r : Region} {ts : List Located} {t : Located}
    (h : t ∈ significant r ts) : t ∈ ts := by
  induction ts generalizing r with
  | nil => simp [significant] at h
  | cons u ts ih =>
    rw [significant] at h
    split at h
    · cases h
    · split at h
      · exact List.mem_cons_of_mem u (ih h)
      · rcases List.mem_cons.1 h with rfl | h
        · exact List.mem_cons_self
        · exact List.mem_cons_of_mem u (ih h)

/-- **Errors blame the right token.**  A file fails with an error if and only if the tokens of the
file that count begin as the grammar allows, and then

* the first token with which no file of the grammar goes on does something wrong there, which is
  what the error says, or
* there is no further token, and the error names the innermost open construct.

The place of the error is that of the token that does wrong, or of the keyword that opened what is
incomplete. -/
theorem read_eq_error_iff (s : List Char) (e : OutlineError) :
    read s = .error e ↔
      ∃ (b : Beginning) (rest : List Located),
        significant .outside (tokens s) = b.yield ++ rest ∧ Viable b.yield ∧
        ((∃ t vs, rest = t :: vs ∧ ¬ Viable (b.yield ++ [t]) ∧ b.last.Blames t e) ∨
          rest = [] ∧ ∃ c v, b.last.innermost? = some (c, v) ∧ e = .unterminated c v.place) ∧
        ∃ v ∈ b.yield ++ rest.take 1, v ∈ tokens s ∧ v.place = e.place ∧ e.PointsAt v.token := by
  rw [read_eq_take]
  constructor
  · intro h
    have hmem : ∀ v ∈ significant .outside (tokens s), v ∈ tokens s := fun v hv =>
      mem_of_mem_significant hv
    have hhalt : ∀ t ∈ significant .outside (tokens s), t.token ≠ .keyword .halt := fun t ht =>
      not_halt_of_mem_significant ht
    rcases take_cases (b := ⟨[], .nothing⟩) (c := []) .nothing hhalt with
      ⟨b, c, x, hy, hx, hok⟩ | ⟨b, us, t, vs, e', hy, hts, hb, he⟩
    · -- all tokens were accepted, so it is the end that fails
      change b.yield = significant .outside (tokens s) at hy
      rw [hok] at h
      simp only [Except.bind, finish, hx.innermost?_eq] at h
      cases hi : b.last.innermost? with
      | none => simp [hi] at h
      | some r =>
        obtain ⟨c', v⟩ := r
        rw [hi] at h
        cases h
        obtain ⟨hv, hk⟩ := Beginning.mem_yield_of_innermost? hi
        exact ⟨b, [], by simp [hy], b.viable, .inr ⟨rfl, c', v, hi, rfl⟩, v, by simpa using hv,
          hmem v (hy ▸ hv), rfl, hk⟩
    · change b.yield = us at hy
      subst hy
      rw [he] at h
      cases h
      obtain ⟨v, hv, hp, hk⟩ := Beginning.exists_pointsAt hb
      refine ⟨b, t :: vs, hts, b.viable, .inl ⟨t, vs, rfl, not_viable_of_blames hb, hb⟩, v,
        by simpa using hv, hmem v ?_, hp, hk⟩
      rw [hts, List.append_cons]
      exact List.mem_append_left _ hv
  · rintro ⟨b, rest, hts, -, ⟨t, vs, rfl, -, hb⟩ | ⟨rfl, c, v, hi, rfl⟩, -⟩
    · obtain ⟨c, x, hx, ht⟩ := take_beginning b
      rw [hts, ht, take, (feed_eq_error_iff hx t e).2 hb]
      rfl
    · obtain ⟨c', x, hx, ht⟩ := take_beginning b
      rw [hts, ht]
      simp only [take, Except.bind, finish, hx.innermost?_eq, hi]
      rfl

end Outline

end SpecEngine
