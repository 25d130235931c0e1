import SpecEngine.Outline.Reader
import SpecEngine.Proofs.Tokens

/-!
# Feeding tokens

What tokens do to an outline that is being read, one by one and in a row.

* `feedAll_cons`: a token outside a comment; `feedAll_text`: a row of tokens inside a body;
* `Region`, `significant`: the tokens that count, which are those before the halt that are in no
  comment; `read_eq_take`: reading a text is taking its significant tokens one after the other.
-/

namespace SpecEngine

/-- Whether a spec or a hook is open. -/
def Opened.inBody : Opened → Bool
  | .untitledSpec .. | .body .. => true
  | _ => false

namespace Outline

/-- What a token that is accepted outside comments does: every way in which `feed` succeeds. -/
inductive Accepts : Outline → Located → Outline → Prop
  | halt (o p) : Accepts o ⟨.keyword .halt, p⟩ o
  | describe (c b p) : Accepts ⟨c, .nothing, b⟩ ⟨.keyword .describe, p⟩ ⟨c, .untitled p, b⟩
  | it (c d b p) : Accepts ⟨c, .suite d, b⟩ ⟨.keyword .it, p⟩ ⟨c, .untitledSpec d p, b⟩
  | hook (c d b h p) :
      Accepts ⟨c, .suite d, b⟩ ⟨.keyword (.hook h), p⟩ ⟨c, .body d (.hook h) p "", b⟩
  | closeSuite (c d b p) :
      Accepts ⟨c, .suite d, b⟩ ⟨.keyword .close, p⟩ ⟨register c d.suite, .nothing, b⟩
  | closeBody (c d opener q text b p) :
      Accepts ⟨c, .body d opener q text, b⟩ ⟨.keyword .close, p⟩
        ⟨c, .suite { d with suite := opener.finish d.suite text }, b⟩
  | collect (c d opener q text b t) (ht : t.token.keyword? = none) :
      Accepts ⟨c, .body d opener q text, b⟩ t
        ⟨c, .body d opener q (text ++ String.ofList t.token.raw), b⟩
  | titleSuite (c q b w p) :
      Accepts ⟨c, .untitled q, b⟩ ⟨.literal w, p⟩
        ⟨c, .suite ⟨{ description := String.ofList w }, q⟩, b⟩
  | titleSpec (c d q b w p) :
      Accepts ⟨c, .untitledSpec d q, b⟩ ⟨.literal w, p⟩
        ⟨c, .body d (.spec (String.ofList w)) q "", b⟩
  | blank (c d q b t) (ht : t.token.keyword? = none) (hb : Text.trim t.token.raw = []) :
      Accepts ⟨c, .untitledSpec d q, b⟩ t ⟨c, .untitledSpec d q, b⟩
  | comment (c x b p) (hx : x.inBody = false) :
      Accepts ⟨c, x, b⟩ ⟨.comment, p⟩ ⟨c, x, true⟩
  | loose (c x b t) (hx : x.inBody = false) (ht : t.token.keyword? = none)
      (hc : t.token ≠ .comment) (hl : x = .nothing ∨ ∀ w, t.token ≠ .literal w) :
      Accepts ⟨c, x, b⟩ t ⟨c, x, b⟩

theorem accepts_of_feedKeyword {o o' : Outline} {k : Keyword} {p : Place}
    (h : o.feedKeyword k p = .ok o') : Accepts o ⟨.keyword k, p⟩ o' := by
  obtain ⟨c, x, b⟩ := o
  cases k with
  | halt =>
    cases h
    exact .halt _ p
  | describe =>
    cases x <;> simp only [feedKeyword, Opened.innermost?, reduceCtorEq] at h
    cases h
    exact .describe c b p
  | it =>
    cases x <;> simp only [feedKeyword, roomFor, Except.map, reduceCtorEq] at h
    cases h
    exact .it c _ b p
  | hook hk =>
    cases x <;> simp only [feedKeyword, roomFor, Except.map, reduceCtorEq] at h
    cases h
    exact .hook c _ b hk p
  | close =>
    cases x <;> simp only [feedKeyword, reduceCtorEq] at h
    · cases h
      exact .closeSuite c _ b p
    · cases h
      exact .closeBody c _ _ _ _ b p

theorem accepts_of_feedText {o o' : Outline} {token : Token} {p : Place}
    (ht : token.keyword? = none) (h : o.feedText token p = .ok o') :
    Accepts o ⟨token, p⟩ o' := by
  obtain ⟨c, x, b⟩ := o
  cases x with
  | body d opener q text =>
    cases h
    exact .collect c d opener q text b ⟨token, p⟩ ht
  | untitledSpec d q =>
    have hb : ∀ token : Token, token.keyword? = none →
        (if Text.trim token.raw = [] then .ok ⟨c, .untitledSpec d q, b⟩
          else .error (OutlineError.missingDescription .it q)) = Except.ok o' →
        Accepts ⟨c, .untitledSpec d q, b⟩ ⟨token, p⟩ o' := by
      intro token ht h
      split at h
      · next hr =>
        cases h
        exact .blank c d q b ⟨token, p⟩ ht hr
      · cases h
    cases token with
    | literal w =>
      cases h
      exact .titleSpec c d q b w p
    | _ => exact hb _ ht h
  | nothing =>
    cases token with
    | comment =>
      cases h
      exact .comment c .nothing b p rfl
    | _ =>
      cases h
      exact .loose c .nothing b _ rfl ht Token.noConfusion (Or.inl rfl)
  | untitled q =>
    cases token with
    | comment =>
      cases h
      exact .comment c (.untitled q) b p rfl
    | literal w =>
      cases h
      exact .titleSuite c q b w p
    | _ =>
      cases h
      exact .loose c (.untitled q) b _ rfl ht Token.noConfusion (Or.inr fun _ => Token.noConfusion)
  | suite d =>
    cases token with
    | comment =>
      cases h
      exact .comment c (.suite d) b p rfl
    | literal w => cases h
    | _ =>
      cases h
      exact .loose c (.suite d) b _ rfl ht Token.noConfusion (Or.inr fun _ => Token.noConfusion)

theorem accepts_of_feed {o o' : Outline} {t : Located} (h : o.feed t = .ok o') :
    Accepts o t o' := by
  obtain ⟨token, p⟩ := t
  cases token with
  | keyword k => exact accepts_of_feedKeyword h
  | _ => exact accepts_of_feedText rfl h

theorem feedAll_cons {o o' : Outline} {t : Located} (hc : o.commenting = false)
    (ht : t.token ≠ .keyword .halt) (hf : o.feed t = .ok o') (ts : List Located) :
    feedAll o (t :: ts) = feedAll o' ts := by
  rw [feedAll, hc, if_neg Bool.false_ne_true, if_neg ht, hf]

/-- A body collects the text of all tokens that are no keywords, comment markers among them. -/
theorem feed_body {c : Catalogue} {d : Draft} {opener : Opener} {p : Place} {text : String}
    {t : Located} (ht : t.token.keyword? = none) :
    (⟨c, .body d opener p text, false⟩ : Outline).feed t =
      .ok ⟨c, .body d opener p (text ++ String.ofList t.token.raw), false⟩ := by
  obtain ⟨token, q⟩ := t
  cases token with
  | keyword k => simp [Token.keyword?] at ht
  | _ => rfl

theorem feedAll_text {c : Catalogue} {d : Draft} {opener : Opener} {p : Place} {text : String}
    {ts : List Located} (hts : ∀ t ∈ ts, t.token.keyword? = none) (us : List Located) :
    feedAll ⟨c, .body d opener p text, false⟩ (ts ++ us) =
      feedAll ⟨c, .body d opener p (text ++ String.ofList (raws ts)), false⟩ us := by
  induction ts generalizing text with
  | nil => simp
  | cons t ts ih =>
    have ht := hts t (by simp)
    have hh : t.token ≠ .keyword .halt := by
      intro h
      simp [h, Token.keyword?] at ht
    rw [List.cons_append, feedAll_cons rfl hh (feed_body ht), ih fun u hu => hts u (by simp [hu]),
      raws_cons, String.ofList_append, String.append_assoc]

/-! ### The tokens that count -/

/-- Where a token stands: in the body of a spec or a hook, which its keyword opens, in a comment,
or in neither. -/
inductive Region
  | outside
  | body
  | comment
  deriving DecidableEq

/-- Where the token after a token stands. -/
def Region.next : Region → Token → Region
  | .comment, .newline _ => .outside
  | .comment, _ => .comment
  | .outside, .comment => .comment
  | _, .keyword .it => .body
  | _, .keyword (.hook _) => .body
  | _, .keyword .close => .outside
  | r, _ => r

theorem Region.next_body {token : Token} (h : token.keyword? = none) :
    Region.next .body token = .body := by
  cases token with
  | keyword k => cases h
  | _ => rfl

theorem Region.next_outside {token : Token} (h : token.keyword? = none) (hc : token ≠ .comment) :
    Region.next .outside token = .outside := by
  cases token with
  | keyword k => cases h
  | comment => exact absurd rfl hc
  | _ => rfl

/-- The tokens before the first halt outside comments, without those that make up comments. -/
def significant : Region → List Located → List Located
  | _, [] => []
  | r, t :: ts =>
    if r ≠ .comment ∧ t.token = .keyword .halt then []
    else if r = .comment ∨ r.next t.token = .comment then significant (r.next t.token) ts
    else t :: significant (r.next t.token) ts

/-- Feeds tokens none of which stands in a comment. -/
def take (o : Outline) : List Located → Except OutlineError Outline
  | [] => .ok o
  | t :: ts =>
    match o.feed t with
    | .ok o => take { o with commenting := false } ts
    | .error e => .error e

/-- Where the next token stands. -/
def region (o : Outline) : Region :=
  if o.commenting then .comment else if o.opened.inBody then .body else .outside

theorem region_of_not_commenting {o : Outline} (h : o.commenting = false) :
    o.region = if o.opened.inBody then .body else .outside := by
  simp [region, h]

theorem Region.eq_of_next_eq_comment {r : Region} {token : Token} (hr : r ≠ .comment)
    (h : r.next token = .comment) : r = .outside ∧ token = .comment := by
  unfold Region.next at h
  split at h <;> simp_all

theorem region_eq_outside {o : Outline} (h : o.region = .outside) : o.opened.inBody = false := by
  unfold region at h
  split at h <;> simp_all

theorem feed_comment {o : Outline} (ho : o.opened.inBody = false) {t : Located}
    (ht : t.token = .comment) : o.feed t = .ok { o with commenting := true } := by
  obtain ⟨c, x, b⟩ := o
  obtain ⟨token, p⟩ := t
  cases ht
  cases x with
  | untitledSpec d q => cases ho
  | body d opener q text => cases ho
  | _ => rfl

/-- A token outside comments leads to where its kind says, and a comment starts only outside
bodies. -/
theorem Accepts.region_eq {o o' : Outline} {t : Located} (h : Accepts o t o')
    (ht : t.token ≠ .keyword .halt) (hc : o.commenting = false) :
    o'.region = o.region.next t.token ∧ (o'.commenting = true → o'.opened.inBody = false) := by
  cases h with
  | halt p => exact absurd rfl ht
  | collect c d opener q text b t hk =>
    cases hc
    exact ⟨(Region.next_body hk).symm, Bool.noConfusion⟩
  | blank c d q b t hk hb =>
    cases hc
    exact ⟨(Region.next_body hk).symm, Bool.noConfusion⟩
  | comment c x b p hx =>
    cases hc
    exact ⟨by simp [region, hx, Region.next], fun _ => hx⟩
  | loose c x b t hx hk hn =>
    cases hc
    refine ⟨?_, Bool.noConfusion⟩
    rw [region_of_not_commenting rfl, hx]
    exact (Region.next_outside hk hn).symm
  | _ =>
    cases hc
    exact ⟨rfl, Bool.noConfusion⟩

/-- Tokens in a comment are passed over, the others are taken. -/
theorem feedAll_bind_finish (o : Outline) (ho : o.commenting = true → o.opened.inBody = false)
    (ts : List Located) :
    (feedAll o ts).bind finish =
      (take { o with commenting := false } (significant o.region ts)).bind finish := by
  induction ts generalizing o with
  | nil => rfl
  | cons t ts ih =>
    by_cases hc : o.commenting = true
    · -- inside a comment only the line break matters
      have hr : o.region = .comment := by simp [region, hc]
      have hx := ho hc
      rw [feedAll, if_pos hc, hr, significant, if_neg (by simp), if_pos (Or.inl rfl)]
      split
      · next carriage hn =>
        have ho' : ({ o with commenting := false } : Outline).region = .outside := by
          simp [region, hx]
        rw [ih { o with commenting := false } fun _ => hx, ho', hn]
        rfl
      · next hn =>
        have hr' : Region.next .comment t.token = .comment := by
          unfold Region.next
          split <;> simp_all
        rw [ih o ho, hr, hr']
    · have hc : o.commenting = false := by simpa using hc
      have ho' : { o with commenting := false } = o := by rw [← hc]
      have hr : o.region ≠ .comment := by
        rw [region_of_not_commenting hc]
        split <;> simp
      rw [feedAll, hc, if_neg Bool.false_ne_true, ho', significant]
      by_cases hh : t.token = .keyword .halt
      · rw [if_pos hh, if_pos ⟨hr, hh⟩]
        rfl
      · rw [if_neg hh, if_neg fun h => hh h.2]
        by_cases hn : o.region.next t.token = .comment
        · obtain ⟨hx, ht⟩ := Region.eq_of_next_eq_comment hr hn
          have hb := region_eq_outside hx
          -- the marker itself is left out with its comment
          have hi := ih { o with commenting := true } fun _ => hb
          rw [if_pos (Or.inr hn), feed_comment hb ht, hn]
          simpa [region, ho'] using hi
        · rw [if_neg (by simp [hr, hn]), take]
          cases hf : o.feed t with
          | error e => rfl
          | ok o' =>
            obtain ⟨ho', hb⟩ := (accepts_of_feed hf).region_eq hh hc
            simp only [ih o' hb, ho']

theorem read_eq_bind (s : List Char) : read s = (feedAll {} (tokens s)).bind finish := by
  rw [read]
  cases feedAll {} (tokens s) <;> rfl

/-- Reading a text is taking its significant tokens. -/
theorem read_eq_take (s : List Char) :
    read s = (take {} (significant .outside (tokens s))).bind finish :=
  (read_eq_bind s).trans (feedAll_bind_finish {} (fun h => nomatch h) (tokens s))

end Outline

end SpecEngine
