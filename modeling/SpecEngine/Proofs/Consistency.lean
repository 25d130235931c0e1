import SpecEngine.Proofs.Building
import SpecEngine.Proofs.Slots

/-!
# What the slots of a reader hold

The slots of a reader could be filled in any way, but no tokens ever fill them in a way that makes
no sense, not even behind tokens that were refused.  So two branches of the reader are never taken.

* `Consistent`: what is true of the slots; `Effect`, `effect_feed`: all that a token can do there;
* `consistent_feed`: what is kept by each token; `Effect.begins`, `Effect.of_capturing`: how a body
  begins to collect text, and what becomes of it;
* `Effect.result_ne`, `feedWith_eq`: what that leaves of the two branches;
* `after`, `consistent_after`: the slots behind tokens, whatever these came to;
* `Collects`, `exists_collects`: the text of an open body is what was fed since it began;
* `Passes`, `exists_passes_of_feedAll`: tokens that are all accepted, and what the outline reader
  makes of them;
* `after_consistent`: all of this, of any tokens.
-/

namespace SpecEngine

/-- The token behind which the text of a body begins: the keyword of a hook, or the description of a
spec. -/
inductive OpenBody.BeginsWith : OpenBody → Located → Prop
  | spec (w : List Char) (p q : Place) :
      BeginsWith (.spec (some (String.ofList w)) p) ⟨.literal w, q⟩
  | hook (h : Hook) (p : Place) : BeginsWith (.hook h p) ⟨.keyword (.hook h), p⟩

theorem OpenBody.BeginsWith.capturing {b : OpenBody} {t : Located} (h : b.BeginsWith t) :
    b.capturing = true := by
  cases h <;> rfl

namespace Slots

/-- Whether text is collected. -/
def capturing (s : Slots) : Bool :=
  s.body.any OpenBody.capturing

/-- What is true of the slots of a reader. -/
structure Consistent (s : Slots) : Prop where
  /-- a spec or a hook is open only in a suite that has its description -/
  housed : ∀ b, s.body = some b → ∃ p d, s.suite = some p ∧ p.description = some d
  /-- there is text only where text is collected -/
  collecting : s.buffer ≠ "" → s.capturing = true
  /-- no comment runs in a body -/
  quiet : s.commenting = true → s.body = none
  /-- no description stands twice, and each suite stands under its own and owns its specs -/
  registered : s.registry.Regular

/-! ### What a token does -/

theorem capturing_of_body_eq_none {s : Slots} (hb : s.body = none) : s.capturing = false := by
  rw [capturing, hb]
  rfl

theorem capturing_of_body_eq_some {s : Slots} {b : OpenBody} (hb : s.body = some b) :
    s.capturing = b.capturing := by
  rw [capturing, hb]
  rfl

/-- What a token can do to slots that are consistent, and where it can do so: `refuse` and `skip`
change nothing, `suite` opens a suite or describes it, and `body` does so with a spec or a hook. -/
inductive Effect (s : Slots) (t : Located) : Fed → Prop
  | pass (hq : s.commenting = true) : Effect s t (s.pass t.token).accept
  | halt (ht : t.token = .keyword .halt) : Effect s t ⟨s, .ok .halt⟩
  | refuse (e : OutlineError) (he : ∀ q, e ≠ .outsideSuite .close q)
      (ht : s.capturing = true → t.token.keyword? ≠ none) : Effect s t (s.refuse e)
  | skip (hc : s.capturing = false) : Effect s t s.accept
  | comment (hb : s.body = none) : Effect s t (accept { s with commenting := true })
  | suite (hb : s.body = none) (p : Pending) : Effect s t (accept { s with suite := some p })
  | body (b : OpenBody) (hs : ∃ p d, s.suite = some p ∧ p.description = some d)
      (hq : s.commenting = false) (hc : s.capturing = false)
      (hb : b.capturing = true → b.BeginsWith t) : Effect s t (accept { s with body := some b })
  | collect (hc : s.capturing = true) (ht : t.token.keyword? = none) :
      Effect s t (accept { s with buffer := s.buffer ++ String.ofList t.token.raw })
  | endBody (suite : Option Pending) (r : Except OutlineError Flow)
      (ht : t.token.keyword? ≠ none) (hr : ∀ q, r ≠ .error (.outsideSuite .close q)) :
      Effect s t ⟨{ s with suite, body := none, buffer := "" }, r⟩
  | endSuite (registry : Catalogue) (r : Except OutlineError Flow) (hb : s.body = none)
      (hreg : s.registry.Regular → registry.Regular)
      (hr : ∀ q, r ≠ .error (.outsideSuite .close q)) :
      Effect s t ⟨{ s with registry, suite := none }, r⟩

/-- A spec or a hook starts only in a suite that has its description, outside of other bodies. -/
theorem eq_none_of_room {s : Slots} {k : Keyword} {place : Place} (h : s.room k place = .ok ()) :
    s.body = none ∧ ∃ p d, s.suite = some p ∧ p.description = some d := by
  unfold room at h
  split at h
  · cases h
  · cases h
  · next p hb hs =>
    split at h
    · cases h
    · next d hd => exact ⟨hb, p, d, hs, hd⟩

theorem room_ne (s : Slots) {k : Keyword} (hk : k ≠ .close) (place q : Place) :
    s.room k place ≠ .error (.outsideSuite .close q) := by
  unfold room
  split
  · simp
  · simp [hk]
  · split <;> simp

section

variable {s : Slots} {t : Located}

theorem effect_openSuite (ht : t.token.keyword? ≠ none) (place : Place) :
    Effect s t (s.openSuite place) := by
  unfold openSuite
  split
  · exact .refuse _ (by simp) fun _ => ht
  · exact .refuse _ (by simp) fun _ => ht
  · next hb _ => exact .suite hb _

theorem effect_openBody (ht : t.token.keyword? ≠ none) (hq : s.commenting = false) {k : Keyword}
    (hk : k ≠ .close) {b : OpenBody} (hb : b.capturing = true → b.BeginsWith t) (place : Place) :
    Effect s t (s.openBody k b place) := by
  unfold openBody
  split
  · next e he =>
    refine .refuse e (fun q hqe => ?_) fun _ => ht
    exact room_ne s hk place q (hqe ▸ he)
  · next hr =>
    obtain ⟨hnone, hs⟩ := eq_none_of_room hr
    exact .body b hs hq (capturing_of_body_eq_none hnone) hb

theorem effect_looseText (hb : s.body = none) : Effect s t (s.looseText t.token t.place) := by
  have hc := capturing_of_body_eq_none hb
  have ht : s.capturing = true → t.token.keyword? ≠ none := fun h => nomatch hc.symm.trans h
  unfold looseText
  split
  · exact .comment hb
  · split
    · exact .refuse _ (by simp) ht
    · exact .suite hb _
  · exact .skip hc

/-- An `end` never finds a body that stands in no suite. -/
theorem effect_close (h : s.Consistent) (ht : t.token.keyword? ≠ none) (place : Place) :
    Effect s t (s.close fallback place) := by
  unfold close
  split
  · next b hb =>
    obtain ⟨p, d, hs, -⟩ := h.housed b hb
    unfold closeBody
    rw [hs]
    dsimp only
    split <;> exact .endBody _ _ ht (by simp)
  · next hb =>
    unfold closeSuite
    split
    · exact .endSuite _ _ hb id (by simp)
    · split
      · exact .endSuite _ _ hb id (by simp)
      · exact .endSuite _ _ hb (fun hr => hr.update fun t ht => ht.absorb _) (by simp)

theorem effect_bodyText (h : s.Consistent) {b : OpenBody} (hb : s.body = some b)
    (ht : t.token.keyword? = none) : Effect s t (s.bodyText fallback b t.token t.place) := by
  have hcb := capturing_of_body_eq_some hb
  unfold bodyText
  split
  · next hc => exact .collect (hcb.trans hc) ht
  · next hn =>
    have hc : s.capturing = false := by
      rw [hcb]
      simpa using hn
    have hq : s.commenting = false := by
      by_contra hq
      exact nomatch (h.quiet (by simpa using hq)).symm.trans hb
    obtain ⟨token, p⟩ := t
    cases b with
    | hook hk q => exact absurd rfl hn
    | spec description q =>
      cases token with
      | literal w => exact .body _ (h.housed _ hb) hq hc fun _ => .spec w q p
      | _ =>
        dsimp only
        split
        · exact .skip hc
        · exact .refuse _ (by simp) fun h => absurd h (by simp [hc])

/-- Whatever a token does, it is one of these. -/
theorem effect_feed (h : s.Consistent) (t : Located) : Effect s t (s.feed t) := by
  obtain ⟨token, p⟩ := t
  unfold feed feedWith
  split
  · next hq => exact .pass hq
  · next hq =>
    have hq : s.commenting = false := by simpa using hq
    cases token with
    | keyword k =>
      have ht : (Token.keyword k).keyword? ≠ none := by simp [Token.keyword?]
      cases k with
      | halt => exact .halt rfl
      | close => exact effect_close h ht p
      | describe => exact effect_openSuite ht p
      | it => exact effect_openBody ht hq (by simp) Bool.noConfusion p
      | hook hk => exact effect_openBody ht hq (by simp) (fun _ => .hook hk p) p
    | _ =>
      simp only [text]
      split
      · next b hb => exact effect_bodyText h hb rfl
      · next hb => exact effect_looseText hb

end

/-! ### What a token keeps -/

theorem consistent_of_body_eq_none {s : Slots} (hb : s.body = none) (ht : s.buffer = "")
    (hr : s.registry.Regular) : s.Consistent where
  housed b h := by simp [hb] at h
  collecting h := absurd ht h
  quiet _ := hb
  registered := hr

theorem consistent_new : ({} : Slots).Consistent :=
  consistent_of_body_eq_none rfl rfl Catalogue.Built.empty.regular

theorem Consistent.buffer_eq {s : Slots} (h : s.Consistent) (hc : s.capturing = false) :
    s.buffer = "" := by
  by_contra ht
  exact nomatch (h.collecting ht).symm.trans hc

section

variable {s : Slots} {t : Located} {r : Fed} (he : Effect s t r)

include he

theorem Effect.consistent (h : s.Consistent) : r.state.Consistent := by
  have hnone : s.body = none → s.buffer = "" := fun hb =>
    h.buffer_eq (capturing_of_body_eq_none hb)
  cases he with
  | pass hq =>
    have hb := h.quiet hq
    exact consistent_of_body_eq_none (by simpa using hb) (by simpa using hnone hb)
      (by simpa using h.registered)
  | halt | refuse | skip => exact h
  | comment hb | suite hb => exact consistent_of_body_eq_none hb (hnone hb) h.registered
  | body b hs hq hc =>
    exact ⟨fun _ _ => hs, fun ht => absurd (h.buffer_eq hc) ht, (nomatch hq.symm.trans ·),
      h.registered⟩
  | collect hc => exact ⟨h.housed, fun _ => hc, h.quiet, h.registered⟩
  | endBody => exact consistent_of_body_eq_none rfl rfl h.registered
  | endSuite registry r hb hreg =>
    exact consistent_of_body_eq_none hb (hnone hb) (hreg h.registered)

/-- No `end` is ever said to stand outside of a suite. -/
theorem Effect.result_ne (q : Place) : r.result ≠ .error (.outsideSuite .close q) := by
  cases he with
  | refuse e hne => simpa using hne q
  | endBody _ _ _ hr | endSuite _ _ _ _ hr => exact hr q
  | _ => simp

/-- Text begins to be collected behind the keyword of a hook and the description of a spec, and
there is none at first. -/
theorem Effect.begins (hc : s.capturing = false) (hr : r.state.capturing = true) :
    ∃ b, r.state.body = some b ∧ b.BeginsWith t ∧ r.state.buffer = s.buffer := by
  -- where the body stays as it is, nothing begins
  have hsame : r.state.body ≠ s.body := by
    intro hb
    rw [capturing, hb, ← capturing, hc] at hr
    cases hr
  cases he with
  | pass hq => exact absurd (pass_body s t.token) hsame
  | halt | refuse | skip | comment | suite | endSuite => exact absurd rfl hsame
  | body b _ _ _ hb => exact ⟨b, rfl, hb hr, rfl⟩
  | collect hc' => exact nomatch hc'.symm.trans hc
  | endBody => cases hr

/-- Where text is collected, a token is text and is added to it, or it ends the body, or nothing
changes and reading does not go on. -/
theorem Effect.of_capturing (h : s.Consistent) (hc : s.capturing = true) :
    (t.token.keyword? = none ∧
      r = accept { s with buffer := s.buffer ++ String.ofList t.token.raw }) ∨
    (t.token.keyword? ≠ none ∧ r.state.body = none) ∨
    (t.token.keyword? ≠ none ∧ r.state = s ∧ r.result ≠ .ok .onward) := by
  have hsome : s.body ≠ none := fun hb => nomatch (capturing_of_body_eq_none hb).symm.trans hc
  cases he with
  | pass hq => exact absurd (h.quiet hq) hsome
  | halt ht => exact Or.inr (Or.inr ⟨by simp [ht, Token.keyword?], rfl, by simp⟩)
  | refuse e _ ht => exact Or.inr (Or.inr ⟨ht hc, rfl, by simp⟩)
  | comment hb | suite hb | endSuite _ _ hb => exact absurd hb hsome
  | skip hc' | body _ _ _ hc' => exact nomatch hc'.symm.trans hc
  | collect _ ht => exact Or.inl ⟨ht, rfl⟩
  | endBody _ _ ht => exact Or.inr (Or.inl ⟨ht, rfl⟩)

end

/-- Every token keeps the slots consistent, those that are refused among them. -/
theorem consistent_feed {s : Slots} (h : s.Consistent) (t : Located) :
    (s.feed t).state.Consistent :=
  (effect_feed h t).consistent h

/-- Whatever stands in the two branches, a token does the same. -/
theorem feedWith_eq {s : Slots} (h : s.Consistent) (x : Fallback) (t : Located) :
    s.feedWith x t = s.feed t := by
  have hclose : s.close x t.place = s.close fallback t.place := by
    unfold close
    split
    · next b hb =>
      obtain ⟨p, d, hs, -⟩ := h.housed b hb
      unfold closeBody
      rw [hs]
    · rfl
  have htext : ∀ token, s.text x token t.place = s.text fallback token t.place := by
    intro token
    unfold text
    split
    · next b _ =>
      cases b with
      | spec description p => cases description <;> cases token <;> rfl
      | hook hk p => rfl
    · rfl
  unfold feed feedWith
  simp only [hclose, htext]

/-! ### Tokens in a row -/

/-- The slots behind tokens, whatever these came to. -/
def after (s : Slots) (ts : List Located) : Slots :=
  ts.foldl (fun s t => (s.feed t).state) s

@[simp] theorem after_nil (s : Slots) : s.after [] = s := rfl

@[simp] theorem after_cons (s : Slots) (t : Located) (ts : List Located) :
    s.after (t :: ts) = (s.feed t).state.after ts := rfl

theorem after_append (s : Slots) (ts us : List Located) :
    s.after (ts ++ us) = (s.after ts).after us := by
  rw [after, List.foldl_append]
  rfl

theorem after_concat (s : Slots) (ts : List Located) (t : Located) :
    s.after (ts ++ [t]) = ((s.after ts).feed t).state :=
  after_append s ts [t]

theorem consistent_after {s : Slots} (h : s.Consistent) (ts : List Located) :
    (s.after ts).Consistent := by
  induction ts generalizing s with
  | nil => exact h
  | cons t ts ih => exact ih (consistent_feed h t)

/-- The tokens of a body: where `opener` was fed nothing was collected, with it the text of `b`
began, and `b` has been open from then on. -/
structure Collects (before : List Located) (opener : Located) (since : List Located)
    (b : OpenBody) : Prop where
  outset : (after {} before).capturing = false
  begins : b.BeginsWith opener
  held : ∀ mid, mid <+: since → (after {} (before ++ opener :: mid)).body = some b

theorem after_opener_concat (before mid : List Located) (opener t : Located) :
    after {} (before ++ opener :: (mid ++ [t])) =
      ((after {} (before ++ opener :: mid)).feed t).state := by
  rw [← List.cons_append, ← List.append_assoc, after_concat]

theorem Collects.append {before since : List Located} {opener t : Located} {b : OpenBody}
    (h : Collects before opener since b)
    (hb : ((after {} (before ++ opener :: since)).feed t).state.body = some b) :
    Collects before opener (since ++ [t]) b where
  outset := h.outset
  begins := h.begins
  held mid hm := by
    rcases List.prefix_concat_iff.1 hm with rfl | hm
    · rw [after_opener_concat]
      exact hb
    · exact h.held mid hm

/-- The text that tokens add to a body. -/
def textOf (ts : List Located) : String :=
  String.ofList (raws (ts.filter fun t => t.token.keyword? = none))

theorem textOf_append_of_text {t : Located} (ht : t.token.keyword? = none) (ts : List Located) :
    textOf (ts ++ [t]) = textOf ts ++ String.ofList t.token.raw := by
  simp [textOf, List.filter_append, ht, String.ofList_append]

theorem textOf_append_of_keyword {t : Located} (ht : t.token.keyword? ≠ none)
    (ts : List Located) : textOf (ts ++ [t]) = textOf ts := by
  simp [textOf, List.filter_append, ht]

/-- The text of a body that is open is what was fed since it began. -/
theorem exists_collects {ts : List Located} (hc : (after {} ts).capturing = true) :
    ∃ before opener since b, ts = before ++ opener :: since ∧ Collects before opener since b ∧
      (after {} ts).body = some b ∧ (after {} ts).buffer = textOf since := by
  induction ts using List.reverseRecOn with
  | nil => cases hc
  | append_singleton ts t ih =>
    have hs := consistent_after consistent_new ts
    rw [after_concat] at hc ⊢
    cases hp : (after {} ts).capturing with
    | false =>
      -- the body began with the last token
      obtain ⟨b, hb, hbegin, hbuf⟩ := (effect_feed hs t).begins hp hc
      refine ⟨ts, t, [], b, rfl, ⟨hp, hbegin, fun mid hm => ?_⟩, hb, hbuf.trans (hs.buffer_eq hp)⟩
      rw [List.prefix_nil.1 hm, after_concat]
      exact hb
    | true =>
      obtain ⟨before, opener, since, b, rfl, hcol, hb, hbuf⟩ := ih hp
      have happ : before ++ opener :: since ++ [t] = before ++ opener :: (since ++ [t]) := by simp
      have hgoes := hcol.append (t := t)
      obtain ⟨ht, hf⟩ | ⟨ht, hf⟩ | ⟨ht, hf, -⟩ := (effect_feed hs t).of_capturing hs hp
      · rw [hf] at hgoes ⊢
        refine ⟨before, opener, since ++ [t], b, happ, hgoes hb, hb, ?_⟩
        rw [textOf_append_of_text ht, ← hbuf]
        rfl
      · rw [capturing, hf] at hc
        cases hc
      · rw [hf] at hgoes ⊢
        refine ⟨before, opener, since ++ [t], b, happ, hgoes hb, hb, ?_⟩
        rw [textOf_append_of_keyword ht, hbuf]

/-- A keyword that is refused is no text of the body in which it stands. -/
example : (after {} (tokens "describe 'a' before x describe y".toList)).buffer = " x  y" := by
  decide +kernel

/-! ### Tokens that are accepted -/

/-- Whether tokens are all accepted, and none of them halts the reading. -/
def Passes (s : Slots) : List Located → Prop
  | [] => True
  | t :: ts => (s.feed t).result = .ok .onward ∧ Passes (s.feed t).state ts

instance decidablePasses : (s : Slots) → (ts : List Located) → Decidable (Passes s ts)
  | _, [] => inferInstanceAs (Decidable True)
  | s, t :: ts =>
    have := decidablePasses (s.feed t).state ts
    inferInstanceAs (Decidable ((s.feed t).result = .ok .onward ∧ Passes (s.feed t).state ts))

theorem passes_append {s : Slots} {ts us : List Located} :
    Passes s (ts ++ us) ↔ Passes s ts ∧ Passes (s.after ts) us := by
  induction ts generalizing s with
  | nil => simp [Passes]
  | cons t ts ih => simp [Passes, ih, and_assoc]

/-- In a body no keyword is accepted but the one that ends it. -/
theorem Collects.keyword?_eq_none {before since : List Located} {opener : Located} {b : OpenBody}
    (h : Collects before opener since b) (hp : Passes {} (before ++ opener :: since)) :
    ∀ t ∈ since, t.token.keyword? = none := by
  intro t ht
  obtain ⟨mid, rest, rfl⟩ := List.append_of_mem ht
  have happ : before ++ opener :: (mid ++ t :: rest) = (before ++ opener :: mid) ++ t :: rest := by
    simp
  rw [happ, passes_append] at hp
  have hb := h.held mid (List.prefix_append _ _)
  have hb' := h.held (mid ++ [t]) ⟨rest, by simp⟩
  rw [after_opener_concat] at hb'
  have hs := consistent_after consistent_new (before ++ opener :: mid)
  have hc := (capturing_of_body_eq_some hb).trans h.begins.capturing
  obtain ⟨ht, -⟩ | ⟨-, hf⟩ | ⟨-, -, hf⟩ := (effect_feed hs t).of_capturing hs hc
  · exact ht
  · exact nomatch hf.symm.trans hb'
  · exact absurd hp.2.1 hf

theorem textOf_eq_raws {ts : List Located} (h : ∀ t ∈ ts, t.token.keyword? = none) :
    textOf ts = String.ofList (raws ts) := by
  rw [textOf, List.filter_eq_self.2 fun t ht => by simpa using h t ht]

/-- What the outline reader comes to is what accepted tokens leave in the slots. -/
theorem exists_passes_of_feedAll {o p : Outline} {ts : List Located} (h : o.feedAll ts = .ok p) :
    ∃ us, us <+: ts ∧ Passes o.slots us ∧ o.slots.after us = p.slots := by
  induction ts generalizing o with
  | nil =>
    cases h
    exact ⟨[], List.nil_prefix, trivial, rfl⟩
  | cons t ts ih =>
    obtain ⟨-, ho⟩ | ⟨q, hf, ho⟩ | ⟨e, -, ho⟩ := feed_step o t
    · rw [ho] at h
      cases h
      exact ⟨[], List.nil_prefix, trivial, rfl⟩
    · rw [ho] at h
      obtain ⟨us, hus, hpass, hafter⟩ := ih h
      refine ⟨t :: us, List.cons_prefix_cons.2 ⟨rfl, hus⟩, ⟨by rw [hf]; rfl, ?_⟩, ?_⟩
      · rw [hf]
        exact hpass
      · rw [after_cons, hf]
        exact hafter
    · rw [ho] at h
      cases h

/-- **The slots of a reader make sense behind any tokens**, whatever these came to.  A spec or a
hook is open only in a suite that has its description; there is text only while a hook or a
described spec is open, and no comment runs in a body; no description stands twice in the registry,
and each suite there stands under its own description and owns its specs.

The text of a hook or of a described spec is that of the tokens since it began: of those that are no
keywords, and where every token was accepted these are all of them.

It makes no difference what stands in the branches for an `end` in no suite and for text behind a
hook that collects none, and no `end` is said to stand outside of a suite.

All of this is about the outline reader.  Tokens come to the same in slots and in an outline, up to
the catalogue or the error that they make, and whatever outline it comes to is what accepted tokens
leave in the slots. -/
theorem after_consistent (ts : List Located) :
    (after {} ts).Consistent ∧
    (∀ b, (after {} ts).body = some b → b.capturing = true →
      ∃ before opener since, ts = before ++ opener :: since ∧ Collects before opener since b ∧
        (after {} ts).buffer = textOf since ∧
        (Passes {} ts → (after {} ts).buffer = String.ofList (raws since))) ∧
    (∀ x t, (after {} ts).feedWith x t = (after {} ts).feed t) ∧
    (∀ t q, ((after {} ts).feed t).result ≠ .error (.outsideSuite .close q)) ∧
    feedAll {} ts = (Outline.feedAll {} ts).map Outline.slots ∧
    (feedAll {} ts).bind finish = (Outline.feedAll {} ts).bind Outline.finish ∧
    ∀ o, Outline.feedAll {} ts = .ok o →
      ∃ us, us <+: ts ∧ Passes {} us ∧ after {} us = o.slots := by
  have hs := consistent_after consistent_new ts
  refine ⟨hs, fun b hb hc => ?_, feedWith_eq hs, fun t q => (effect_feed hs t).result_ne q,
    feedAll_slots {} ts, bind_finish_slots {} ts, fun o ho => exists_passes_of_feedAll ho⟩
  have hcap := (capturing_of_body_eq_some hb).trans hc
  obtain ⟨before, opener, since, b', rfl, hcol, hb', hbuf⟩ := exists_collects hcap
  obtain rfl : b' = b := Option.some.inj (hb'.symm.trans hb)
  refine ⟨before, opener, since, rfl, hcol, hbuf, fun hp => ?_⟩
  rw [hbuf, textOf_eq_raws (hcol.keyword?_eq_none hp)]

/-- A comment before a hook, and a comment marker and a quoted text in it. -/
theorem after_consistent_hook :
    let ts := tokens "describe 'a' //\nbefore 'b' // y".toList
    (after {} ts).body = some (.hook .before ⟨16, 2, 1⟩) ∧ Passes {} ts ∧
      (∃ before opener since, ts = before ++ opener :: since ∧
        Collects before opener since (.hook .before ⟨16, 2, 1⟩) ∧
        (after {} ts).buffer = String.ofList (raws since)) ∧
      (after {} ts).buffer = " 'b' // y" ∧ (after {} ts).Consistent := by
  intro ts
  have hb : (after {} ts).body = some (.hook .before ⟨16, 2, 1⟩) := by decide +kernel
  have hp : Passes {} ts := by decide +kernel
  obtain ⟨hs, htext, -⟩ := after_consistent ts
  obtain ⟨before, opener, since, hts, hcol, -, hbuf⟩ := htext _ hb rfl
  exact ⟨hb, hp, ⟨before, opener, since, hts, hcol, hbuf hp⟩, by decide +kernel, hs⟩

end Slots

end SpecEngine
