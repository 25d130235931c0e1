import SpecEngine.Proofs.Feeding
import SpecEngine.Proofs.Merging

/-!
# Reading into slots

A reader of spec files whose state does not say by itself what may be open.  The closed suites, the
suite and the body that are open, the text of that body and the mark of a comment have a slot each,
and any slot can be filled whatever the others hold.  It is told what it does in every state, also
in those that make no sense, and what state it leaves where it refuses a token.

* `Slots`, `Flow`, `Fed`: the state of such a reader, and what comes of a token;
* `Fallback`: what is done in two branches to which nothing seems to come;
* `Slots.feed`: what one token does; `feedAll`, `finish`, `read`: a file;
* `Outline.slots`: what an outline is when it is spread over slots;
* `feed_step`, `feedAll_slots`, `read_eq_outline`: the reader into slots is the outline reader.
-/

namespace SpecEngine

/-- A suite whose `end` has not come.  What it was given does not belong to it yet. -/
structure Pending where
  description : Option String := none
  place : Place
  specs : List Spec := []
  hooks : Table Hook String := []

/-- A body whose `end` has not come. -/
inductive OpenBody
  | spec (description : Option String) (place : Place)
  | hook (h : Hook) (place : Place)
  deriving DecidableEq

namespace OpenBody

/-- What construct the body belongs to. -/
def construct : OpenBody → Construct
  | .spec .. => .it
  | .hook .. => .hook

/-- Where the body was opened. -/
def place : OpenBody → Place
  | .spec _ p | .hook _ p => p

/-- Whether text is collected: at once in a hook, and behind the description in a spec. -/
def capturing : OpenBody → Bool
  | .spec none _ => false
  | _ => true

end OpenBody

/-- What a reader holds. -/
structure Slots where
  registry : Catalogue := []
  suite : Option Pending := none
  body : Option OpenBody := none
  buffer : String := ""
  commenting : Bool := false

/-- Whether reading goes on behind a token. -/
inductive Flow
  | onward
  | halt
  deriving DecidableEq

/-- What comes of a token: a state, even where the token is refused, and an answer. -/
structure Fed where
  state : Slots
  result : Except OutlineError Flow

/-- What is done in two branches: at the `end` of a body that stands in no suite, and at text behind
a hook that collects none. -/
structure Fallback where
  orphan : Slots → Place → Fed
  idle : Slots → Token → Place → Fed

namespace Slots

/-- Accepts a token, behind which reading goes on. -/
def accept (s : Slots) : Fed :=
  ⟨s, .ok .onward⟩

/-- Refuses a token. -/
def refuse (s : Slots) (e : OutlineError) : Fed :=
  ⟨s, .error e⟩

@[simp] theorem accept_state (s : Slots) : s.accept.state = s := rfl

@[simp] theorem accept_result (s : Slots) : s.accept.result = .ok .onward := rfl

@[simp] theorem refuse_state (s : Slots) (e : OutlineError) : (s.refuse e).state = s := rfl

@[simp] theorem refuse_result (s : Slots) (e : OutlineError) : (s.refuse e).result = .error e := rfl

/-! ### What a token does -/

/-- Opens a suite. -/
def openSuite (s : Slots) (place : Place) : Fed :=
  match s.body, s.suite with
  | some b, _ => s.refuse (.nested .describe b.construct place)
  | none, some _ => s.refuse (.nested .describe .describe place)
  | none, none => accept { s with suite := some { place } }

/-- Whether a spec or a hook may start. -/
def room (s : Slots) (k : Keyword) (place : Place) : Except OutlineError Unit :=
  match s.body, s.suite with
  | some b, _ => .error (.nested k b.construct place)
  | none, none => .error (.outsideSuite k place)
  | none, some p =>
    match p.description with
    | none => .error (.missingDescription .describe p.place)
    | some _ => .ok ()

/-- Opens a spec or a hook. -/
def openBody (s : Slots) (k : Keyword) (b : OpenBody) (place : Place) : Fed :=
  match s.room k place with
  | .error e => s.refuse e
  | .ok () => accept { s with body := some b }

/-- Ends the body that is open. -/
def closeBody (x : Fallback) (s : Slots) (b : OpenBody) (place : Place) : Fed :=
  let rest := { s with body := none, buffer := "" }
  match s.suite with
  | none => x.orphan rest place
  | some p =>
    match b with
    | .spec (some description) _ =>
      let spec : Spec := { description, body := s.buffer }
      accept { rest with suite := some { p with specs := p.specs ++ [spec] } }
    | .spec none q => rest.refuse (.missingDescription .it q)
    | .hook h _ =>
      let hooks := Table.set p.hooks h s.buffer
      accept { rest with suite := some { p with hooks } }

/-- Ends the suite that is open; only now its specs are given to it. -/
def closeSuite (s : Slots) (place : Place) : Fed :=
  let rest := { s with suite := none }
  match s.suite with
  | none => rest.refuse (.unmatchedEnd place)
  | some p =>
    match p.description with
    | none => rest.refuse (.missingDescription .describe p.place)
    | some description =>
      let suite : Suite := { description, specs := p.specs, hooks := p.hooks }
      accept { rest with registry := Outline.register s.registry suite }

/-- Ends a body before the suite in which it stands. -/
def close (x : Fallback) (s : Slots) (place : Place) : Fed :=
  match s.body with
  | some b => s.closeBody x b place
  | none => s.closeSuite place

/-- Text behind a spec or a hook that is open. -/
def bodyText (x : Fallback) (s : Slots) (b : OpenBody) (t : Token) (place : Place) : Fed :=
  if b.capturing then accept { s with buffer := s.buffer ++ String.ofList t.raw }
  else
    match b, t with
    | .hook .., t => x.idle s t place
    | .spec _ q, .literal w => accept { s with body := some (.spec (some (String.ofList w)) q) }
    | .spec _ q, t =>
      if Text.trim t.raw = [] then s.accept else s.refuse (.missingDescription .it q)

/-- Text outside specs and hooks. -/
def looseText (s : Slots) (t : Token) (place : Place) : Fed :=
  match t, s.suite with
  | .comment, _ => accept { s with commenting := true }
  | .literal w, some p =>
    match p.description with
    | some _ => s.refuse (.unexpectedLiteral (Token.literal w).raw place)
    | none => accept { s with suite := some { p with description := some (String.ofList w) } }
  | _, _ => s.accept

/-- What a token that is no keyword does. -/
def text (x : Fallback) (s : Slots) (t : Token) (place : Place) : Fed :=
  match s.body with
  | some b => s.bodyText x b t place
  | none => s.looseText t place

/-- A token in a comment, which ends with its line. -/
def pass (s : Slots) : Token → Slots
  | .newline _ => { s with commenting := false }
  | _ => s

@[simp] theorem pass_registry (s : Slots) (t : Token) : (s.pass t).registry = s.registry := by
  cases t <;> rfl

@[simp] theorem pass_body (s : Slots) (t : Token) : (s.pass t).body = s.body := by
  cases t <;> rfl

@[simp] theorem pass_buffer (s : Slots) (t : Token) : (s.pass t).buffer = s.buffer := by
  cases t <;> rfl

/-- What a token does, with `x` for the two branches to which nothing seems to come. -/
def feedWith (x : Fallback) (s : Slots) (t : Located) : Fed :=
  if s.commenting then (s.pass t.token).accept
  else
    match t.token with
    | .keyword .halt => ⟨s, .ok .halt⟩
    | .keyword .close => s.close x t.place
    | .keyword .describe => s.openSuite t.place
    | .keyword .it => s.openBody .it (.spec none t.place) t.place
    | .keyword (.hook h) => s.openBody (.hook h) (.hook h t.place) t.place
    | token => s.text x token t.place

/-- An `end` in no suite is refused, and text that nothing collects is passed over. -/
def fallback : Fallback where
  orphan s place := s.refuse (.outsideSuite .close place)
  idle s _ _ := s.accept

/-- What a token does. -/
def feed (s : Slots) (t : Located) : Fed :=
  s.feedWith fallback t

/-! ### Files -/

/-- Feeds tokens up to the end or to the halt. -/
def feedAll (s : Slots) : List Located → Except OutlineError Slots
  | [] => .ok s
  | t :: ts =>
    match (s.feed t).result with
    | .ok .onward => feedAll (s.feed t).state ts
    | .ok .halt => .ok (s.feed t).state
    | .error e => .error e

/-- The catalogue, once nothing is open. -/
def finish (s : Slots) : Except OutlineError Catalogue :=
  match s.body, s.suite with
  | some b, _ => .error (.unterminated b.construct b.place)
  | none, some p => .error (.unterminated .describe p.place)
  | none, none => .ok s.registry

/-- The catalogue of a spec file. -/
def read (s : List Char) : Except OutlineError Catalogue :=
  (feedAll {} (tokens s)).bind finish

end Slots

/-! ### Outlines spread over slots -/

/-- An open suite, without what it will be given when it is closed. -/
def Draft.pending (d : Draft) : Pending :=
  ⟨some d.suite.description, d.place, Suite.owned "" d.suite.specs, d.suite.hooks⟩

namespace Opened

/-- What the slot of suites holds. -/
def pending? : Opened → Option Pending
  | .nothing => none
  | .untitled place => some { place }
  | .suite d | .untitledSpec d _ | .body d .. => some d.pending

/-- What the slot of bodies holds. -/
def openBody? : Opened → Option OpenBody
  | .untitledSpec _ p => some (.spec none p)
  | .body _ (.spec description) p _ => some (.spec (some description) p)
  | .body _ (.hook h) p _ => some (.hook h p)
  | _ => none

/-- What the buffer holds: the text of an open body. -/
def collected : Opened → String
  | .body _ _ _ text => text
  | _ => ""

end Opened

/-- The slots of an outline. -/
def Outline.slots (o : Outline) : Slots :=
  ⟨o.catalogue, o.opened.pending?, o.opened.openBody?, o.opened.collected, o.commenting⟩

/-- Whether what comes of a token is what comes of it in an outline. -/
def Fed.Agrees (r : Fed) : Except OutlineError Outline → Prop
  | .ok o => r = o.slots.accept
  | .error e => r.result = .error e

/-- Specs are given to a suite when it is added, so they need not belong to it before. -/
theorem Outline.register_unowned (c : Catalogue) (s : Suite) :
    register c { description := s.description, specs := Suite.owned "" s.specs, hooks := s.hooks } =
      register c s := by
  unfold register
  congr 1
  funext t
  rw [Suite.absorb_eq, Suite.absorb_eq, Suite.owned_owned]

theorem Draft.pending_addSpec (d : Draft) (description body : String) :
    ({ d with suite := d.suite.addSpec { description, body } } : Draft).pending =
      { d.pending with specs := d.pending.specs ++ [{ description, body }] } := by
  simp [pending, Suite.addSpec, Suite.owned]

namespace Slots

theorem agrees_close (x : Fallback) (o : Outline) (place : Place) :
    (o.slots.close x place).Agrees (o.feedKeyword .close place) := by
  obtain ⟨c, opened, b⟩ := o
  cases opened with
  | suite d =>
    simp only [Outline.feedKeyword, Fed.Agrees, ← Outline.register_unowned c d.suite]
    rfl
  | body d opener p text =>
    cases opener with
    | spec description =>
      simp only [Outline.feedKeyword, Opener.finish, Fed.Agrees, Outline.slots, Opened.pending?,
        Draft.pending_addSpec]
      rfl
    | hook h => rfl
  | _ => rfl

theorem agrees_openBody (o : Outline) (place : Place) :
    (o.slots.openBody .it (.spec none place) place).Agrees (o.feedKeyword .it place) ∧
      ∀ h, (o.slots.openBody (.hook h) (.hook h place) place).Agrees
        (o.feedKeyword (.hook h) place) := by
  obtain ⟨c, opened, b⟩ := o
  cases opened with
  | body d opener p text => cases opener <;> exact ⟨rfl, fun _ => rfl⟩
  | _ => exact ⟨rfl, fun _ => rfl⟩

theorem agrees_openSuite (o : Outline) (place : Place) :
    (o.slots.openSuite place).Agrees (o.feedKeyword .describe place) := by
  obtain ⟨c, opened, b⟩ := o
  cases opened with
  | body d opener p text => cases opener <;> rfl
  | _ => rfl

theorem agrees_text (x : Fallback) (o : Outline) (t : Token) (place : Place) :
    (o.slots.text x t place).Agrees (o.feedText t place) := by
  obtain ⟨c, opened, b⟩ := o
  cases opened with
  | untitledSpec d q =>
    cases t with
    | literal w => rfl
    | _ =>
      simp only [Outline.feedText, text, bodyText, Outline.slots, Opened.openBody?,
        OpenBody.capturing, Bool.false_eq_true, if_false]
      split <;> rfl
  | body d opener p collected => cases opener <;> rfl
  | _ => cases t <;> rfl

/-- Outside comments a token does to the slots of an outline what it does to the outline, whatever
stands in the two branches. -/
theorem agrees_feed (x : Fallback) {o : Outline} (hc : o.commenting = false) {t : Located}
    (ht : t.token ≠ .keyword .halt) : (o.slots.feedWith x t).Agrees (o.feed t) := by
  have hs : o.slots.commenting = false := hc
  obtain ⟨token, place⟩ := t
  simp only [feedWith, hs, Bool.false_eq_true, if_false, Outline.feed]
  cases token with
  | keyword k =>
    cases k with
    | halt => exact absurd rfl ht
    | close => exact agrees_close x o place
    | hook h => exact (agrees_openBody o place).2 h
    | it => exact (agrees_openBody o place).1
    | describe => exact agrees_openSuite o place
  | _ => exact agrees_text x o _ place

/-- What a token does to an outline and to its slots, whatever stands behind it: both halt, both go
on, or both fail. -/
theorem feed_step (o : Outline) (t : Located) :
    (o.slots.feed t = ⟨o.slots, .ok .halt⟩ ∧ ∀ ts, o.feedAll (t :: ts) = .ok o) ∨
    (∃ p : Outline, o.slots.feed t = p.slots.accept ∧ ∀ ts, o.feedAll (t :: ts) = p.feedAll ts) ∨
    ∃ e, (o.slots.feed t).result = .error e ∧ ∀ ts, o.feedAll (t :: ts) = .error e := by
  simp only [Outline.feedAll]
  by_cases hc : o.commenting = true
  · have hf : o.slots.feed t = (o.slots.pass t.token).accept := if_pos hc
    simp only [if_pos hc, hf]
    refine Or.inr (Or.inl ?_)
    cases t.token with
    | newline carriage => exact ⟨{ o with commenting := false }, rfl, fun _ => rfl⟩
    | _ => exact ⟨o, rfl, fun _ => rfl⟩
  · have hc : o.commenting = false := by simpa using hc
    simp only [hc, Bool.false_eq_true, if_false]
    by_cases ht : t.token = .keyword .halt
    · have hs : o.slots.commenting = false := hc
      refine Or.inl ⟨?_, fun _ => if_pos ht⟩
      simp only [feed, feedWith, hs, ht, Bool.false_eq_true, if_false]
    · have hf := agrees_feed fallback hc ht
      simp only [if_neg ht]
      cases ho : o.feed t with
      | error e =>
        rw [ho] at hf
        exact Or.inr (Or.inr ⟨e, hf, fun _ => rfl⟩)
      | ok p =>
        rw [ho] at hf
        exact Or.inr (Or.inl ⟨p, hf, fun _ => rfl⟩)

/-- Tokens are read into slots as they are read into an outline. -/
theorem feedAll_slots (o : Outline) (ts : List Located) :
    o.slots.feedAll ts = (o.feedAll ts).map Outline.slots := by
  induction ts generalizing o with
  | nil => rfl
  | cons t ts ih =>
    rw [feedAll]
    obtain ⟨hf, ho⟩ | ⟨p, hf, ho⟩ | ⟨e, hf, ho⟩ := feed_step o t
    · rw [hf, ho]
      rfl
    · rw [hf, ho]
      exact ih p
    · rw [hf, ho]
      rfl

theorem finish_slots (o : Outline) : o.slots.finish = o.finish := by
  obtain ⟨c, opened, b⟩ := o
  cases opened with
  | body d opener p text => cases opener <;> rfl
  | _ => rfl

/-- What tokens make is the same in slots and in an outline. -/
theorem bind_finish_slots (o : Outline) (ts : List Located) :
    (o.slots.feedAll ts).bind finish = (o.feedAll ts).bind Outline.finish := by
  rw [feedAll_slots]
  cases o.feedAll ts with
  | error e => rfl
  | ok p => exact finish_slots p

/-- Reading into slots is reading an outline. -/
theorem read_eq_outline (s : List Char) : read s = Outline.read s := by
  rw [Outline.read_eq_bind]
  exact bind_finish_slots {} (tokens s)

end Slots

end SpecEngine
