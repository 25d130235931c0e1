import SpecEngine.Outline.Error
import SpecEngine.Suite
import SpecEngine.Text.Trim

/-!
# Reading spec files

The tokens of a spec file are fed one by one to a state that knows what is open.  Bodies are kept
as they are written.  A suite enters the catalogue when it is closed, and a catalogue is only had
when every token was accepted and nothing is left open.

* `Opened`: nothing, a suite without or with its description, a spec without its description, or
  a body that is being collected.  A spec or a hook is only ever open inside a described suite;
* `Outline.feed`: what one token does;
* `Outline.read`: the catalogue of a text.
-/

namespace SpecEngine

/-- What opened a body. -/
inductive Opener
  | spec (description : String)
  | hook (h : Hook)
  deriving DecidableEq

/-- The construct that an opener begins. -/
def Opener.construct : Opener → Construct
  | .spec _ => .it
  | .hook _ => .hook

/-- A suite with a finished body. -/
def Opener.finish (o : Opener) (s : Suite) (body : String) : Suite :=
  match o with
  | .spec description => s.addSpec { description, body }
  | .hook h => s.setHook h body

/-- A suite that is being read, and the place of its keyword. -/
structure Draft where
  suite : Suite
  place : Place

/-- What is open. -/
inductive Opened
  | nothing
  | untitled (place : Place)
  | suite (draft : Draft)
  | untitledSpec (draft : Draft) (place : Place)
  | body (draft : Draft) (opener : Opener) (place : Place) (text : String)

namespace Opened

/-- The innermost open construct and the place of its keyword. -/
def innermost? : Opened → Option (Construct × Place)
  | .nothing => none
  | .untitled p => some (.describe, p)
  | .suite d => some (.describe, d.place)
  | .untitledSpec _ p => some (.it, p)
  | .body _ o p _ => some (o.construct, p)

end Opened

/-- What was read so far: the closed suites, what is open, and whether a comment is running. -/
structure Outline where
  catalogue : Catalogue := []
  opened : Opened := .nothing
  commenting : Bool := false

namespace Outline

/-- Adds a closed suite to the catalogue. -/
def register (c : Catalogue) (s : Suite) : Catalogue :=
  c.update s.description fun t => t.absorb s

/-- The open suite in which a spec or a hook may start. -/
def roomFor (k : Keyword) (place : Place) : Opened → Except OutlineError Draft
  | .nothing => .error (.outsideSuite k place)
  | .untitled p => .error (.missingDescription .describe p)
  | .suite d => .ok d
  | .untitledSpec .. => .error (.nested k .it place)
  | .body _ o _ _ => .error (.nested k o.construct place)

/-- What a keyword does. -/
def feedKeyword (o : Outline) (k : Keyword) (place : Place) : Except OutlineError Outline :=
  match k with
  | .halt => .ok o
  | .describe =>
    match o.opened.innermost? with
    | none => .ok { o with opened := .untitled place }
    | some (c, _) => .error (.nested k c place)
  | .it =>
    (roomFor k place o.opened).map fun d => { o with opened := .untitledSpec d place }
  | .hook h =>
    (roomFor k place o.opened).map fun d => { o with opened := .body d (.hook h) place "" }
  | .close =>
    match o.opened with
    | .nothing => .error (.unmatchedEnd place)
    | .untitled p => .error (.missingDescription .describe p)
    | .suite d => .ok { o with catalogue := register o.catalogue d.suite, opened := .nothing }
    | .untitledSpec _ p => .error (.missingDescription .it p)
    | .body d opener _ text =>
      .ok { o with opened := .suite { d with suite := opener.finish d.suite text } }

/-- What a token that is no keyword does. -/
def feedText (o : Outline) (t : Token) (place : Place) : Except OutlineError Outline :=
  match o.opened, t with
  | .body d opener p text, t =>
    .ok { o with opened := .body d opener p (text ++ String.ofList t.raw) }
  | .untitledSpec d p, .literal text =>
    .ok { o with opened := .body d (.spec (String.ofList text)) p "" }
  | .untitledSpec _ p, t =>
    -- only blanks may stand between the keyword and the description
    if Text.trim t.raw = [] then .ok o else .error (.missingDescription .it p)
  | _, .comment => .ok { o with commenting := true }
  | .untitled p, .literal text =>
    .ok { o with opened := .suite ⟨{ description := String.ofList text }, p⟩ }
  | .suite _, .literal text => .error (.unexpectedLiteral (Token.literal text).raw place)
  | _, _ => .ok o

/-- What a token does outside a comment. -/
def feed (o : Outline) (t : Located) : Except OutlineError Outline :=
  match t.token with
  | .keyword k => o.feedKeyword k t.place
  | token => o.feedText token t.place

/-- Feeds tokens up to the end or to the halt. -/
def feedAll (o : Outline) : List Located → Except OutlineError Outline
  | [] => .ok o
  | t :: ts =>
    if o.commenting then
      match t.token with
      | .newline _ => feedAll { o with commenting := false } ts
      | _ => feedAll o ts
    else if t.token = .keyword .halt then .ok o
    else
      match o.feed t with
      | .ok o => feedAll o ts
      | .error e => .error e

/-- The catalogue, once nothing is open. -/
def finish (o : Outline) : Except OutlineError Catalogue :=
  match o.opened.innermost? with
  | none => .ok o.catalogue
  | some (c, p) => .error (.unterminated c p)

/-- The catalogue of a spec file. -/
def read (s : List Char) : Except OutlineError Catalogue :=
  match feedAll {} (tokens s) with
  | .ok o => o.finish
  | .error e => .error e

end Outline

end SpecEngine
