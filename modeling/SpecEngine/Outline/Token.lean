import SpecEngine.Outline.Keyword
import SpecEngine.Text.Place
import SpecEngine.Text.Property

/-!
# Tokens of spec files

A spec file is cut into tokens without losing a character: keywords, texts between single quotes,
comment markers, line breaks, and every other character by itself.

* `Token.raw` is the text of a token; `Token.read` takes one from the front of a text;
* `tokens` cuts a whole text, and notes where each token starts.

A keyword is not looked for behind a letter, a digit or an underscore.  A quoted text stays on its
line and ends at the first quote that stands at a boundary, so quotes inside it need no escape.
-/

namespace SpecEngine

/-- Tokens. -/
inductive Token
  | keyword (k : Keyword)
  | literal (text : List Char)
  | comment
  | newline (carriage : Bool)
  | char (c : Char)
  deriving DecidableEq

namespace Token

/-- The text of a token. -/
def raw : Token → List Char
  | .keyword k => k.text.toList
  | .literal text => '\'' :: (text ++ ['\''])
  | .comment => ['/', '/']
  | .newline true => ['\r', '\n']
  | .newline false => ['\n']
  | .char c => [c]

/-- The text up to the first quote that stands at a boundary, and what follows that quote. -/
def closeQuote : (s : List Char) → Option (Parsed (List Char) s.length)
  | [] => none
  | c :: s =>
    if c = '\n' || c = '\r' then none
    else if c = '\'' && Text.atBoundary s then some ⟨[], s, Text.length_lt_succ s⟩
    else (closeQuote s).map fun p => (p.map (c :: ·)).widen (Text.length_le_succ _)

/-- Reads a text between quotes. -/
def readLiteral : (s : List Char) → Option (Parsed (List Char) s.length)
  | '\'' :: s => (closeQuote s).map (·.widen (Text.length_le_succ _))
  | _ => none

/-- Reads a comment marker. -/
def readComment : (s : List Char) → Option (Parsed Unit s.length)
  | '/' :: '/' :: s => some ⟨(), s, Text.length_lt_add_two s⟩
  | _ => none

/-- Reads a line break, and whether a carriage return belongs to it. -/
def readNewline : (s : List Char) → Option (Parsed Bool s.length)
  | '\r' :: '\n' :: s => some ⟨true, s, Text.length_lt_add_two s⟩
  | '\n' :: s => some ⟨false, s, Text.length_lt_succ s⟩
  | _ => none

/-- Reads a token; keywords only where they are allowed. -/
def read (keywords : Bool) (c : Char) (s : List Char) : Parsed Token (s.length + 1) :=
  let keyword := if keywords then Keyword.read (c :: s) else none
  let found : Option (Parsed Token (s.length + 1)) :=
    (keyword.map (·.map .keyword)).or <|
    ((readLiteral (c :: s)).map (·.map .literal)).or <|
    ((readComment (c :: s)).map (·.map fun _ => .comment)).or <|
    (readNewline (c :: s)).map (·.map .newline)
  found.getD ⟨.char c, s, Text.length_lt_succ _⟩

end Token

namespace Text

/-- The text between the quotes of a literal; a text without both quotes stays as it is. -/
def unquote : List Char → List Char
  | '\'' :: s =>
    match s.reverse with
    | '\'' :: t => t.reverse
    | _ => '\'' :: s
  | s => s

/-- Whether a keyword may follow a character. -/
def allowsKeyword (previous : Option Char) : Bool :=
  !previous.any fun c => isAlphanumeric c || c = '_'

end Text

/-- A token and the place where it starts. -/
structure Located where
  token : Token
  place : Place
  deriving DecidableEq

/-- The byte behind a token. -/
def Located.stop (t : Located) : Nat :=
  t.place.start + Text.bytes t.token.raw

/-- The tokens of a text that starts at `p` behind the character `previous`. -/
def tokensFrom (previous : Option Char) (p : Place) : List Char → List Located
  | [] => []
  | c :: s =>
    match Token.read (Text.allowsKeyword previous) c s with
    | ⟨token, rest, _⟩ =>
      ⟨token, p⟩ :: tokensFrom token.raw.getLast? (p.after token.raw) rest
termination_by s => s.length

/-- The tokens of a text. -/
def tokens (s : List Char) : List Located :=
  tokensFrom none Place.first s

end SpecEngine
