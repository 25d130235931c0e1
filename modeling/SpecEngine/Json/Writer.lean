import SpecEngine.Json.Tree

/-!
# Writing JSON

Two layouts: all on one line, or one item a line with two spaces for each level.  Quotes,
backslashes and controls are escaped, everything else is written as it is.
-/

namespace SpecEngine.Json

/-- How a character is written between quotes. -/
def escaped (c : Char) : List Char :=
  match c with
  | '"' => ['\\', '"']
  | '\\' => ['\\', '\\']
  | '\x08' => ['\\', 'b']
  | '\x0c' => ['\\', 'f']
  | '\n' => ['\\', 'n']
  | '\r' => ['\\', 'r']
  | '\t' => ['\\', 't']
  | c =>
    if c.toNat < 0x20 then
      "\\u00".toList ++ [Nat.digitChar (c.toNat / 16), Nat.digitChar (c.toNat % 16)]
    else [c]

/-- A text between quotes. -/
def quoted (s : Option String) : List Char :=
  '"' :: (((s.getD "").toList.flatMap escaped) ++ ['"'])

/-- The layout: what stands at the beginning of an item at a level, and behind a colon. -/
structure Layout where
  lineStart : Nat → List Char
  gap : List Char

/-- All on one line. -/
def Layout.compact : Layout := ⟨fun _ => [], []⟩

/-- One item a line. -/
def Layout.pretty : Layout := ⟨fun level => '\n' :: List.replicate (2 * level) ' ', [' ']⟩

/-- Items between brackets. -/
def Layout.bracket (l : Layout) (level : Nat) (opening closing : Char)
    (items : List (List Char)) : List Char :=
  match items with
  | [] => [opening, closing]
  | items =>
    opening :: (([','].intercalate (items.map (l.lineStart (level + 1) ++ ·))) ++
      l.lineStart level ++ [closing])

mutual

/-- A tree that starts at a level. -/
def write (l : Layout) (level : Nat) : Tree → List Char
  | .null => "null".toList
  | .bool true => "true".toList
  | .bool false => "false".toList
  | .number text => text
  | .string s => quoted s
  | .array items => l.bracket level '[' ']' (writeItems l (level + 1) items)
  | .object fields => l.bracket level '\x7b' '\x7d' (writeFields l (level + 1) fields)

/-- The texts of items. -/
def writeItems (l : Layout) (level : Nat) : List Tree → List (List Char)
  | [] => []
  | t :: ts => write l level t :: writeItems l level ts

/-- The texts of fields, with their names. -/
def writeFields (l : Layout) (level : Nat) : List (Option String × Tree) → List (List Char)
  | [] => []
  | (key, t) :: fs => (quoted key ++ ':' :: (l.gap ++ write l level t)) :: writeFields l level fs

end

/-- The text of a tree. -/
def Tree.text (l : Layout) (t : Tree) : String :=
  String.ofList (write l 0 t)

end SpecEngine.Json
