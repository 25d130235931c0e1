/-!
# JSON

Trees of JSON.  Fields keep their order, and numbers their text.  A text in which half of a
surrogate pair stands alone is no sequence of characters; it can be there, but it cannot be read.
-/

namespace SpecEngine.Json

/-- Trees.  A text is none if half of a surrogate pair stands alone in it. -/
inductive Tree
  | null
  | bool (b : Bool)
  | number (text : List Char)
  | string (s : Option String)
  | array (items : List Tree)
  | object (fields : List (Option String × Tree))

namespace Tree

/-- A natural number as a tree. -/
def ofNat (n : Nat) : Tree := .number (Nat.toDigits 10 n)

/-- A text as a tree. -/
def ofString (s : String) : Tree := .string (some s)

/-- An object with fields that all have a name. -/
def ofFields (fields : List (String × Tree)) : Tree :=
  .object (fields.map fun f => (some f.1, f.2))

end Tree

end SpecEngine.Json
