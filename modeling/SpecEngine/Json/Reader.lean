import SpecEngine.Json.Tree
import SpecEngine.Number.Numeral
import SpecEngine.Text.Parsed

/-!
# Reading JSON

The strict grammar: no comments, no trailing commas, no controls in texts, no zeros in front of
numbers.  `Json.read` gives the tree of a whole text.
-/

namespace SpecEngine.Json

/-- Blanks and line breaks. -/
def isSpacing (c : Char) : Bool := c = ' ' || c = '\t' || c = '\n' || c = '\r'

/-- A character of a text, or a number of sixteen bits that an escape names. -/
inductive Piece
  | char (c : Char)
  | unit (n : Nat)

/-- Puts the halves of pairs together. -/
def joined : List Piece → Option (List Char)
  | [] => some []
  | .char c :: ps => (joined ps).map (c :: ·)
  | .unit n :: .unit m :: ps =>
    if 0xD800 ≤ n && n < 0xDC00 then
      if 0xDC00 ≤ m && m < 0xE000 then
        (joined ps).map (Char.ofNat (0x10000 + 0x400 * (n - 0xD800) + (m - 0xDC00)) :: ·)
      else none
    else if 0xDC00 ≤ n && n < 0xE000 then none
    else (joined (.unit m :: ps)).map (Char.ofNat n :: ·)
  | .unit n :: ps =>
    if 0xD800 ≤ n && n < 0xE000 then none else (joined ps).map (Char.ofNat n :: ·)

/-- The value of a digit to the base of sixteen. -/
def hexDigit? (c : Char) : Option Nat :=
  if c.isDigit then some (c.toNat - '0'.toNat)
  else if 'a' ≤ c && c ≤ 'f' then some (c.toNat - 'a'.toNat + 10)
  else if 'A' ≤ c && c ≤ 'F' then some (c.toNat - 'A'.toNat + 10)
  else none

/-- The number that four digits name. -/
def unitOf? (a b c d : Char) : Option Nat := do
  let a ← hexDigit? a
  let b ← hexDigit? b
  let c ← hexDigit? c
  let d ← hexDigit? d
  return 0x1000 * a + 0x100 * b + 0x10 * c + d

/-- The character that a letter behind a backslash names. -/
def escape? (c : Char) : Option Char :=
  match c with
  | '"' | '\\' | '/' => some c
  | 'b' => some '\x08'
  | 'f' => some '\x0c'
  | 'n' => some '\n'
  | 'r' => some '\r'
  | 't' => some '\t'
  | _ => none

/-- Reads the pieces of a text up to the closing quote. -/
def readPieces (s : List Char) : Option (Parsed (List Piece) s.length) :=
  match s with
  | [] => none
  | '"' :: s => some ⟨[], s, Text.length_lt_succ _⟩
  | '\\' :: 'u' :: a :: b :: c :: d :: s =>
    match unitOf? a b c d with
    | some n =>
      (readPieces s).map fun p =>
        (p.map (.unit n :: ·)).widen (by simp only [List.length_cons]; omega)
    | none => none
  | '\\' :: c :: s =>
    match escape? c with
    | some c =>
      (readPieces s).map fun p =>
        (p.map (.char c :: ·)).widen (by simp only [List.length_cons]; omega)
    | none => none
  | c :: s =>
    if c = '\\' || c.toNat < 0x20 then none
    else (readPieces s).map fun p => (p.map (.char c :: ·)).widen (by simp)

/-- Reads a text. -/
def readString (s : List Char) : Option (Parsed (Option String) s.length) :=
  match s with
  | '"' :: r =>
    (readPieces r).map fun p =>
      (p.map fun ps => (joined ps).map String.ofList).widen (by simp)
  | _ => none

/-- Reads a number. -/
def readNumber (s : List Char) : Option (Parsed (List Char) s.length) :=
  match Numeral.read s with
  | some p =>
    match p.value.whole with
    | '0' :: _ :: _ => none
    | _ => some (p.map Numeral.text)
  | none => none

/-- Reads a word. -/
def readWord (s : List Char) : Option (Parsed Tree s.length) :=
  let word (w : String) (t : Tree) (hw : 0 < w.toList.length) : Option (Parsed Tree s.length) :=
    match h : Text.after? w.toList s with
    | some r => some ⟨t, r, by rw [Text.eq_append_of_after? h, List.length_append]; omega⟩
    | none => none
  (word "null" .null (by decide)).or <| (word "true" (.bool true) (by decide)).or <|
    word "false" (.bool false) (by decide)

mutual

/-- Reads a tree, behind any spacing. -/
def readTree (s : List Char) : Option (Parsed Tree s.length) :=
  let ⟨_, r, h⟩ := Text.skip isSpacing s
  match Text.sign '[' r with
  | some ⟨_, t, ht⟩ =>
    match Text.signAfter isSpacing ']' t with
    | some ⟨_, t', ht'⟩ => some ⟨.array [], t', by omega⟩
    | none => (readItems t).map fun p => (p.map .array).widen (by omega)
  | none =>
    match Text.sign '\x7b' r with
    | some ⟨_, t, ht⟩ =>
      match Text.signAfter isSpacing '\x7d' t with
      | some ⟨_, t', ht'⟩ => some ⟨.object [], t', by omega⟩
      | none => (readFields t).map fun p => (p.map .object).widen (by omega)
    | none =>
      match readString r with
      | some p => some ((p.map .string).widen (by omega))
      | none =>
        match readNumber r with
        | some p => some ((p.map .number).widen (by omega))
        | none => (readWord r).map (·.widen (by omega))
termination_by 2 * s.length

/-- Reads items up to the closing bracket. -/
def readItems (s : List Char) : Option (Parsed (List Tree) s.length) :=
  match readTree s with
  | none => none
  | some ⟨t, r, h⟩ =>
    match Text.signAfter isSpacing ',' r with
    | some ⟨_, r', h'⟩ => (readItems r').map fun p => (p.map (t :: ·)).widen (by omega)
    | none => (Text.signAfter isSpacing ']' r).map fun p => (p.map fun _ => [t]).widen (by omega)
termination_by 2 * s.length + 1

/-- Reads fields up to the closing brace. -/
def readFields (s : List Char) : Option (Parsed (List (Option String × Tree)) s.length) :=
  let ⟨_, r, h⟩ := Text.skip isSpacing s
  match readString r with
  | none => none
  | some ⟨key, r₁, h₁⟩ =>
    match Text.signAfter isSpacing ':' r₁ with
    | none => none
    | some ⟨_, r₂, h₂⟩ =>
      match readTree r₂ with
      | none => none
      | some ⟨t, r₃, h₃⟩ =>
        match Text.signAfter isSpacing ',' r₃ with
        | some ⟨_, r₄, h₄⟩ => (readFields r₄).map fun p => (p.map ((key, t) :: ·)).widen (by omega)
        | none =>
          (Text.signAfter isSpacing '\x7d' r₃).map fun p =>
            (p.map fun _ => [(key, t)]).widen (by omega)
termination_by 2 * s.length + 1

end

/-- The tree of a whole text. -/
def read (s : String) : Option Tree :=
  match readTree s.toList with
  | some ⟨t, rest, _⟩ => if rest.all isSpacing then some t else none
  | none => none

end SpecEngine.Json
