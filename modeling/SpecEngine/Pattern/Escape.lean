import SpecEngine.Pattern.Basic
import SpecEngine.Text.Parsed

/-!
# Modes and escapes of patterns

`Modes` says how the text of a pattern is to be understood; groups can change it.  An escape is a
backslash with what belongs to it: it stands for a character, for a set of characters, or for
something to ask of a place.

A text that is no pattern is refused as a whole, so the readers here say nothing of what is wrong.
-/

namespace SpecEngine.Pattern

/-- How a pattern is to be understood: without regard to case, with lines, with points that fit
line breaks, with all kinds of line breaks, with all characters or basic ones, and with spacing
and comments that mean nothing. -/
structure Modes where
  caseless : Bool := false
  lines : Bool := false
  dotAll : Bool := false
  breaks : Bool := false
  unicode : Bool := true
  spaced : Bool := false

namespace Modes

/-- The text behind spacing and comments; a comment starts with `#` and runs to the line end. -/
def dropSpacing (comment : Bool) : List Char → List Char
  | [] => []
  | c :: s =>
    if comment then dropSpacing (c ≠ '\n') s
    else if Text.isBlank c then dropSpacing false s
    else if c = '#' then dropSpacing true s
    else c :: s

theorem length_dropSpacing_le (comment : Bool) (s : List Char) :
    (dropSpacing comment s).length ≤ s.length := by
  induction s generalizing comment with
  | nil => simp [dropSpacing]
  | cons c s ih =>
    unfold dropSpacing
    split
    · exact Nat.le_succ_of_le (ih _)
    · split
      · exact Nat.le_succ_of_le (ih _)
      · split
        · exact Nat.le_succ_of_le (ih _)
        · exact Nat.le_refl _

/-- Leaves out what means nothing in a mode. -/
def skip (o : Modes) (s : List Char) : Parsed Unit (s.length + 1) :=
  if o.spaced then ⟨(), dropSpacing false s, Nat.lt_succ_of_le (length_dropSpacing_le false s)⟩
  else ⟨(), s, Text.length_lt_succ _⟩

/-- A set with the characters that a mode adds to it. -/
def fold (o : Modes) (s : CharSet) : CharSet :=
  if o.caseless then if o.unicode then .folded s else .foldedAscii s else s

/-- The set of digits: all decimal ones, or those of ASCII. -/
def digits (o : Modes) : CharSet :=
  if o.unicode then .ofCategories [.nd] else .ofRanges [(0x30, 0x39)]

/-- The set of blanks: all, or those of ASCII. -/
def blanks (o : Modes) : CharSet :=
  if o.unicode then .property Text.isBlank else .ofRanges [(0x9, 0xD), (0x20, 0x20)]

/-- Whether a character is part of a word, in all scripts or in ASCII. -/
def isWord (o : Modes) (c : Char) : Bool :=
  if o.unicode then Text.isWordChar c else c.isAlphanum || c = '_'

end Modes

/-- What an escape stands for. -/
inductive Escape
  | char (c : Char)
  | set (s : CharSet)
  | look (l : Look)

/-! ### Characters by number -/

/-- Whether a character is a hexadecimal digit. -/
def isHexDigit (c : Char) : Bool :=
  c.isDigit || ('a' ≤ c && c ≤ 'f') || ('A' ≤ c && c ≤ 'F')

/-- The value of a hexadecimal digit. -/
def hexValue (c : Char) : Nat :=
  if c.isDigit then c.toNat - '0'.toNat
  else if 'a' ≤ c then c.toNat - 'a'.toNat + 10
  else c.toNat - 'A'.toNat + 10

/-- The character with a number, if there is one. -/
def charOfHex? (digits : List Char) : Option Char :=
  let n := digits.foldl (fun n c => 16 * n + hexValue c) 0
  if h : n.isValidChar then some (Char.ofNatAux n h) else none

/-- Reads a given number of digits. -/
def readHexDigits (o : Modes) : Nat → (s : List Char) → Option (Parsed (List Char) (s.length + 1))
  | 0, s => some ⟨[], s, Text.length_lt_succ _⟩
  | n + 1, s =>
    match o.skip s with
    | ⟨_, c :: r, h⟩ =>
      if isHexDigit c then
        (readHexDigits o n r).map fun p => (p.map (c :: ·)).widen (by simp at h; omega)
      else none
    | _ => none

/-- Reads digits up to a closing brace. -/
def readHexBrace (o : Modes) (s : List Char) : Option (Parsed (List Char) (s.length + 1)) :=
  match o.skip s with
  | ⟨_, c :: r, h⟩ =>
    if c = '\x7d' then some ⟨[], r, by simp at h; omega⟩
    else if isHexDigit c then
      (readHexBrace o r).map fun p => (p.map (c :: ·)).widen (by simp at h; omega)
    else none
  | _ => none
termination_by s.length
decreasing_by simp at h; omega

/-- Reads a character by its number: in braces, or with a fixed number of digits.  Where only
basic characters are understood, two digits must name one of them. -/
def readNumbered (o : Modes) (digits : Nat) (s : List Char) :
    Option (Parsed Char (s.length + 1)) :=
  match o.skip s with
  | ⟨_, '\x7b' :: r, h⟩ =>
    match readHexBrace o r with
    | some ⟨ds, t, ht⟩ =>
      if ds.isEmpty then none
      else (charOfHex? ds).map fun c => ⟨c, t, by simp at h; omega⟩
    | none => none
  | ⟨_, r, h⟩ =>
    match readHexDigits o digits r with
    | some ⟨ds, t, ht⟩ =>
      match charOfHex? ds with
      | some c =>
        if digits = 2 && !o.unicode && 0x80 ≤ c.toNat then none else some ⟨c, t, by omega⟩
      | none => none
    | none => none

/-! ### Sets by name -/

/-- Reads the name of a property: one character, or any number of them in braces. -/
def readPropertyName (o : Modes) (s : List Char) : Option (Parsed (List Char) (s.length + 1)) :=
  match o.skip s with
  | ⟨_, '\x7b' :: r, h⟩ =>
    match hd : r.dropWhile (· ≠ '\x7d') with
    | _ :: t => some ⟨r.takeWhile (· ≠ '\x7d'), t, by
        have := Text.length_dropWhile_le (· ≠ '\x7d') r
        rw [hd] at this; simp at h this; omega⟩
    | [] => none
  | ⟨_, c :: r, h⟩ => if c = '\\' then none else some ⟨[c], r, by simp at h; omega⟩
  | _ => none

/-- Reads a property behind the letter that announces it. -/
def readProperty (o : Modes) (negate : Bool) (s : List Char) :
    Option (Parsed CharSet (s.length + 1)) :=
  if o.unicode then
    match readPropertyName o s with
    | some p => (CharSet.ofPropertyName? p.value).map fun set =>
        p.map fun _ => CharSet.complIf negate (o.fold set)
    | none => none
  else none

/-- The set that a letter stands for. -/
def setOfLetter? (o : Modes) (c : Char) : Option CharSet :=
  match c with
  | 'd' => some o.digits
  | 'D' => some (.compl o.digits)
  | 's' => some o.blanks
  | 'S' => some (.compl o.blanks)
  | 'w' => some (.property o.isWord)
  | 'W' => some (.compl (.property o.isWord))
  | _ => none

/-! ### Ends of words -/

/-- What the name of an end of a word asks for. -/
def lookOfName? (o : Modes) (name : List Char) : Option Look :=
  match String.ofList name with
  | "start" => some (.wordStart o.isWord)
  | "end" => some (.wordEnd o.isWord)
  | "start-half" => some (.noWordBefore o.isWord)
  | "end-half" => some (.noWordAfter o.isWord)
  | _ => none

/-- The characters in the name of an end of a word. -/
def isLookNameChar (c : Char) : Bool := c.isAlpha || c = '-'

/-- Reads the name of an end of a word up to the closing brace. -/
def readLookName (o : Modes) (s : List Char) : Option (Parsed (List Char) (s.length + 1)) :=
  match o.skip s with
  | ⟨_, c :: r, h⟩ =>
    if c = '\x7d' then some ⟨[], r, by simp at h; omega⟩
    else if isLookNameChar c then
      (readLookName o r).map fun p => (p.map (c :: ·)).widen (by simp at h; omega)
    else none
  | _ => none
termination_by s.length
decreasing_by simp at h; omega

/-- Reads which end of a word is meant.  A brace that no letter follows counts repetitions and is
left alone. -/
def readWordEnd (o : Modes) (s : List Char) : Option (Parsed Look (s.length + 1)) :=
  match s with
  | '\x7b' :: r =>
    match o.skip r with
    | ⟨_, c :: t, h⟩ =>
      if isLookNameChar c then
        match readLookName o (c :: t) with
        | some ⟨name, t', ht⟩ =>
          (lookOfName? o name).map fun l => ⟨l, t', by simp at h ht ⊢; omega⟩
        | none => none
      else some ⟨.wordBoundary o.isWord, '\x7b' :: r, Text.length_lt_succ _⟩
    | _ => none
  | s => some ⟨.wordBoundary o.isWord, s, Text.length_lt_succ _⟩

/-! ### Escapes -/

/-- The character that a letter or a sign stands for. -/
def charOfSign? (c : Char) : Option Char :=
  match c with
  | 'a' => some '\x07'
  | 'f' => some '\x0c'
  | 't' => some '\t'
  | 'n' => some '\n'
  | 'r' => some '\r'
  | 'v' => some '\x0b'
  | c => if c.toNat < 128 && !c.isAlphanum && c ≠ '<' && c ≠ '>' then some c else none

/-- What a letter or a sign asks of a place. -/
def lookOfSign? (o : Modes) (c : Char) : Option Look :=
  match c with
  | 'A' => some .textStart
  | 'z' => some .textEnd
  | 'B' => some (.noWordBoundary o.isWord)
  | '<' => some (.wordStart o.isWord)
  | '>' => some (.wordEnd o.isWord)
  | _ => none

/-- How many digits follow a letter that announces a number. -/
def digitsOfLetter? (c : Char) : Option Nat :=
  match c with
  | 'x' => some 2
  | 'u' => some 4
  | 'U' => some 8
  | _ => none

/-- Reads what belongs to a backslash. -/
def readEscape (o : Modes) : (s : List Char) → Option (Parsed Escape s.length)
  | [] => none
  | c :: s =>
    match digitsOfLetter? c with
    | some digits => (readNumbered o digits s).map (·.map .char)
    | none =>
      if c = 'p' || c = 'P' then (readProperty o (c = 'P') s).map (·.map .set)
      else if c = 'b' then (readWordEnd o s).map (·.map .look)
      else
        let found : Option Escape :=
          ((setOfLetter? o c).map .set).or (((charOfSign? c).map .char).or
            ((lookOfSign? o c).map .look))
        found.map fun e => ⟨e, s, Text.length_lt_succ _⟩

end SpecEngine.Pattern
