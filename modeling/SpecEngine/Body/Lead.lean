import SpecEngine.Body.Expr
import SpecEngine.Text.Property

/-!
# How the parts of a body begin

A few characters decide which part of a body follows.  The readers here take those characters and
never look into an expression:

* `Lead` begins an expression that nothing precedes, `Suffix` goes on with one,
  `Statement.Lead` begins a statement;
* `readKey` and the colon behind it begin a field;
* `skipSeparators` leaves out what stands between statements.

Blanks and line breaks may stand around the parts of an expression wherever a bracket or a comma
shows that it goes on.
-/

namespace SpecEngine.Body

/-- Blanks within a line. -/
def isSpace (c : Char) : Bool := c = ' ' || c = '\t'

/-- Blanks and line breaks. -/
def isSpacing (c : Char) : Bool := c = ' ' || c = '\t' || c = '\r' || c = '\n'

/-- The characters with which a name begins. -/
def isNameStart (c : Char) : Bool := Text.isAlphabetic c || c = '_' || c = '$'

/-- The characters with which a name goes on. -/
def isNameChar (c : Char) : Bool := Text.isAlphanumeric c || c = '_' || c = '$'

/-- Reads a name. -/
def readName : (s : List Char) → Option (Parsed String s.length)
  | [] => none
  | c :: s =>
    if isNameStart c then
      some ⟨String.ofList (c :: s.takeWhile isNameChar), s.dropWhile isNameChar,
        Nat.lt_succ_of_le (Text.length_dropWhile_le isNameChar s)⟩
    else none

/-- Reads the rest of a text between quotes `q`; it stays on its line. -/
def readQuoted (q : Char) : (s : List Char) → Option (Parsed (List Char) s.length)
  | [] => none
  | c :: s =>
    if c = q then some ⟨[], s, Text.length_lt_succ _⟩
    else if c = '\n' then none
    else (readQuoted q s).map fun p => (p.map (c :: ·)).widen (Text.length_le_succ _)

/-- Reads a text between quotes of one of the two kinds. -/
def readString : (s : List Char) → Option (Parsed String s.length)
  | [] => none
  | c :: s =>
    if c = '\'' || c = '"' then
      (readQuoted c s).map fun p => (p.map String.ofList).widen (Text.length_le_succ _)
    else none

/-! ### Expressions -/

/-- What begins an expression that nothing precedes. -/
inductive Lead
  | number (n : Numeral)
  | string (s : String)
  | word (name : String)
  | callable
  | list
  | object
  | group

/-- Reads an opening bracket and the spacing behind it. -/
def readOpening (c : Char) (s : List Char) : Option (Parsed Unit s.length) :=
  (Text.sign c s).map fun p =>
    (Text.skip isSpacing p.rest).widen p.shorter

/-- Reads the arrow of a callable and the brace behind it. -/
def readArrow (s : List Char) : Option (Parsed Unit s.length) :=
  match h : Text.after? "->".toList s with
  | none => none
  | some r =>
    (Text.signAfter isSpace '\x7b' r).map fun p => p.widen (Text.length_after?_le h)

/-- Reads the beginning of an expression. -/
def readLead (s : List Char) : Option (Parsed Lead s.length) :=
  ((readArrow s).map (·.map fun _ => .callable)).or <|
  ((Numeral.read s).map (·.map .number)).or <|
  ((readString s).map (·.map .string)).or <|
  ((readOpening '[' s).map (·.map fun _ => .list)).or <|
  ((readOpening '\x7b' s).map (·.map fun _ => .object)).or <|
  ((readName s).map (·.map .word)).or <|
  (readOpening '(' s).map (·.map fun _ => .group)

/-- What goes on with an expression: a property, a call, or an assertion up to its bracket. -/
inductive Suffix
  | property (name : String)
  | call
  | assertion (negate : Bool) (matcher : String)

/-- Reads `not_`, if it is there. -/
def readNot (s : List Char) : Parsed Bool (s.length + 1) :=
  match h : Text.after? "not_".toList s with
  | none => ⟨false, s, Text.length_lt_succ _⟩
  | some r => ⟨true, r, Text.length_after?_lt_succ h⟩

/-- Reads the name of a matcher and the bracket behind it. -/
def readMatcher (s : List Char) : Option (Parsed (Bool × String) (s.length + 1)) :=
  let ⟨negate, r, h⟩ := readNot s
  match readName r with
  | none => none
  | some ⟨matcher, r₁, h₁⟩ =>
    (readOpening '(' r₁).map fun p => (p.map fun _ => (negate, matcher)).widen (by omega)

/-- Reads what goes on with an expression.  No property has a name that starts like an
assertion. -/
def readSuffix (s : List Char) : Option (Parsed Suffix s.length) :=
  match h : Text.after? ".should_".toList s with
  | some r =>
    -- what fails to be an assertion from here on is no property either
    (readMatcher r).map fun p =>
      (p.map fun m => .assertion m.1 m.2).widen (Text.length_after?_succ_le (by decide) h)
  | none =>
    match Text.sign '.' s with
    | some ⟨_, r, h⟩ => (readName r).map fun p => (p.map .property).widen (Text.length_le_of_lt h)
    | none =>
      match readOpening '(' s with
      | some ⟨_, r, h⟩ =>
        (Text.sign ')' r).map fun p => (p.map fun _ => .call).widen (Text.length_le_of_lt h)
      | none => none

/-- Reads a closing bracket, before which a comma may stand. -/
def readClosing (c : Char) (s : List Char) : Option (Parsed Unit s.length) :=
  match Text.signAfter isSpacing ',' s with
  | some ⟨_, r, h⟩ => (Text.signAfter isSpacing c r).map (·.widen (Text.length_le_of_lt h))
  | none => Text.signAfter isSpacing c s

/-- Reads a comma between spacing. -/
def readComma (s : List Char) : Option (Parsed Unit s.length) :=
  (Text.signAfter isSpacing ',' s).map fun p => (Text.skip isSpacing p.rest).widen p.shorter

/-- Reads the key of a field and the colon behind it. -/
def readKey (s : List Char) : Option (Parsed String s.length) :=
  match (readName s).or (readString s) with
  | none => none
  | some ⟨key, r, h⟩ =>
    (Text.signAfter isSpace ':' r).map fun p =>
      ((Text.skip isSpacing p.rest).map fun _ => key).widen
        (Nat.le_trans p.shorter (Nat.le_of_lt h))

/-! ### Statements -/

/-- What begins a statement that is more than an expression: a binding up to its value, or the
word of a failure. -/
inductive StatementLead
  | bind (name : String)
  | raise

/-- Reads a given word and leaves out the blanks behind it. -/
def readWord (w : String) (s : List Char) : Option (Parsed Unit s.length) :=
  match readName s with
  | some ⟨name, r, h⟩ => if name = w then some ((Text.skip isSpace r).widen h) else none
  | none => none

/-- Reads `let`, a name that is not reserved, and the equals sign.  A blank parts the word from
the name. -/
def readBinding (s : List Char) : Option (Parsed String s.length) :=
  match readWord "let" s with
  | none => none
  | some ⟨_, r, h⟩ =>
    match readName r with
    | none => none
    | some ⟨name, r₁, h₁⟩ =>
      if name ∈ reservedWords then none
      else
        (Text.signAfter isSpace '=' r₁).map fun p =>
          ((Text.skip isSpace p.rest).map fun _ => name).widen
            (Text.length_lt_trans (Text.length_lt_trans h h₁) p.shorter)

/-- Reads the beginning of a statement. -/
def readStatementLead (s : List Char) : Option (Parsed StatementLead s.length) :=
  ((readBinding s).map (·.map .bind)).or <|
  (readWord "raise" s).map (·.map fun _ => .raise)

/-- Leaves out a comment up to the end of its line.  A carriage return alone ends no line, and no
comment runs over one. -/
def skipComment (s : List Char) : Option (Parsed Unit (s.length + 1)) :=
  let ⟨_, r, h⟩ := Text.skip (fun c => c ≠ '\n' && c ≠ '\r') s
  match r with
  | '\r' :: '\n' :: t => some ⟨(), '\r' :: '\n' :: t, h⟩
  | '\r' :: _ => none
  | r => some ⟨(), r, h⟩

/-- Leaves out spacing, semicolons and comments. -/
def skipSeparators : (s : List Char) → Parsed Unit (s.length + 1)
  | [] => ⟨(), [], by simp⟩
  | c :: s =>
    if isSpacing c || c = ';' then (skipSeparators s).widen (by simp)
    else
      match h : Text.after? "//".toList (c :: s) with
      | none => ⟨(), c :: s, by simp⟩
      | some r =>
        match skipComment r with
        | none => ⟨(), c :: s, by simp⟩
        | some ⟨_, t, ht⟩ =>
          have hl : (c :: s).length = 2 + r.length := by
            rw [Text.eq_append_of_after? h, List.length_append]; rfl
          (skipSeparators t).widen (by omega)
termination_by s => s.length
decreasing_by
  · simp
  · simp only [List.length_cons] at *; omega

/-- Whether a statement can end before a text. -/
def endsStatement (s : List Char) : Bool :=
  match s with
  | [] => true
  | c :: t =>
    c = '\n' || c = '\r' || c = ';' || c = '\x7d' || (Text.after? "//".toList (c :: t)).isSome

end SpecEngine.Body
