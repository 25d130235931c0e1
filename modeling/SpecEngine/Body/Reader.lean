import SpecEngine.Body.Lead
import SpecEngine.Text.Lines
import SpecEngine.Text.Trim

/-!
# Reading spec bodies

The readers of expressions and statements, one for each rule of the grammar.  They call each other
on ever shorter texts, or on the same text one rule further down, so they come to an end.

* `readExpr`: an expression from the front of a text;
* `readStatements`: statements up to the first text that neither goes on with a statement nor
  begins one.  It always succeeds; what it leaves is for the caller to judge;
* `statements`: the statements of a whole body, or where the body stops being one.

A part that begins like a binding, a failure, a box or a field but does not go on like one is read
as something shorter, if it can be.
-/

namespace SpecEngine.Body

/-- The beginning of `s` that was read when `rest` is left. -/
def consumed (s rest : List Char) : List Char :=
  s.take (s.length - rest.length)

/-- What a word stands for that no bracket follows. -/
def wordExpr (w : String) : Expr :=
  if w = "true" then .bool true
  else if w = "false" then .bool false
  else if w = "null" then .null
  else if w = "undefined" then .undefined
  else .name w

mutual

/-- Reads an expression between round brackets. -/
def readGroup (s : List Char) : Option (Parsed Expr s.length) :=
  match readOpening '(' s with
  | none => none
  | some ⟨_, r, h⟩ =>
    match readExpr r with
    | none => none
    | some ⟨e, r₁, h₁⟩ => (Text.signAfter isSpacing ')' r₁).map fun p =>
        (p.map fun _ => e).widen (by omega)
termination_by 5 * s.length

/-- Reads an expression without what goes on with it. -/
def readPrimary (s : List Char) : Option (Parsed Expr s.length) :=
  match readLead s with
  | none => none
  | some ⟨.number n, r, h⟩ => some ⟨.number n, r, h⟩
  | some ⟨.string t, r, h⟩ => some ⟨.string t, r, h⟩
  | some ⟨.word w, r, h⟩ =>
    if w = "box" then
      match readGroup (r.dropWhile isSpace) with
      | some ⟨e, r₁, h₁⟩ => some ⟨.boxed e, r₁, by
          have := Text.length_dropWhile_le isSpace r; omega⟩
      | none => some ⟨wordExpr w, r, h⟩
    else some ⟨wordExpr w, r, h⟩
  | some ⟨.callable, r, h⟩ =>
    let ⟨body, r₁, h₁⟩ := readStatements r
    match Text.signAfter isSpacing '\x7d' r₁ with
    | none => none
    | some ⟨_, r₂, h₂⟩ =>
      some ⟨.callable (String.ofList (consumed s r₂)) body, r₂, by omega⟩
  | some ⟨.list, r, h⟩ =>
    let ⟨items, r₁, h₁⟩ := readItems r
    (readClosing ']' r₁).map fun p => (p.map fun _ => .list items).widen (by omega)
  | some ⟨.object, r, h⟩ =>
    let ⟨fields, r₁, h₁⟩ := readFields r
    (readClosing '\x7d' r₁).map fun p => (p.map fun _ => .object fields).widen (by omega)
  | some ⟨.group, _, _⟩ => readGroup s
termination_by 5 * s.length + 1
decreasing_by
  · have := Text.length_dropWhile_le isSpace r; omega
  all_goals omega

/-- Reads an expression. -/
def readExpr (s : List Char) : Option (Parsed Expr s.length) :=
  match readPrimary s with
  | none => none
  | some ⟨e, r, h⟩ => some ((readSuffixes e r).widen h)
termination_by 5 * s.length + 2

/-- Reads all that goes on with an expression. -/
def readSuffixes (e : Expr) (s : List Char) : Parsed Expr (s.length + 1) :=
  match readSuffix s with
  | none => ⟨e, s, Text.length_lt_succ _⟩
  | some ⟨.property name, r, h⟩ => (readSuffixes (.property e name) r).widen (by omega)
  | some ⟨.call, r, h⟩ => (readSuffixes (.call e) r).widen (by omega)
  | some ⟨.assertion negate matcher, r, h⟩ =>
    match readArgument r with
    | none => ⟨e, s, Text.length_lt_succ _⟩
    | some ⟨x, r₁, h₁⟩ => (readSuffixes (.assertion e matcher negate x) r₁).widen (by omega)
termination_by 5 * s.length

/-- Reads the expected value of an assertion, which may be missing, and the closing bracket. -/
def readArgument (s : List Char) : Option (Parsed (Option Expr) s.length) :=
  match readExpr s with
  | none => (Text.signAfter isSpacing ')' s).map (·.map fun _ => none)
  | some ⟨e, r, h⟩ =>
    (Text.signAfter isSpacing ')' r).map fun p => (p.map fun _ => some e).widen (Nat.le_of_lt h)
termination_by 5 * s.length + 3

/-- Reads the items of a list. -/
def readItems (s : List Char) : Parsed (List Expr) (s.length + 1) :=
  match readExpr s with
  | none => ⟨[], s, Text.length_lt_succ _⟩
  | some ⟨e, r, h⟩ => ((readMoreItems r).map (e :: ·)).widen (by omega)
termination_by 5 * s.length + 3

/-- Reads items, each behind a comma. -/
def readMoreItems (s : List Char) : Parsed (List Expr) (s.length + 1) :=
  match readComma s with
  | none => ⟨[], s, Text.length_lt_succ _⟩
  | some ⟨_, r, h⟩ =>
    match readExpr r with
    | none => ⟨[], s, Text.length_lt_succ _⟩
    | some ⟨e, r₁, h₁⟩ => ((readMoreItems r₁).map (e :: ·)).widen (by omega)
termination_by 5 * s.length

/-- Reads a key and its value. -/
def readField (s : List Char) : Option (Parsed (String × Expr) s.length) :=
  match readKey s with
  | none => none
  | some ⟨key, r, h⟩ =>
    match readExpr r with
    | none => none
    | some ⟨e, r₁, h₁⟩ => some ⟨(key, e), r₁, Text.length_lt_trans h h₁⟩
termination_by 5 * s.length

/-- Reads the fields of an object. -/
def readFields (s : List Char) : Parsed (List (String × Expr)) (s.length + 1) :=
  match readField s with
  | none => ⟨[], s, Text.length_lt_succ _⟩
  | some ⟨f, r, h⟩ => ((readMoreFields r).map (f :: ·)).widen (by omega)
termination_by 5 * s.length + 1

/-- Reads fields, each behind a comma. -/
def readMoreFields (s : List Char) : Parsed (List (String × Expr)) (s.length + 1) :=
  match readComma s with
  | none => ⟨[], s, Text.length_lt_succ _⟩
  | some ⟨_, r, h⟩ =>
    match readField r with
    | none => ⟨[], s, Text.length_lt_succ _⟩
    | some ⟨f, r₁, h₁⟩ => ((readMoreFields r₁).map (f :: ·)).widen (by omega)
termination_by 5 * s.length

/-- Reads a statement. -/
def readStatement (s : List Char) : Option (Parsed Statement s.length) :=
  match readStatementLead s with
  | none => (readExpr s).map (·.map .expr)
  | some ⟨lead, r, h⟩ =>
    match readExpr r with
    | none => (readExpr s).map (·.map .expr)
    | some ⟨e, r₁, h₁⟩ =>
      match lead with
      | .bind name => some ⟨.bind name e, r₁, by omega⟩
      | .raise => some ⟨.raise e, r₁, by omega⟩
termination_by 5 * s.length + 3

/-- Reads statements. -/
def readStatements (s : List Char) : Parsed (List Statement) (s.length + 1) :=
  let ⟨_, r, h⟩ := skipSeparators s
  match readStatement r with
  | none => ⟨[], r, h⟩
  | some ⟨st, r₁, h₁⟩ =>
    let ⟨_, r₂, h₂⟩ := Text.skip isSpace r₁
    if endsStatement r₂ then ((readStatements r₂).map (st :: ·)).widen (by omega)
    else ⟨[st], r₂, by omega⟩
termination_by 5 * s.length + 4

end

/-- Where a body stops being one: the line, and the beginning of what is left of it. -/
structure Malformed where
  line : Nat
  excerpt : String
  deriving DecidableEq

/-- What to say of a body of which `rest` is left. -/
def Malformed.left (s rest : List Char) : Malformed where
  line := (consumed s rest).count '\n' + 1
  excerpt := String.ofList (Text.trim ((Text.firstLine rest).take 40))

/-- The statements of a whole body. -/
def statements (s : List Char) : Except Malformed (List Statement) :=
  match readStatements s with
  | ⟨body, [], _⟩ => .ok body
  | ⟨_, rest, _⟩ => .error (.left s rest)

end SpecEngine.Body
