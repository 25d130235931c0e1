import SpecEngine.Body.Lead
import SpecEngine.Matcher.Error
import SpecEngine.Matcher.Formula
import SpecEngine.Text.Trim

/-!
# Reading formulas

From the loosest to the tightest, a formula is built by the conditional `a ? b : c`, by `||`, by
`&&`, by at most one operator, by `!` and `typeof`, and by what follows an atom: `.name` and
`[key]`.  Names and texts are written as in bodies.

A reader that finds no formula says where it stopped: at the atom that it cannot read, or within
the innermost bracket it got into.  Most stops are soft, so that what is optional is left out; an
exponent without digits stops everything.

* `readConditional`: a formula from the front of a text;
* `Formula.read`: a whole text.
-/

namespace SpecEngine.Formula

open Body (isSpacing readName readString readOpening)

/-- Reads a given sign between spacing. -/
def readBetween (w : List Char) (s : List Char) : Option (Parsed Unit (s.length + 1)) :=
  let ⟨_, r, h⟩ := Text.skip isSpacing s
  match hw : Text.after? w r with
  | none => none
  | some t =>
    some ((Text.skip isSpacing t).widen (Text.length_after?_succ_le_succ h hw))

/-- Reads an operator between spacing. -/
def readOperator (s : List Char) : Option (Parsed Operator (s.length + 1)) :=
  Operator.all.findSome? fun o => (readBetween o.text.toList s).map (·.map fun _ => o)

/-- What a word stands for. -/
def ofWord? (w : String) : Option Formula :=
  if w = "actual" then some .actual
  else if w = "expected" then some .expected
  else if w = "true" then some (.literal (.bool true))
  else if w = "false" then some (.literal (.bool false))
  else if w = "null" then some (.literal .null)
  else if w = "undefined" then some (.literal .undefined)
  else (TypeName.ofText? w).map fun t => .literal (.type t)

/-- What begins an atom: all of it, or an opening bracket. -/
inductive Head
  | whole (f : Formula)
  | group

/-- Reads the beginning of an atom. -/
def readHead (s : List Char) : Except Stop (Parsed Head s.length) :=
  match readOpening '(' s with
  | some p => .ok (p.map fun _ => .group)
  | none =>
    match readString s with
    | some p => .ok (p.map fun t => .whole (.literal (.string t)))
    | none =>
      match readName s with
      | some p =>
        match ofWord? p.value with
        | some f => .ok (p.map fun _ => .whole f)
        | none => .error (.soft s)
      | none =>
        match Numeral.recognize s with
        | .ok p => .ok (p.map fun n => .whole (.literal (.number n)))
        | .error e => .error (if e.hard then e else .soft s)

/-- What stands before a formula. -/
inductive Sign
  | not
  | typeOf

/-- A formula with a sign before it. -/
def Sign.apply : Sign → Formula → Formula
  | .not => .not
  | .typeOf => .typeOf

/-- Reads what stands before a formula. -/
def readSign (s : List Char) : Option (Parsed Sign s.length) :=
  match readOpening '!' s with
  | some p => some (p.map fun _ => .not)
  | none =>
    match readName s with
    | some ⟨w, r, h⟩ =>
      if w = "typeof" then some (((Text.skip isSpacing r).map fun _ => .typeOf).widen h) else none
    | none => none

mutual

/-- Reads an atom. -/
def readAtom (s : List Char) : Except Stop (Parsed Formula s.length) :=
  match readHead s with
  | .error e => .error e
  | .ok ⟨.whole f, r, h⟩ => .ok ⟨f, r, h⟩
  | .ok ⟨.group, r, h⟩ =>
    match readConditional r with
    | .error e => .error e
    | .ok ⟨f, r₁, h₁⟩ =>
      match Text.signAfter isSpacing ')' r₁ with
      | none => .error (.soft (r₁.dropWhile isSpacing))
      | some ⟨_, r₂, h₂⟩ => .ok ⟨f, r₂, by omega⟩
termination_by 7 * s.length

/-- Reads properties and keys. -/
def readAccesses (f : Formula) (s : List Char) : Except Stop (Parsed Formula (s.length + 1)) :=
  match Text.sign '.' s with
  | some ⟨_, r, h⟩ =>
    match readName r with
    | none => .ok ⟨f, s, Text.length_lt_succ _⟩
    | some ⟨name, r₁, h₁⟩ =>
      (readAccesses (.property f name) r₁).map (·.widen (Text.length_succ_le_succ h h₁))
  | none =>
    match readOpening '[' s with
    | none => .ok ⟨f, s, Text.length_lt_succ _⟩
    | some ⟨_, r, h⟩ =>
      match readConditional r with
      | .error e => if e.hard then .error e else .ok ⟨f, s, Text.length_lt_succ _⟩
      | .ok ⟨key, r₁, h₁⟩ =>
        match Text.signAfter isSpacing ']' r₁ with
        | none => .ok ⟨f, s, Text.length_lt_succ _⟩
        | some ⟨_, r₂, h₂⟩ =>
          (readAccesses (.index f key) r₂).map
            (·.widen (Text.length_succ_le_succ (Text.length_lt_trans h h₁) h₂))
termination_by 7 * s.length

/-- Reads an atom with its properties and keys. -/
def readPostfix (s : List Char) : Except Stop (Parsed Formula s.length) :=
  match readAtom s with
  | .error e => .error e
  | .ok ⟨f, r, h⟩ => (readAccesses f r).map (·.widen h)
termination_by 7 * s.length + 1

/-- Reads a formula without operators. -/
def readUnary (s : List Char) : Except Stop (Parsed Formula s.length) :=
  match readSign s with
  | none => readPostfix s
  | some ⟨sign, r, h⟩ =>
    match readUnary r with
    -- without a formula behind it the sign itself cannot be read
    | .error e => .error (if e.hard then e else .soft s)
    | .ok p => .ok ((p.map sign.apply).widen (Nat.le_of_lt h))
termination_by 7 * s.length + 2

/-- Reads a formula with at most one operator. -/
def readComparison (s : List Char) : Except Stop (Parsed Formula s.length) :=
  match readUnary s with
  | .error e => .error e
  | .ok ⟨left, r, h⟩ =>
    match readOperator r with
    | none => .ok ⟨left, r, h⟩
    | some ⟨o, r₁, h₁⟩ =>
      match readUnary r₁ with
      | .error e => if e.hard then .error e else .ok ⟨left, r, h⟩
      | .ok p => .ok ((p.map (.compare o left)).widen (by omega))
termination_by 7 * s.length + 3

/-- Reads what `&&` joins to a formula. -/
def readConjuncts (left : Formula) (s : List Char) :
    Except Stop (Parsed Formula (s.length + 1)) :=
  match readBetween "&&".toList s with
  | none => .ok ⟨left, s, Text.length_lt_succ _⟩
  | some ⟨_, r, h⟩ =>
    match readComparison r with
    | .error e => if e.hard then .error e else .ok ⟨left, s, Text.length_lt_succ _⟩
    | .ok ⟨right, r₁, h₁⟩ => (readConjuncts (.and left right) r₁).map (·.widen (by omega))
termination_by 7 * s.length + 4

/-- Reads a formula without `||` and conditionals. -/
def readAnd (s : List Char) : Except Stop (Parsed Formula s.length) :=
  match readComparison s with
  | .error e => .error e
  | .ok ⟨left, r, h⟩ => (readConjuncts left r).map (·.widen h)
termination_by 7 * s.length + 4

/-- Reads what `||` joins to a formula. -/
def readDisjuncts (left : Formula) (s : List Char) :
    Except Stop (Parsed Formula (s.length + 1)) :=
  match readBetween "||".toList s with
  | none => .ok ⟨left, s, Text.length_lt_succ _⟩
  | some ⟨_, r, h⟩ =>
    match readAnd r with
    | .error e => if e.hard then .error e else .ok ⟨left, s, Text.length_lt_succ _⟩
    | .ok ⟨right, r₁, h₁⟩ => (readDisjuncts (.or left right) r₁).map (·.widen (by omega))
termination_by 7 * s.length + 5

/-- Reads a formula without conditionals. -/
def readOr (s : List Char) : Except Stop (Parsed Formula s.length) :=
  match readAnd s with
  | .error e => .error e
  | .ok ⟨left, r, h⟩ => (readDisjuncts left r).map (·.widen h)
termination_by 7 * s.length + 5

/-- Reads the two branches of a conditional. -/
def readBranches (s : List Char) : Except Stop (Parsed (Formula × Formula) (s.length + 1)) :=
  match readBetween ['?'] s with
  | none => .error (.soft s)
  | some ⟨_, r, h⟩ =>
    match readConditional r with
    | .error e => .error e
    | .ok ⟨yes, r₁, h₁⟩ =>
      match readBetween [':'] r₁ with
      | none => .error (.soft r₁)
      | some ⟨_, r₂, h₂⟩ =>
        match readConditional r₂ with
        | .error e => .error e
        | .ok p => .ok ((p.map (yes, ·)).widen (by omega))
termination_by 7 * s.length + 7

/-- Reads a formula. -/
def readConditional (s : List Char) : Except Stop (Parsed Formula s.length) :=
  match readOr s with
  | .error e => .error e
  | .ok ⟨test, r, h⟩ =>
    match readBranches r with
    | .error e => if e.hard then .error e else .ok ⟨test, r, h⟩
    | .ok p => .ok ((p.map fun b => .conditional test b.1 b.2).widen h)
termination_by 7 * s.length + 6

end

/-- The formula that a whole text is, or where the text stops being one. -/
def readAll (s : List Char) : Except Stop Formula :=
  match readConditional (s.dropWhile isSpacing) with
  | .error e => .error e
  | .ok ⟨f, r, _⟩ =>
    match r.dropWhile isSpacing with
    | [] => .ok f
    | rest => .error (.soft rest)

/-- The formula that a text is. -/
def read (source : String) : Except MatcherError Formula :=
  match readAll source.toList with
  | .ok f => .ok f
  | .error e =>
    .error (.invalidDefinition source (.unexpected (String.ofList (Text.trim e.rest))))

end SpecEngine.Formula
