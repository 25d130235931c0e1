import SpecEngine.Matcher.Operator

/-!
# Formulas

A formula says in one expression over the actual and the expected value whether a matcher holds:
it holds when the value of the formula is truthy.  There are no calls and no names but the two
values and the types, so evaluating a formula follows its structure.
-/

namespace SpecEngine

/-- Values that a formula can write down.  A number keeps its text. -/
inductive Literal
  | undefined
  | null
  | bool (b : Bool)
  | number (n : Numeral)
  | string (s : String)
  | type (t : TypeName)
  deriving DecidableEq

/-- The value that a literal stands for. -/
def Literal.value : Literal → Value
  | .undefined => .undefined
  | .null => .null
  | .bool b => .bool b
  | .number n => .number n.toFloat
  | .string s => .string s
  | .type t => .type t

/-- Formulas. -/
inductive Formula
  | actual
  | expected
  | literal (l : Literal)
  | property (target : Formula) (name : String)
  | index (target key : Formula)
  | typeOf (inner : Formula)
  | not (inner : Formula)
  | compare (o : Operator) (left right : Formula)
  | and (left right : Formula)
  | or (left right : Formula)
  | conditional (test yes no : Formula)
  deriving DecidableEq

namespace Formula

/-- The value of a formula. -/
def eval (actual expected : Value) : Formula → Value
  | .actual => actual
  | .expected => expected
  | .literal l => l.value
  | .property target name => (target.eval actual expected).property name
  | .index target key => (target.eval actual expected).property (key.eval actual expected).text
  | .typeOf inner => .string (inner.eval actual expected).typeOf
  | .not inner => .bool !(inner.eval actual expected).isTruthy
  | .compare o left right =>
    .bool (o.apply (left.eval actual expected) (right.eval actual expected))
  | .and left right =>
    let v := left.eval actual expected
    if v.isTruthy then right.eval actual expected else v
  | .or left right =>
    let v := left.eval actual expected
    if v.isTruthy then v else right.eval actual expected
  | .conditional test yes no =>
    if (test.eval actual expected).isTruthy then yes.eval actual expected
    else no.eval actual expected

/-- Whether a formula holds. -/
def holds (f : Formula) (expected actual : Value) : Bool :=
  (f.eval actual expected).isTruthy

end Formula

end SpecEngine
