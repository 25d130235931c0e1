import SpecEngine.Value.Comparison

/-!
# Operators

The eight operators that compare two values: strict and loose equality with their opposites, and
the four that ask for an order.  Where there is no order, none of the four holds.
-/

namespace SpecEngine

/-- Operators. -/
inductive Operator
  | strictEqual
  | strictNotEqual
  | equal
  | notEqual
  | greaterOrEqual
  | lessOrEqual
  | greater
  | less
  deriving DecidableEq

namespace Operator

/-- An operator as it is written. -/
def text : Operator → String
  | .strictEqual => "==="
  | .strictNotEqual => "!=="
  | .equal => "=="
  | .notEqual => "!="
  | .greaterOrEqual => ">="
  | .lessOrEqual => "<="
  | .greater => ">"
  | .less => "<"

/-- All operators.  One that continues another comes before it. -/
def all : List Operator :=
  [.strictEqual, .strictNotEqual, .equal, .notEqual, .greaterOrEqual, .lessOrEqual, .greater,
    .less]

/-- The operator that a text is. -/
def ofText? (s : String) : Option Operator :=
  all.find? fun o => o.text = s

@[simp] theorem ofText?_text (o : Operator) : ofText? o.text = some o := by
  cases o <;> decide

/-- What an operator says of two values, given their strict and loose equality and their order. -/
def holds (strict loose : Bool) (order : Option Ordering) : Operator → Bool
  | .strictEqual => strict
  | .strictNotEqual => !strict
  | .equal => loose
  | .notEqual => !loose
  | .greaterOrEqual => order = some .gt || order = some .eq
  | .lessOrEqual => order = some .lt || order = some .eq
  | .greater => order = some .gt
  | .less => order = some .lt

/-- What an operator says of two values. -/
def apply (o : Operator) (a b : Value) : Bool :=
  o.holds (a.strictEq b) (a.looseEq b) (a.order? b)

/-- What an operator says of a value and itself.  Seen through one handle, a box is itself. -/
def applySelf (o : Operator) (a : Value) : Bool :=
  o.holds (a.strictEqSelf) (a.looseEq a) (a.order? a)

end Operator

end SpecEngine
