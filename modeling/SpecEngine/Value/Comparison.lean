import SpecEngine.Text.Trim
import SpecEngine.Value.Text

/-!
# Comparing values

* `strictEq`: same type and value; lists, objects and callables by the number they were given;
* `looseEq`: numbers, texts, truth values and composites are brought to a common form first;
* `order?`: texts by their characters, everything else as numbers;
* `same`: equal in structure, a NaN equal to itself, objects whatever the order of their fields;
* `eql`: what two values are asked for most: equal content for composites, loose equality else.
-/

namespace SpecEngine

/-- The number that a text stands for; nothing is zero, and what is no numeral is NaN. -/
def numberOfText (s : String) : Float :=
  match Text.trim s.toList with
  | [] => 0
  | t => (readDouble t).getD Double.nan

namespace Value

/-- The number that a value stands for, a NaN if there is none. -/
def toNumber : Value → Float
  | .undefined => Double.nan
  | .null => 0
  | .bool b => if b then 1 else 0
  | .number x => x
  | .string s => numberOfText s
  | .boxed v => v.toNumber
  | .list id items => numberOfText (text (.list id items))
  | .object id fs => numberOfText (text (.object id fs))
  | .type _ | .callable .. => Double.nan

/-- Strict equality.  Two boxes are never one, for a box is made anew where it is read. -/
def strictEq : Value → Value → Bool
  | .undefined, .undefined => true
  | .null, .null => true
  | .bool a, .bool b => a == b
  | .number x, .number y => x == y
  | .string s, .string t => s == t
  | .list i _, .list j _ => i == j
  | .object i _, .object j _ => i == j
  | .type t, .type u => t == u
  | .callable i _ _ _, .callable j _ _ _ => i == j
  | _, _ => false

/-- Strict equality of a value with itself, seen through one handle. -/
def strictEqSelf : Value → Bool
  | .boxed _ => true
  | v => strictEq v v

/-- How many conversions a value is away from a number or a text. -/
def conversions : Value → Nat
  | .boxed v => v.conversions + 1
  | .bool _ | .list .. | .object .. => 1
  | _ => 0

/-- Loose equality. -/
def looseEq : Value → Value → Bool
  | .undefined, .undefined | .undefined, .null | .null, .undefined | .null, .null => true
  -- an absent value in a box is not opened here, so it differs from an absent value
  | .undefined, _ | .null, _ | _, .undefined | _, .null => false
  | .bool a, b => looseEq (.number (toNumber (.bool a))) b
  | a, .bool b => looseEq a (.number (toNumber (.bool b)))
  | .number x, .string s => x == numberOfText s
  | .string s, .number x => numberOfText s == x
  | .boxed a, b => looseEq a b
  | a, .boxed b => looseEq a b
  | .list id items, .number x => looseEq (.string (text (.list id items))) (.number x)
  | .list id items, .string s => looseEq (.string (text (.list id items))) (.string s)
  | .object id fs, .number x => looseEq (.string (text (.object id fs))) (.number x)
  | .object id fs, .string s => looseEq (.string (text (.object id fs))) (.string s)
  | .number x, .list id items => looseEq (.number x) (.string (text (.list id items)))
  | .string s, .list id items => looseEq (.string s) (.string (text (.list id items)))
  | .number x, .object id fs => looseEq (.number x) (.string (text (.object id fs)))
  | .string s, .object id fs => looseEq (.string s) (.string (text (.object id fs)))
  | a, b => strictEq a b
termination_by a b => a.conversions + b.conversions
decreasing_by all_goals simp only [conversions]; omega

/-- The order of texts, character by character. -/
def orderText (s t : String) : Ordering :=
  if s < t then .lt else if s = t then .eq else .gt

/-- The order of numbers; a NaN has none. -/
def orderNumber (x y : Float) : Option Ordering :=
  if x < y then some .lt else if x == y then some .eq else if y < x then some .gt else none

/-- The order of two values, if they have one. -/
def order? : Value → Value → Option Ordering
  | .string s, .string t => some (orderText s t)
  | a, b => orderNumber a.toNumber b.toNumber

mutual

/-- Equality of structure. -/
def same : Value → Value → Bool
  | .list _ as, .list _ bs => sameItems as bs
  | .object _ fs, .object _ gs => fs.length == gs.length && sameFields fs gs
  | .boxed a, .boxed b => same a b
  | .number x, .number y => x == y || (x.isNaN && y.isNaN)
  | a, b => strictEq a b

/-- Equality of structure of items, one by one. -/
def sameItems : List Value → List Value → Bool
  | [], [] => true
  | a :: as, b :: bs => same a b && sameItems as bs
  | _, _ => false

/-- Whether each field is there with the same value. -/
def sameFields : List (String × Value) → List (String × Value) → Bool
  | [], _ => true
  | (k, a) :: fs, gs =>
    (match Table.find? gs k with
      | some b => same a b
      | none => false) && sameFields fs gs

end

/-- Equal content for composites, loose equality for everything else. -/
def eql (expected actual : Value) : Bool :=
  if actual.isComposite then actual.content? == expected.content? else actual.looseEq expected

end Value

end SpecEngine
