import SpecEngine.Body.Expr
import SpecEngine.Table

/-!
# Values

What bodies compute with and matchers compare.  Lists, objects and callables carry the number
they were given when they were made, so that two handles to one list can be told from two lists
with the same items.  A box has no number: reading it gives a new box each time.

* `TypeName`, `Value`;
* what a value says about itself: `typeOf`, `constructor?`, `length?`, `property`, `fields`;
* `rank` bounds how deeply calls of the callables in a value can nest.
-/

namespace SpecEngine

/-- The constructors that values are built with. -/
inductive TypeName
  | string | number | boolean | array | object | function
  deriving DecidableEq

namespace TypeName

/-- The name of a type. -/
def text : TypeName → String
  | .string => "String"
  | .number => "Number"
  | .boolean => "Boolean"
  | .array => "Array"
  | .object => "Object"
  | .function => "Function"

/-- All types. -/
def all : List TypeName := [.string, .number, .boolean, .array, .object, .function]

/-- The type of a name. -/
def ofText? (s : String) : Option TypeName :=
  all.find? fun t => t.text = s

@[simp] theorem ofText?_text (t : TypeName) : ofText? t.text = some t := by
  cases t <;> decide

end TypeName

/-- Values. -/
inductive Value
  | undefined
  | null
  | bool (b : Bool)
  | number (x : Float)
  | string (s : String)
  | list (id : Nat) (items : List Value)
  | object (id : Nat) (fields : List (String × Value))
  | boxed (inner : Value)
  | type (t : TypeName)
  | callable (id : Nat) (source : String) (body : List Statement) (scope : List (String × Value))

instance : Inhabited Value := ⟨.undefined⟩

/-- The bindings that a body sees. -/
abbrev Scope := Table String Value

/-- A callable that returns `v`. -/
def Value.returning (id : Nat) (source : String) (v : Value) : Value :=
  .callable id source [.expr (.name "result")] [("result", v)]

/-- A callable that fails with `message`. -/
def Value.raising (id : Nat) (source message : String) : Value :=
  .callable id source [.raise (.name "message")] [("message", .string message)]

namespace Value

/-- The value in a box, however often it is boxed. -/
def unboxed : Value → Value
  | .boxed v => v.unboxed
  | v => v

/-- Whether a value is a list or an object. -/
def isComposite : Value → Bool
  | .list .. | .object .. => true
  | _ => false

/-- Whether a value is a callable or a type. -/
def isCallable : Value → Bool
  | .callable .. | .type _ => true
  | _ => false

/-- The body of a callable and the bindings it keeps. -/
def closure? : Value → Option (List Statement × Scope)
  | .callable _ _ body scope => some (body, scope)
  | _ => none

/-- The name of the dynamic type. -/
def typeOf : Value → String
  | .undefined => "undefined"
  | .bool _ => "boolean"
  | .number _ => "number"
  | .string _ => "string"
  | .null | .list .. | .object .. | .boxed _ => "object"
  | .type _ | .callable .. => "function"

/-- The constructor of a value; absent values have none. -/
def constructor? : Value → Option TypeName
  | .undefined | .null => none
  | .bool _ => some .boolean
  | .number _ => some .number
  | .string _ => some .string
  | .list .. => some .array
  | .object .. => some .object
  | .boxed v => v.constructor?
  | .type _ | .callable .. => some .function

/-- The number of characters of a text or of items of a list. -/
def length? : Value → Option Nat
  | .string s => some s.length
  | .list _ items => some items.length
  | .boxed v => v.length?
  | _ => none

/-- The index that a name stands for: digits below Nat.pow 2 64, with or without a plus. -/
def indexOfName? (name : String) : Option Nat :=
  let digits :=
    match name.toList with
    | '+' :: s => s
    | s => s
  if digits ≠ [] ∧ digits.all Char.isDigit ∧ Numeral.natOfDigits digits < Nat.pow 2 64 then
    some (Numeral.natOfDigits digits)
  else none

/-- The properties that every value has, besides its own. -/
def intrinsic (v : Value) (name : String) : Value :=
  if name = "length" then v.length?.elim .undefined fun n => .number (Float.ofNat n)
  else if name = "constructor" then v.constructor?.elim .undefined .type
  else .undefined

/-- A property by name; what is missing is undefined. -/
def property : Value → String → Value
  | .object id fields, name =>
    match Table.find? fields name with
    | some v => v
    | none => intrinsic (.object id fields) name
  | .list id items, name =>
    match indexOfName? name with
    | some i => items[i]?.getD .undefined
    | none => intrinsic (.list id items) name
  | .boxed v, name => v.property name
  | v, name => intrinsic v name

/-- Items under their indices, counted from `start`. -/
def indexed (start : Nat) : List Value → List (String × Value)
  | [] => []
  | v :: vs => (toString start, v) :: indexed (start + 1) vs

/-- The fields of a composite in the order of enumeration; a list enumerates its indices. -/
def fields : Value → List (String × Value)
  | .list _ items => indexed 0 items
  | .object _ fs => fs
  | _ => []

/-- Whether a value counts as true. -/
def isTruthy : Value → Bool
  | .undefined | .null => false
  | .bool b => b
  | .number x => x != 0 && !x.isNaN
  | .string s => s ≠ ""
  | _ => true

/-! ### Rank -/

mutual

/-- How deeply calls of the callables in a value can nest. -/
def rank : Value → Nat
  | .list _ items => rankItems items
  | .object _ fs => rankFields fs
  | .boxed v => v.rank
  | .callable _ _ body scope => Statement.sizeAll body + rankFields scope + 1
  | .undefined | .null | .bool _ | .number _ | .string _ | .type _ => 0

/-- How deeply calls of the callables in the items of a list can nest. -/
def rankItems : List Value → Nat
  | [] => 0
  | v :: vs => max v.rank (rankItems vs)

/-- How deeply calls of the callables in the fields of an object can nest. -/
def rankFields : List (String × Value) → Nat
  | [] => 0
  | (_, v) :: fs => max v.rank (rankFields fs)

end

theorem rank_of_closure? {v : Value} {body : List Statement} {scope : Scope}
    (h : v.closure? = some (body, scope)) :
    v.rank = Statement.sizeAll body + rankFields scope + 1 := by
  cases v <;> simp_all [closure?, rank]

theorem rank_find?_le {fs : Table String Value} {name : String} {v : Value}
    (h : Table.find? fs name = some v) : v.rank ≤ rankFields fs := by
  induction fs with
  | nil => cases h
  | cons f fs ih =>
    obtain ⟨k, w⟩ := f
    rw [Table.find?_cons] at h
    simp only [rankFields]
    split at h
    · cases h; omega
    · have := ih h; omega

theorem rank_getElem?_le {items : List Value} {i : Nat} {v : Value}
    (h : items[i]? = some v) : v.rank ≤ rankItems items := by
  induction items generalizing i with
  | nil => simp at h
  | cons w items ih =>
    simp only [rankItems]
    cases i with
    | zero => simp at h; subst h; omega
    | succ i => have := ih (i := i) (by simpa using h); omega

theorem rank_intrinsic (v : Value) (name : String) : (intrinsic v name).rank = 0 := by
  unfold intrinsic
  split
  · cases v.length? <;> simp [rank]
  · split
    · cases v.constructor? <;> simp [rank]
    · simp [rank]

theorem rank_property_le (v : Value) (name : String) : (v.property name).rank ≤ v.rank := by
  fun_induction property v name with
  | case1 id fs name v h => simpa [rank] using rank_find?_le h
  | case2 => simp [rank_intrinsic]
  | case3 id items name i h =>
    cases hi : items[i]? with
    | none => simp [rank]
    | some v => simpa [rank] using rank_getElem?_le hi
  | case4 => simp [rank_intrinsic]
  | case5 v name ih => simpa [rank] using ih
  | case6 => simp [rank_intrinsic]

theorem rankFields_set_le (fs : Table String Value) (name : String) (v : Value) :
    rankFields (Table.set fs name v) ≤ max v.rank (rankFields fs) := by
  unfold Table.set
  induction fs with
  | nil => simp [Table.upsert, rankFields]
  | cons f fs ih =>
    obtain ⟨k, w⟩ := f
    simp only [Table.upsert]
    split <;> simp only [rankFields] <;> omega

theorem rankFields_ofList_le (fs : List (String × Value)) :
    rankFields (Table.ofList fs) ≤ rankFields fs := by
  suffices h : ∀ t : Table String Value,
      rankFields (fs.foldl (fun t e => Table.set t e.1 e.2) t) ≤
        max (rankFields t) (rankFields fs) by
    simpa [Table.ofList, rankFields] using h []
  induction fs with
  | nil => exact fun t => Nat.le_max_left _ _
  | cons f fs ih =>
    intro t
    have := ih (Table.set t f.1 f.2)
    have := rankFields_set_le t f.1 f.2
    simp only [List.foldl_cons, rankFields]
    omega

end Value

end SpecEngine
