import SpecEngine.Body.Evaluation
import SpecEngine.Matcher.Registry
import SpecEngine.Pattern.Reader

/-!
# Standard matchers

The matchers that are there from the start.  Four of them are predicates: `eql`, `match`,
`include` and `throw_error`; the others are aliases, operators and formulas.
-/

namespace SpecEngine

/-- Whether a text has another one in it. -/
def Text.occursIn (w : List Char) : List Char → Bool
  | [] => w.isEmpty
  | c :: s => w.isPrefixOf (c :: s) || occursIn w s

namespace Standard

/-- Whether a text matches a pattern. -/
def fits (expected actual : Value) : Bool :=
  match actual with
  | .string s => Pattern.matchesText expected.text.toList s.toList
  | _ => false

/-- Whether a text has a piece, a list an item, or an object a key. -/
def includes (expected actual : Value) : Bool :=
  match actual with
  | .string s => Text.occursIn expected.text.toList s.toList
  | .list _ items => items.any fun item => Value.eql expected item
  | .object _ fields => Table.contains fields expected.text
  | _ => false

/-- A predicate without a message of its own. -/
def predicate (holds : Value → Value → Bool) : Definition :=
  .rule (.predicate holds none)

/-- The length of the actual value. -/
def length : Formula := .property .actual "length"

/-- Whether the actual value equals a literal. -/
def equals (l : Literal) : Formula := .compare .equal .actual (.literal l)

/-- A number of formulas: zero. -/
def zero : Literal := .number ⟨none, ['0'], none, none⟩

/-- A matcher that is a formula, with its text. -/
def formula (source : String) (f : Formula) : Definition := .rule (.formula source f)

/-- The standard matchers. -/
def registry : Registry := [
  ("eql", predicate Value.eql),
  ("match", predicate fits),
  ("include", predicate includes),
  ("throw_error", predicate fun _ actual => actual.fails),
  ("be", .aliasOf "eql"),
  ("equal", .rule (.operator .strictEqual)),
  ("be_greater_than", .rule (.operator .greater)),
  ("be_less_than", .rule (.operator .less)),
  ("be_at_least", .rule (.operator .greaterOrEqual)),
  ("be_at_most", .rule (.operator .lessOrEqual)),
  ("be_a", formula "actual.constructor == expected"
    (.compare .equal (.property .actual "constructor") .expected)),
  ("be_an", .aliasOf "be_a"),
  ("be_null", formula "actual == null" (equals .null)),
  ("be_empty", formula "actual.length == 0" (.compare .equal length (.literal zero))),
  ("be_true", formula "actual == true" (equals (.bool true))),
  ("be_false", formula "actual == false" (equals (.bool false))),
  ("be_type", formula "typeof actual == expected"
    (.compare .equal (.typeOf .actual) .expected)),
  ("have_length", formula "actual.length == expected" (.compare .equal length .expected)),
  ("respond_to", formula "typeof actual[expected] == 'function'"
    (.compare .equal (.typeOf (.index .actual .expected)) (.literal (.string "function"))))]

end Standard

end SpecEngine
