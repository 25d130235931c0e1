import SpecEngine.Matcher.Formula.Reader
import SpecEngine.Text.Place

/-!
# Definitions of matchers

A matcher is an alias of another one, or has a rule of its own: an operator, a formula, or a
predicate, which may bring its own message.

`Definition.read` takes a definition from a text: `alias name`, an operator, or a formula.  What
has fewer than four bytes can only be an operator.
-/

namespace SpecEngine

/-- Rules.  Predicates take the expected value before the actual one. -/
inductive Rule
  | operator (o : Operator)
  | formula (source : String) (f : Formula)
  | predicate (holds : Value → Value → Bool) (message? : Option (Value → Value → Bool → String))

namespace Rule

/-- Whether a rule holds of an expected and an actual value. -/
def holds (r : Rule) (expected actual : Value) : Bool :=
  match r with
  | .operator o => o.apply actual expected
  | .formula _ f => f.holds expected actual
  | .predicate p _ => p expected actual

/-- The message that a rule brings for an assertion, negated or not. -/
def message? (r : Rule) (expected actual : Value) (negate : Bool) : Option String :=
  match r with
  | .predicate _ (some m) => some (m expected actual negate)
  | _ => none

/-- A rule as it is shown. -/
def text : Rule → String
  | .operator o => "Operator(" ++ o.text ++ ")"
  | .formula source _ => "Expression(" ++ source ++ ")"
  | .predicate _ m => "Predicate(message: " ++ (if m.isSome then "true" else "false") ++ ")"

end Rule

/-- Definitions. -/
inductive Definition
  | aliasOf (target : String)
  | rule (r : Rule)

namespace Definition

/-- A definition as it is shown. -/
def text : Definition → String
  | .aliasOf target => "Alias(" ++ target ++ ")"
  | .rule r => r.text

/-- Brings a message with a predicate; other definitions have no use for it. -/
def withMessage (m : Value → Value → Bool → String) : Definition → Definition
  | .rule (.predicate p _) => .rule (.predicate p (some m))
  | d => d

/-- The name behind `alias` and a blank at the front of a text. -/
def aliasTarget? (s : List Char) : Option String :=
  match Text.after? "alias ".toList s with
  | none => none
  | some r =>
    match r.takeWhile Text.isWordChar with
    | [] => none
    | name => some (String.ofList name)

/-- The definition that a text is. -/
def read (source : String) : Except MatcherError Definition :=
  let s := Text.trim source.toList
  let text := String.ofList s
  match aliasTarget? s with
  | some target => .ok (.aliasOf target)
  | none =>
    if Text.bytes s < 4 then
      match Operator.ofText? text with
      | some o => .ok (.rule (.operator o))
      | none => .error (.invalidDefinition text .unknownOperator)
    else
      match Formula.read text with
      | .ok f => .ok (.rule (.formula text f))
      | .error e => .error e

end Definition

end SpecEngine
