import SpecEngine.Matcher.Definition

/-!
# Registries of matchers

A registry has definitions by name, in the order in which the names were first registered.  Aliases
are followed when a matcher is looked up, and an alias that would lead back to its own name is
refused when it is registered.

* `follow`: where a chain of aliases ends.  It looks each name up in what is left of the registry
  behind the names before it, so it ends;
* `register`, `registerSource`, `extend`, `resolve`.
-/

namespace SpecEngine

/-- Definitions by name. -/
abbrev Registry := Table String Definition

namespace Registry

/-- Follows aliases from `name`, behind the names in `chain`: the chain up to a name that was in it
before, or the first name that is no alias, with its rule if it has one. -/
def follow (r : Registry) (chain : List String) (name : String) :
    Except (List String) (String × Option Rule) :=
  if name ∈ chain then .error (chain ++ [name])
  else
    match _h : Table.find? r name with
    | none => .ok (name, none)
    | some (.rule rule) => .ok (name, some rule)
    | some (.aliasOf target) => follow (Table.erase r name) (chain ++ [name]) target
termination_by r.length
decreasing_by exact Table.length_erase_lt _h

/-- The rule that a name stands for. -/
def resolve (r : Registry) (name : String) : Except MatcherError Rule :=
  match follow r [] name with
  | .error chain => .error (.aliasCycle chain)
  | .ok (last, none) => .error (.unknown last)
  | .ok (_, some rule) => .ok rule

/-- The chain by which an alias would lead back to a name that was on it before. -/
def cycle? (r : Registry) (name : String) : Definition → Option (List String)
  | .rule _ => none
  | .aliasOf target =>
    match follow r [name] target with
    | .error chain => some chain
    | .ok _ => none

/-- Gives a name its definition, which takes the place of an earlier one. -/
def register (r : Registry) (name : String) (d : Definition) : Except MatcherError Registry :=
  match cycle? r name d with
  | some chain => .error (.aliasCycle chain)
  | none => .ok (Table.set r name d)

/-- Gives a name the definition that a text is. -/
def registerSource (r : Registry) (name source : String) : Except MatcherError Registry :=
  match Definition.read source with
  | .ok d => r.register name d
  | .error e => .error e

/-- Registers definitions one after the other, up to the first that is refused: the registry as far
as it came, and the error. -/
def extend (r : Registry) : List (String × String) → Registry × Option MatcherError
  | [] => (r, none)
  | (name, source) :: rest =>
    match r.registerSource name source with
    | .ok r => extend r rest
    | .error e => (r, some e)

end Registry

end SpecEngine
