/-!
# Errors of matchers

A matcher may be unknown, an alias may lead back to itself, and the text of a definition may be
none.
-/

namespace SpecEngine

/-- Why a text is no definition. -/
inductive DefinitionFault
  | unknownOperator
  | unexpected (rest : String)
  deriving DecidableEq

/-- What to say of a fault. -/
def DefinitionFault.message : DefinitionFault → String
  | .unknownOperator => "unknown operator"
  | .unexpected rest => "unexpected input at '" ++ rest ++ "'"

/-- The causes for refusing a matcher. -/
inductive MatcherError
  | unknown (name : String)
  | aliasCycle (chain : List String)
  | invalidDefinition (definition : String) (fault : DefinitionFault)
  deriving DecidableEq

/-- What to say of an error. -/
def MatcherError.message : MatcherError → String
  | .unknown name => "unknown matcher '" ++ name ++ "'"
  | .aliasCycle chain => "alias cycle " ++ " -> ".intercalate chain
  | .invalidDefinition definition fault =>
    "invalid matcher definition '" ++ definition ++ "': " ++ fault.message

end SpecEngine
