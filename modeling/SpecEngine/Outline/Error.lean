import SpecEngine.Outline.Token

/-!
# Errors in the structure of a spec file

Each error names its cause and the place of the token to blame: the offending token itself, or
the keyword that opened what is incomplete.
-/

namespace SpecEngine

/-- What keywords open. -/
inductive Construct
  | describe
  | it
  | hook
  deriving DecidableEq

/-- The name of a construct in messages. -/
def Construct.text : Construct → String
  | .describe => "describe"
  | .it => "it"
  | .hook => "hook"

/-- The causes for refusing a spec file. -/
inductive OutlineError
  | unmatchedEnd (place : Place)
  | nested (keyword : Keyword) (opened : Construct) (place : Place)
  | outsideSuite (keyword : Keyword) (place : Place)
  | missingDescription (construct : Construct) (place : Place)
  | unexpectedLiteral (raw : List Char) (place : Place)
  | unterminated (construct : Construct) (place : Place)
  deriving DecidableEq

namespace OutlineError

/-- The place of the token to blame. -/
def place : OutlineError → Place
  | .unmatchedEnd p | .nested _ _ p | .outsideSuite _ p | .missingDescription _ p
  | .unexpectedLiteral _ p | .unterminated _ p => p

/-- What to say of an error. -/
def message : OutlineError → String
  | .unmatchedEnd p => s!"Unmatched 'end' at {p.text}"
  | .nested k c p => s!"'{k.text}' at {p.text} cannot be nested inside an open {c.text}"
  | .outsideSuite k p => s!"'{k.text}' at {p.text} is outside of a describe block"
  | .missingDescription c p => s!"{c.text} opened at {p.text} has no description"
  | .unexpectedLiteral raw p => s!"Unexpected literal {String.ofList raw} at {p.text}"
  | .unterminated c p => s!"Unterminated {c.text} opened at {p.text}"

end OutlineError

end SpecEngine
