import SpecEngine.Body.Reader
import SpecEngine.Matcher.Error
import SpecEngine.Outline.Keyword

/-!
# Errors of bodies

A body fails when it cannot be read, when it says so itself, or when a part of it cannot be
evaluated.
-/

namespace SpecEngine

/-- The causes for which a body fails. -/
inductive BodyError
  | malformed (fault : Body.Malformed)
  | raised (message : String)
  | unknownName (name : String)
  | notCallable (text : String)
  | assertionInHook (hook : Hook)
  | assertionInCallable
  | matcher (e : MatcherError)
  deriving DecidableEq

namespace BodyError

/-- What to say of an error. -/
def message : BodyError → String
  | .malformed m => s!"syntax error on line {m.line}: unexpected input '{m.excerpt}'"
  | .raised text => text
  | .unknownName name => "'" ++ name ++ "' is not defined"
  | .notCallable text => text ++ " is not a function"
  | .assertionInHook h => "assertions are not allowed in the '" ++ h.text ++ "' hook"
  | .assertionInCallable => "assertions are not allowed inside callables"
  | .matcher e => e.message

/-- The error of a matcher, if that is why the body failed. -/
def matcher? : BodyError → Option MatcherError
  | .matcher e => some e
  | _ => none

end BodyError

end SpecEngine
