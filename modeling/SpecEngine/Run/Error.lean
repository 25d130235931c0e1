import SpecEngine.Body.Error

/-!
# Errors of runs

A run stops at the first body that fails, and it cannot start on a suite that is not there.
-/

namespace SpecEngine

/-- The causes for which a run stops. -/
inductive RunError
  | hookFailed (suite : String) (hook : Hook) (cause : BodyError)
  | specFailed (suite spec : String) (cause : BodyError)
  | unknownSuite (description : String)
  deriving DecidableEq

namespace RunError

/-- What to say of an error. -/
def message : RunError → String
  | .hookFailed suite hook cause =>
    "Error in hook '" ++ hook.text ++ "', suite '" ++ suite ++ "': " ++ cause.message
  | .specFailed suite spec cause =>
    "Error in spec '" ++ spec ++ "', suite '" ++ suite ++ "': " ++ cause.message
  | .unknownSuite description => "no suite described as '" ++ description ++ "'"

/-- The error of a matcher, if that is why the run stopped. -/
def matcher? : RunError → Option MatcherError
  | .hookFailed _ _ cause | .specFailed _ _ cause => cause.matcher?
  | .unknownSuite _ => none

end RunError

end SpecEngine
