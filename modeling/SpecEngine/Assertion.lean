import SpecEngine.Value.Basic

/-!
# Assertions and counts

An assertion is one use of a matcher with its outcome; it never changes once it is made.  The
counts of a run grow by the assertions made and by the specs finished.
-/

namespace SpecEngine

/-- One use of a matcher, its outcome and what to say of it. -/
structure Assertion where
  matcher : String
  actual : Value
  expected : Value
  negate : Bool
  passed : Bool
  message : String

/-- The counts of a run: finished specs, their assertions, and all passes and failures. -/
structure Stats where
  specs : Nat := 0
  assertions : Nat := 0
  passes : Nat := 0
  failures : Nat := 0
  deriving DecidableEq

namespace Stats

/-- The counts after one more assertion. -/
def countAssertion (t : Stats) (a : Assertion) : Stats :=
  if a.passed then { t with passes := t.passes + 1 }
  else { t with failures := t.failures + 1 }

/-- The counts after more assertions. -/
def countAssertions (t : Stats) (log : List Assertion) : Stats :=
  log.foldl countAssertion t

/-- The counts after a finished spec with its assertions. -/
def countSpec (t : Stats) (assertions : Nat) : Stats :=
  { t with specs := t.specs + 1, assertions := t.assertions + assertions }

end Stats

end SpecEngine
