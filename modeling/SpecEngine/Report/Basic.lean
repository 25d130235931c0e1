import SpecEngine.Suite

/-!
# Reports

A report is a picture of suites and counts at one moment.  A spec in it has passed, has failed, or
is pending because it made no assertion.
-/

namespace SpecEngine

/-- How a spec stands. -/
inductive Status
  | passed
  | failed
  | pending
  deriving DecidableEq

/-- A status as reports have it. -/
def Status.text : Status → String
  | .passed => "passed"
  | .failed => "failed"
  | .pending => "pending"

/-- The status of a spec. -/
def Spec.status (s : Spec) : Status :=
  if s.isPending then .pending else if s.passed then .passed else .failed

/-- A spec in a report, with the message of its first failure. -/
structure SpecReport where
  description : String
  status : Status
  assertions : Nat
  failure? : Option String
  deriving DecidableEq

/-- A suite in a report. -/
structure SuiteReport where
  description : String
  ran : Bool
  specs : List SpecReport
  deriving DecidableEq

/-- Reports. -/
structure Report where
  suites : List SuiteReport
  stats : Stats
  deriving DecidableEq

/-- The report on a spec. -/
def Spec.report (s : Spec) : SpecReport :=
  ⟨s.description, s.status, s.assertions.length, s.failure?.map (·.message)⟩

/-- The report on a suite. -/
def Suite.report (s : Suite) : SuiteReport :=
  ⟨s.description, s.ran, s.specs.map Spec.report⟩

namespace Report

/-- The report on a catalogue and counts. -/
def of (c : Catalogue) (stats : Stats) : Report :=
  ⟨c.suites.map Suite.report, stats⟩

/-- The specs of all suites. -/
def specs (r : Report) : List SpecReport :=
  r.suites.flatMap (·.specs)

/-- How many specs are pending. -/
def pending (r : Report) : Nat :=
  r.specs.countP (·.status = .pending)

/-- How many specs have failed. -/
def failed (r : Report) : Nat :=
  r.specs.countP (·.status = .failed)

end Report

end SpecEngine
