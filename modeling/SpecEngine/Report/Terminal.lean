import SpecEngine.Report.Basic

/-!
# Reports for a terminal

One line for each suite that ran, one for each of its specs, and a summary.  Specs that passed can
be left out.
-/

namespace SpecEngine.Terminal

/-- The line of a spec. -/
def specLine (s : SpecReport) : String :=
  match s.status with
  | .passed => s!"pass  {s.description} ({s.assertions})"
  | .pending => "todo  " ++ s.description
  | .failed => s!"FAIL  {s.description} ({s.assertions}): " ++ s.failure?.getD ""

/-- The specs of a suite that are shown. -/
def shown (showPasses : Bool) (s : SuiteReport) : List SpecReport :=
  s.specs.filter fun t => showPasses || t.status ≠ .passed

/-- The lines of a suite, behind which one stays empty. -/
def suiteLines (showPasses : Bool) (s : SuiteReport) : List String :=
  s.description :: ((shown showPasses s).map ("  " ++ specLine ·) ++ [""])

/-- The line of the counts.  Pending specs are counted in all suites, whether they ran or not. -/
def summary (r : Report) : String :=
  let t := r.stats
  s!"Specs: {t.specs}  Assertions: {t.assertions}  Passes: {t.passes}  Failures: {t.failures}" ++
    (if r.pending > 0 then s!"  Pending: {r.pending}" else "")

/-- The lines of a report. -/
def lines (showPasses : Bool) (r : Report) : List String :=
  (r.suites.filter (·.ran)).flatMap (suiteLines showPasses) ++ [summary r]

/-- The text of a report; each line ends with a line feed. -/
def render (showPasses : Bool) (r : Report) : String :=
  String.join ((lines showPasses r).map (· ++ "\n"))

end SpecEngine.Terminal
