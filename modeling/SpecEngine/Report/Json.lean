import SpecEngine.Json.Writer
import SpecEngine.Report.Basic

/-!
# Reports as JSON

All suites with all specs, and the counts.  A spec without a failure has no field for it.
-/

namespace SpecEngine

open Json

/-- The report on a spec as a tree, without a message if nothing failed. -/
def SpecReport.tree (s : SpecReport) : Tree :=
  .ofFields ([("description", .ofString s.description), ("status", .ofString s.status.text),
    ("assertions", .ofNat s.assertions)] ++
    s.failure?.toList.map fun message => ("failure", .ofString message))

/-- The report on a suite as a tree. -/
def SuiteReport.tree (s : SuiteReport) : Tree :=
  .ofFields [("description", .ofString s.description), ("ran", .bool s.ran),
    ("specs", .array (s.specs.map SpecReport.tree))]

/-- Counts as a tree. -/
def Stats.tree (t : Stats) : Tree :=
  .ofFields [("specs", .ofNat t.specs), ("assertions", .ofNat t.assertions),
    ("passes", .ofNat t.passes), ("failures", .ofNat t.failures)]

/-- A report as a tree. -/
def Report.tree (r : Report) : Tree :=
  .ofFields [("suites", .array (r.suites.map SuiteReport.tree)), ("stats", r.stats.tree)]

end SpecEngine
