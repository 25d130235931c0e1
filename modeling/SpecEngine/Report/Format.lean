import SpecEngine.Report.Json
import SpecEngine.Report.Terminal

/-!
# Formats of reports

The formats by their names, and what a session needs to know to render a report.
-/

namespace SpecEngine

/-- Formats by name. -/
inductive Format
  | terminal
  | json
  deriving DecidableEq

namespace Format

/-- The name of a format. -/
def text : Format → String
  | .terminal => "terminal"
  | .json => "json"

/-- All formats. -/
def all : List Format := [.terminal, .json]

/-- The format of a name. -/
def ofText? (s : String) : Option Format :=
  all.find? fun f => f.text = s

@[simp] theorem ofText?_text (f : Format) : ofText? f.text = some f := by
  cases f <;> decide

end Format

/-- What is said of a format that there is not. -/
def Format.unavailable (name : String) : String :=
  "formatter '" ++ name ++ "' is not available"

/-- How reports are rendered. -/
inductive Renderer
  | terminal (showPasses : Bool)
  | json (layout : Json.Layout)

namespace Renderer

/-- Renders a report. -/
def render (f : Renderer) (r : Report) : String :=
  match f with
  | .terminal showPasses => Terminal.render showPasses r
  | .json layout => r.tree.text layout

end Renderer

/-- The renderer of a format. -/
def Format.renderer (f : Format) (showPasses : Bool) : Renderer :=
  match f with
  | .terminal => .terminal showPasses
  | .json => .json .pretty

end SpecEngine
