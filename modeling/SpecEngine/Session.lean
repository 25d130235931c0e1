import SpecEngine.Config
import SpecEngine.Outline.Reader
import SpecEngine.Run.Lifecycle
import SpecEngine.Source

/-!
# Sessions

A session collects suites from spec files, runs them, and reports on them.  An operation that
fails says why, and leaves behind only what it did before it failed.

* `Session.start`: a session for a configuration;
* `parse`, `load`, `run`, `runSuite`, `addMatchers`, `register`, `report`, `render`.
-/

namespace SpecEngine

/-- The causes for which an operation of a session fails. -/
inductive SessionError
  | outline (e : OutlineError)
  | matcher (e : MatcherError)
  | run (e : RunError)
  | format (name : String)
  | load (e : LoadError)
  | config (e : ConfigError)
  deriving DecidableEq

namespace SessionError

/-- What to say of an error, without the name of the program. -/
def cause : SessionError → String
  | .outline e => e.message
  | .matcher e => e.message
  | .run e => e.message
  | .format name => Format.unavailable name
  | .load e => e.message
  | .config .missing => "failed to open config file"
  | .config .malformed => "failed to parse config file"

/-- What to say of an error. -/
def message (e : SessionError) : String :=
  "speckle: " ++ e.cause

/-- The error of a matcher, if that is what is behind it. -/
def matcher? : SessionError → Option MatcherError
  | .matcher e => some e
  | .run e => e.matcher?
  | _ => none

end SessionError

/-- Sessions. -/
structure Session where
  catalogue : Catalogue := []
  engine : Engine
  sources : Sources := .memory []
  renderer : Renderer

namespace Session

/-- A session with the standard matchers and those of a configuration. -/
def start (c : Config) (sources : Sources) : Except SessionError Session :=
  match Standard.registry.extend c.matchers with
  | (_, some e) => .error (.matcher e)
  | (registry, none) =>
    .ok { engine := { registry }, sources, renderer := c.format.renderer c.showPasses }

/-- Adds the suites of a spec file. -/
def parse (s : Session) (source : String) : Except SessionError Session :=
  match Outline.read source.toList with
  | .ok c => .ok { s with catalogue := s.catalogue.merge c }
  | .error e => .error (.outline e)

/-- Adds the suites of the spec file at a path. -/
def load (s : Session) (path : String) : Except SessionError Session :=
  match s.sources.load path with
  | .ok source => s.parse source
  | .error e => .error (.load e)

/-- Adds the suites of spec files, up to the first that fails. -/
def loadAll (s : Session) : List String → Except SessionError Session
  | [] => .ok s
  | path :: rest =>
    match s.load path with
    | .ok s => s.loadAll rest
    | .error e => .error e

/-- Runs all suites. -/
def run (s : Session) : Session × Option SessionError :=
  let r := runCatalogue interpreter s.engine.registry s.catalogue () s.engine.stats
  ({ s with catalogue := r.catalogue, engine := { s.engine with stats := r.stats } },
    r.failure?.map .run)

/-- Runs the suite with a description. -/
def runSuite (s : Session) (description : String) : Session × Option SessionError :=
  match s.catalogue.suite? description with
  | none => (s, some (.run (.unknownSuite description)))
  | some suite =>
    let r := SpecEngine.runSuite interpreter s.engine.registry suite () s.engine.stats
    ({ s with
        catalogue := Table.set s.catalogue description r.suite
        engine := { s.engine with stats := r.stats } },
      r.failure?.map .run)

/-- Registers definitions one after the other, up to the first that is refused. -/
def addMatchers (s : Session) (definitions : List (String × String)) :
    Session × Option SessionError :=
  let (registry, e) := s.engine.registry.extend definitions
  ({ s with engine := { s.engine with registry } }, e.map .matcher)

/-- Registers a definition. -/
def register (s : Session) (name : String) (d : Definition) : Except SessionError Session :=
  match s.engine.registry.register name d with
  | .ok registry => .ok { s with engine := { s.engine with registry } }
  | .error e => .error (.matcher e)

/-- The counters of a session. -/
def stats (s : Session) : Stats := s.engine.stats

/-- The report on a session. -/
def report (s : Session) : Report := .of s.catalogue s.stats

/-- The report on a session, in its format. -/
def render (s : Session) : String := s.renderer.render s.report

end Session

end SpecEngine
