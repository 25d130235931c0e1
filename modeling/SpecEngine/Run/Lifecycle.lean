import SpecEngine.Engine
import SpecEngine.Run.Error

/-!
# Running suites

A suite runs its hook `before`, then each spec between the hooks `before_each` and `after_each`,
then its hook `after`.  The bodies of one suite share an environment, which starts empty; nothing
passes from one suite to another.  The first body that fails stops the run where it is.

* `Task`, `Executor`: a body that is to be run, and what runs it;
* `Progress`: what is handed on from body to body;
* `runSuite`, `runCatalogue`.
-/

namespace SpecEngine

/-- What a body belongs to. -/
inductive Phase
  | hook (h : Hook)
  | spec (s : Spec)

/-- A body that is to be run. -/
structure Task where
  suite : String
  phase : Phase
  body : String

/-- What runs bodies.  It keeps a state of its own, gets a judge for assertions and the environment
of the suite, and gives back the environment, the assertions made, and how the body failed. -/
abbrev Executor (σ : Type) := σ → Task → Judge → Environment → σ × Body.Outcome

/-- Runs bodies by evaluating them. -/
def interpreter : Executor Unit := fun _ task judge env => ((), Body.run judge task.body env)

/-- What is handed on from body to body: the state of the executor, the environment of the suite,
and the counts. -/
structure Progress (σ : Type) where
  state : σ
  environment : Environment
  stats : Stats

section

variable {σ : Type} (exec : Executor σ) (r : Registry)

/-- Runs a hook of a suite, if the suite has it. -/
def runHook (suite : Suite) (h : Hook) (p : Progress σ) : Progress σ × Option RunError :=
  match suite.hook? h with
  | none => (p, none)
  | some body =>
    let (state, out) := exec p.state ⟨suite.description, .hook h, body⟩ (.ofHook h) p.environment
    ({ p with state, environment := out.environment },
      out.failure?.map (.hookFailed suite.description h))

/-- Runs a spec by itself.  Its assertions are kept and counted in any case; the spec is counted
when its body does not fail. -/
def runSpec (suite : Suite) (s : Spec) (p : Progress σ) : Progress σ × Spec × Option RunError :=
  let (state, out) := exec p.state ⟨suite.description, .spec s, s.body⟩ r.judge p.environment
  let s' := s.record out.log
  let stats := p.stats.countAssertions out.log
  match out.failure? with
  | some e =>
    (⟨state, out.environment, stats⟩, s', some (.specFailed suite.description s.description e))
  | none => (⟨state, out.environment, stats.countSpec s'.assertions.length⟩, s', none)

/-- Runs a spec between the hooks around it. -/
def runAround (suite : Suite) (s : Spec) (p : Progress σ) :
    Progress σ × Spec × Option RunError :=
  match runHook exec suite .beforeEach p with
  | (p, some e) => (p, s, some e)
  | (p, none) =>
    match runSpec exec r suite s p with
    | (p, s, some e) => (p, s, some e)
    | (p, s, none) =>
      let (p, e) := runHook exec suite .afterEach p
      (p, s, e)

/-- Runs specs up to the first failure. -/
def runSpecs (suite : Suite) : List Spec → Progress σ → Progress σ × List Spec × Option RunError
  | [], p => (p, [], none)
  | s :: rest, p =>
    match runAround exec r suite s p with
    | (p, s, some e) => (p, s :: rest, some e)
    | (p, s, none) =>
      let (p, rest, e) := runSpecs suite rest p
      (p, s :: rest, e)

/-- What running a suite leaves behind. -/
structure SuiteRun (σ : Type) where
  state : σ
  stats : Stats
  suite : Suite
  failure? : Option RunError

/-- Runs a suite. -/
def runSuite (suite : Suite) (state : σ) (stats : Stats) : SuiteRun σ :=
  let suite := { suite with ran := true }
  match runHook exec suite .before ⟨state, {}, stats⟩ with
  | (p, some e) => ⟨p.state, p.stats, suite, some e⟩
  | (p, none) =>
    match runSpecs exec r suite suite.specs p with
    | (p, specs, some e) => ⟨p.state, p.stats, { suite with specs }, some e⟩
    | (p, specs, none) =>
      let (p, e) := runHook exec suite .after p
      ⟨p.state, p.stats, { suite with specs }, e⟩

/-- What running suites leaves behind. -/
structure CatalogueRun (σ : Type) where
  state : σ
  stats : Stats
  catalogue : Catalogue
  failure? : Option RunError

/-- Runs suites in their order, up to the first failure. -/
def runCatalogue : Catalogue → σ → Stats → CatalogueRun σ
  | [], state, stats => ⟨state, stats, [], none⟩
  | (description, suite) :: rest, state, stats =>
    match runSuite exec r suite state stats with
    | ⟨state, stats, suite, some e⟩ => ⟨state, stats, (description, suite) :: rest, some e⟩
    | ⟨state, stats, suite, none⟩ =>
      let later := runCatalogue rest state stats
      { later with catalogue := (description, suite) :: later.catalogue }

end

end SpecEngine
