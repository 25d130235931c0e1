import SpecEngine.Run.Lifecycle

/-!
# The bodies of a run

Which bodies a run executes, in which order, and what it does when one of them fails, whatever
executes them.

* `Suite.tasks`: the bodies of a suite in the order of its life;
* `recorded`: an executor that also notes its executions; `runCatalogue_map`: runs do not depend on
  what an executor notes;
* `Cut`: executions of bodies in their order up to the first that fails; `Threaded`: executions
  that hand on an environment;
* `Advances`: what a part of a run does, with `Advances.trans` and `Advances.stop` to put parts
  together; `advances_runHook`, `advances_runSpecs`, `advances_runSuite`: the parts;
* `Visits`: the suites that are entered; `runCatalogue_lifecycle`: a whole run.
-/

namespace SpecEngine

/-! ### Bodies and their executions -/

namespace Suite

/-- The body of a hook, if there is one. -/
def hookTasks (s : Suite) (h : Hook) : List Task :=
  ((s.hook? h).map fun body => ⟨s.description, .hook h, body⟩).toList

/-- The body of a spec between those of the hooks around it. -/
def specTasks (s : Suite) (x : Spec) : List Task :=
  s.hookTasks .beforeEach ++ (⟨s.description, .spec x, x.body⟩ :: s.hookTasks .afterEach)

/-- The bodies of a suite in the order in which they are run. -/
def tasks (s : Suite) : List Task :=
  s.hookTasks .before ++ (s.specs.flatMap s.specTasks ++ s.hookTasks .after)

end Suite

/-- How a run blames a body for what went wrong in it. -/
def Task.blame (t : Task) (e : BodyError) : RunError :=
  match t.phase with
  | .hook h => .hookFailed t.suite h e
  | .spec s => .specFailed t.suite s.description e

/-- The execution of a body: the environment it was given, and what came out. -/
structure Execution where
  task : Task
  given : Environment
  outcome : Body.Outcome

namespace Execution

/-- The error with which a run stops behind an execution. -/
def blame? (x : Execution) : Option RunError :=
  x.outcome.failure?.map x.task.blame

/-- Whether a spec was executed without failing. -/
def finishesSpec (x : Execution) : Bool :=
  match x.task.phase with
  | .hook _ => false
  | .spec _ => x.outcome.failure?.isNone

end Execution

/-- Executions of bodies in their order, up to the first that fails. -/
inductive Cut : List Task → List Execution → Prop
  | done : Cut [] []
  | stop (x : Execution) (ts : List Task) (hx : x.outcome.failure? ≠ none) : Cut (x.task :: ts) [x]
  | next (x : Execution) {ts : List Task} {xs : List Execution} (hx : x.outcome.failure? = none)
      (h : Cut ts xs) : Cut (x.task :: ts) (x :: xs)

/-- Executions each of which is given the environment that the one before it left: the first is
given `env`, the last leaves `env'`. -/
def Threaded (env : Environment) (xs : List Execution) (env' : Environment) : Prop :=
  match xs with
  | [] => env' = env
  | x :: xs => x.given = env ∧ Threaded x.outcome.environment xs env'

theorem blame?_eq_none_iff {xs : List Execution} :
    xs.findSome? Execution.blame? = none ↔ ∀ x ∈ xs, x.outcome.failure? = none := by
  simp [List.findSome?_eq_none_iff, Execution.blame?]

theorem Cut.append {ts us : List Task} {xs ys : List Execution} (h : Cut ts xs)
    (hx : xs.findSome? Execution.blame? = none) (h' : Cut us ys) :
    Cut (ts ++ us) (xs ++ ys) := by
  rw [blame?_eq_none_iff] at hx
  induction h with
  | done => exact h'
  | stop x ts hf => exact absurd (hx x (by simp)) hf
  | next x hf h ih => exact .next x hf (ih fun y hy => hx y (List.mem_cons_of_mem _ hy))

/-- Nothing that follows a failed body is executed. -/
theorem Cut.append_of_failed {ts : List Task} {xs : List Execution} (h : Cut ts xs)
    (hx : xs.findSome? Execution.blame? ≠ none) (us : List Task) : Cut (ts ++ us) xs := by
  induction h with
  | done => exact absurd rfl hx
  | stop x ts hf => exact .stop x (ts ++ us) hf
  | next x hf h ih =>
    refine .next x hf (ih ?_)
    simpa [Execution.blame?, hf] using hx

theorem Threaded.append {env env' env'' : Environment} {xs ys : List Execution}
    (h : Threaded env xs env') (h' : Threaded env' ys env'') : Threaded env (xs ++ ys) env'' := by
  induction xs generalizing env with
  | nil =>
    cases h
    exact h'
  | cons x xs ih => exact ⟨h.1, ih h.2⟩

/-! ### What an executor notes -/

/-- An executor that notes its executions. -/
def recorded {σ : Type} (exec : Executor σ) : Executor (σ × List Execution) :=
  fun s task judge env =>
    let (state, out) := exec s.1 task judge env
    ((state, s.2 ++ [⟨task, env, out⟩]), out)

section

variable {σ τ : Type} (f : τ → σ)

/-- What is handed on, as another executor sees it. -/
def Progress.map (p : Progress τ) : Progress σ :=
  ⟨f p.state, p.environment, p.stats⟩

/-- The run of a suite, as another executor sees it. -/
def SuiteRun.map (run : SuiteRun τ) : SuiteRun σ :=
  ⟨f run.state, run.stats, run.suite, run.failure?⟩

/-- The run of a catalogue, as another executor sees it. -/
def CatalogueRun.map (run : CatalogueRun τ) : CatalogueRun σ :=
  ⟨f run.state, run.stats, run.catalogue, run.failure?⟩

variable {f} {exec : Executor σ} {exec' : Executor τ}
  (hf : ∀ s task judge env, exec (f s) task judge env = Prod.map f id (exec' s task judge env))
  (r : Registry)

include hf

theorem runHook_map (suite : Suite) (h : Hook) (p : Progress τ) :
    runHook exec suite h (p.map f) = Prod.map (Progress.map f) id (runHook exec' suite h p) := by
  unfold runHook
  cases suite.hook? h with
  | none => rfl
  | some body => simp [Progress.map, hf]

theorem runSpec_map (suite : Suite) (s : Spec) (p : Progress τ) :
    runSpec exec r suite s (p.map f) =
      Prod.map (Progress.map f) id (runSpec exec' r suite s p) := by
  unfold runSpec
  simp only [Progress.map, hf]
  rcases exec' p.state ⟨suite.description, .spec s, s.body⟩ r.judge p.environment with ⟨t, out⟩
  simp only [Prod.map, id]
  cases out.failure? <;> rfl

theorem runAround_map (suite : Suite) (s : Spec) (p : Progress τ) :
    runAround exec r suite s (p.map f) =
      Prod.map (Progress.map f) id (runAround exec' r suite s p) := by
  unfold runAround
  rw [runHook_map hf]
  rcases runHook exec' suite .beforeEach p with ⟨p₁, _ | e⟩
  · simp only [Prod.map, id]
    rw [runSpec_map hf]
    rcases runSpec exec' r suite s p₁ with ⟨p₂, s₂, _ | e⟩
    · simp only [Prod.map, id]
      rw [runHook_map hf]
      rfl
    · rfl
  · rfl

theorem runSpecs_map (suite : Suite) (specs : List Spec) (p : Progress τ) :
    runSpecs exec r suite specs (p.map f) =
      Prod.map (Progress.map f) id (runSpecs exec' r suite specs p) := by
  induction specs generalizing p with
  | nil => rfl
  | cons s specs ih =>
    rw [runSpecs, runSpecs, runAround_map hf]
    rcases runAround exec' r suite s p with ⟨p₁, s₁, _ | e⟩
    · simp only [Prod.map, id]
      rw [ih]
      rfl
    · rfl

theorem runSuite_map (suite : Suite) (state : τ) (stats : Stats) :
    runSuite exec r suite (f state) stats = (runSuite exec' r suite state stats).map f := by
  unfold runSuite
  dsimp only
  have hp : (⟨f state, {}, stats⟩ : Progress σ) = Progress.map f ⟨state, {}, stats⟩ := rfl
  rw [hp, runHook_map hf]
  rcases runHook exec' { suite with ran := true } .before ⟨state, {}, stats⟩ with ⟨p₁, _ | e⟩
  · simp only [Prod.map, id]
    rw [runSpecs_map hf]
    rcases runSpecs exec' r { suite with ran := true } suite.specs p₁ with ⟨p₂, specs, _ | e⟩
    · simp only [Prod.map, id]
      rw [runHook_map hf]
      rfl
    · rfl
  · rfl

/-- Executors that differ in what they keep for themselves run suites alike. -/
theorem runCatalogue_map (c : Catalogue) (state : τ) (stats : Stats) :
    runCatalogue exec r c (f state) stats = (runCatalogue exec' r c state stats).map f := by
  induction c generalizing state stats with
  | nil => rfl
  | cons e c ih =>
    obtain ⟨d, suite⟩ := e
    rw [runCatalogue, runCatalogue, runSuite_map hf]
    rcases runSuite exec' r suite state stats with ⟨state₁, stats₁, suite₁, _ | e⟩
    · simp only [SuiteRun.map]
      rw [ih]
      rfl
    · rfl

end

/-! ### Parts of a run -/

/-- Assertions are counted by their outcomes. -/
theorem Stats.countAssertions_eq (t : Stats) (log : List Assertion) :
    t.countAssertions log =
      { t with
        passes := t.passes + log.countP (·.passed)
        failures := t.failures + log.countP (!·.passed) } := by
  induction log generalizing t with
  | nil => rfl
  | cons a log ih =>
    rw [countAssertions, List.foldl_cons, ← countAssertions, ih, countAssertion]
    cases h : a.passed
    · simp [h, Nat.add_assoc, Nat.add_comm 1]
    · simp [h, Nat.add_assoc, Nat.add_comm 1]

variable {σ : Type}

/-- A part of a run that is to execute `ts`: it executes `xs`, which it notes, hands on their
environment, counts their finished specs, and stops with the error `e` of the one that fails. -/
structure Advances (ts : List Task) (p p' : Progress (σ × List Execution)) (e : Option RunError)
    (xs : List Execution) : Prop where
  notes : p'.state.2 = p.state.2 ++ xs
  cut : Cut ts xs
  threaded : Threaded p.environment xs p'.environment
  error : e = xs.findSome? Execution.blame?
  specs : p'.stats.specs = p.stats.specs + xs.countP Execution.finishesSpec

namespace Advances

variable {ts us : List Task} {p p' p'' : Progress (σ × List Execution)} {e : Option RunError}
  {xs ys : List Execution}

theorem refl (p : Progress (σ × List Execution)) : Advances [] p p none [] where
  notes := (List.append_nil _).symm
  cut := .done
  threaded := rfl
  error := rfl
  specs := rfl

/-- A part that does not fail is followed by the next. -/
theorem trans (h : Advances ts p p' none xs) (h' : Advances us p' p'' e ys) :
    Advances (ts ++ us) p p'' e (xs ++ ys) where
  notes := by rw [h'.notes, h.notes, List.append_assoc]
  cut := h.cut.append h.error.symm h'.cut
  threaded := h.threaded.append h'.threaded
  error := by rw [List.findSome?_append, ← h.error, ← h'.error, Option.none_or]
  specs := by rw [h'.specs, h.specs, List.countP_append, Nat.add_assoc]

/-- A part that fails is not followed by anything. -/
theorem stop {e : RunError} (h : Advances ts p p' (some e) xs) (us : List Task) :
    Advances (ts ++ us) p p' (some e) xs where
  notes := h.notes
  cut := h.cut.append_of_failed (h.error ▸ Option.some_ne_none e) us
  threaded := h.threaded
  error := h.error
  specs := h.specs

/-- The execution of one body. -/
theorem single {x : Execution} (hn : p'.state.2 = p.state.2 ++ [x])
    (hg : x.given = p.environment) (he : p'.environment = x.outcome.environment)
    (hs : p'.stats.specs = p.stats.specs + if x.finishesSpec then 1 else 0) :
    Advances [x.task] p p' x.blame? [x] where
  notes := hn
  cut := by
    cases hf : x.outcome.failure? with
    | none => exact .next x hf .done
    | some e => exact .stop x [] (by simp [hf])
  threaded := ⟨hg, he⟩
  error := by cases h : x.blame? <;> simp [h]
  specs := by rw [hs, List.countP_singleton]

end Advances

variable (exec : Executor σ) (r : Registry)

theorem advances_runHook (suite : Suite) (h : Hook) (p : Progress (σ × List Execution)) :
    ∃ xs, Advances (suite.hookTasks h) p (runHook (recorded exec) suite h p).1
      (runHook (recorded exec) suite h p).2 xs := by
  unfold runHook Suite.hookTasks
  cases suite.hook? h with
  | none => exact ⟨[], .refl p⟩
  | some body =>
    let t : Task := ⟨suite.description, .hook h, body⟩
    let x : Execution := ⟨t, p.environment, (exec p.state.1 t (.ofHook h) p.environment).2⟩
    exact ⟨[x], .single (x := x) rfl rfl rfl rfl⟩

theorem advances_runSpec (suite : Suite) (s : Spec) (p : Progress (σ × List Execution)) :
    ∃ xs, Advances [⟨suite.description, .spec s, s.body⟩] p
      (runSpec (recorded exec) r suite s p).1 (runSpec (recorded exec) r suite s p).2.2 xs := by
  let t : Task := ⟨suite.description, .spec s, s.body⟩
  let x : Execution := ⟨t, p.environment, (exec p.state.1 t r.judge p.environment).2⟩
  refine ⟨[x], ?_⟩
  have hx : recorded exec p.state t r.judge p.environment =
      (((exec p.state.1 t r.judge p.environment).1, p.state.2 ++ [x]), x.outcome) := rfl
  have hs : x.finishesSpec = x.outcome.failure?.isNone := rfl
  unfold runSpec
  rw [hx]
  cases hf : x.outcome.failure? with
  | none =>
    have hb : x.blame? = none := by simp [Execution.blame?, hf]
    simp only [hf]
    rw [← hb]
    refine .single (x := x) rfl rfl rfl ?_
    simp [Stats.countSpec, Stats.countAssertions_eq, hs, hf]
  | some e =>
    have hb : x.blame? = some (.specFailed suite.description s.description e) := by
      rw [Execution.blame?, hf]
      rfl
    simp only [hf]
    rw [← hb]
    refine .single (x := x) rfl rfl rfl ?_
    simp [Stats.countAssertions_eq, hs, hf]

theorem advances_runAround (suite : Suite) (s : Spec) (p : Progress (σ × List Execution)) :
    ∃ xs, Advances (suite.specTasks s) p (runAround (recorded exec) r suite s p).1
      (runAround (recorded exec) r suite s p).2.2 xs := by
  unfold runAround Suite.specTasks
  obtain ⟨xs, hx⟩ := advances_runHook exec suite .beforeEach p
  rcases hp : runHook (recorded exec) suite .beforeEach p with ⟨p₁, _ | e⟩
  · rw [hp] at hx
    obtain ⟨ys, hy⟩ := advances_runSpec exec r suite s p₁
    rcases hq : runSpec (recorded exec) r suite s p₁ with ⟨p₂, s₂, _ | e⟩
    · rw [hq] at hy
      obtain ⟨zs, hz⟩ := advances_runHook exec suite .afterEach p₂
      simp only [hq]
      exact ⟨xs ++ (ys ++ zs), hx.trans (hy.trans hz)⟩
    · rw [hq] at hy
      simp only [hq]
      exact ⟨xs ++ ys, hx.trans (hy.stop _)⟩
  · rw [hp] at hx
    exact ⟨xs, hx.stop _⟩

theorem advances_runSpecs (suite : Suite) (specs : List Spec)
    (p : Progress (σ × List Execution)) :
    ∃ xs, Advances (specs.flatMap suite.specTasks) p
      (runSpecs (recorded exec) r suite specs p).1
      (runSpecs (recorded exec) r suite specs p).2.2 xs := by
  induction specs generalizing p with
  | nil => exact ⟨[], .refl p⟩
  | cons s specs ih =>
    obtain ⟨xs, hx⟩ := advances_runAround exec r suite s p
    rw [runSpecs, List.flatMap_cons]
    rcases hp : runAround (recorded exec) r suite s p with ⟨p₁, s₁, _ | e⟩
    · rw [hp] at hx
      obtain ⟨ys, hy⟩ := ih p₁
      exact ⟨xs ++ ys, hx.trans hy⟩
    · rw [hp] at hx
      exact ⟨xs, hx.stop _⟩

/-- A suite executes its bodies up to the first that fails, and they share one environment, which
starts empty. -/
theorem advances_runSuite (suite : Suite) (state : σ) (notes : List Execution) (stats : Stats) :
    ∃ xs p,
      Advances suite.tasks ⟨(state, notes), {}, stats⟩ p
        (runSuite (recorded exec) r suite (state, notes) stats).failure? xs ∧
      p.state = (runSuite (recorded exec) r suite (state, notes) stats).state ∧
      p.stats = (runSuite (recorded exec) r suite (state, notes) stats).stats ∧
      (runSuite (recorded exec) r suite (state, notes) stats).suite.ran = true := by
  unfold runSuite Suite.tasks
  dsimp only
  obtain ⟨xs, hx⟩ := advances_runHook exec { suite with ran := true } .before
    ⟨(state, notes), {}, stats⟩
  rcases hp : runHook (recorded exec) { suite with ran := true } .before
    ⟨(state, notes), {}, stats⟩ with ⟨p₁, _ | e⟩
  · rw [hp] at hx
    obtain ⟨ys, hy⟩ := advances_runSpecs exec r { suite with ran := true } suite.specs p₁
    rcases hq : runSpecs (recorded exec) r { suite with ran := true } suite.specs p₁ with
      ⟨p₂, specs, _ | e⟩
    · rw [hq] at hy
      obtain ⟨zs, hz⟩ := advances_runHook exec { suite with ran := true } .after p₂
      simp only [hq]
      exact ⟨xs ++ (ys ++ zs), _, hx.trans (hy.trans hz), rfl, rfl, trivial⟩
    · rw [hq] at hy
      simp only [hq]
      exact ⟨xs ++ ys, p₂, hx.trans (hy.stop _), rfl, rfl, trivial⟩
  · rw [hp] at hx
    exact ⟨xs, p₁, hx.stop _, rfl, rfl, rfl⟩

/-! ### Whole runs -/

/-- The executions of the suites that are entered, suite by suite: suites are entered in their
order until one of them fails, and each starts with an empty environment. -/
inductive Visits : List Suite → List (List Execution) → Prop
  | done : Visits [] []
  | stop (s : Suite) (later : List Suite) {xs : List Execution} {env : Environment}
      (hc : Cut s.tasks xs) (ht : Threaded {} xs env)
      (hx : ∃ x ∈ xs, x.outcome.failure? ≠ none) : Visits (s :: later) [xs]
  | next (s : Suite) {later : List Suite} {xs : List Execution} {groups : List (List Execution)}
      {env : Environment} (hc : Cut s.tasks xs) (ht : Threaded {} xs env)
      (hx : ∀ x ∈ xs, x.outcome.failure? = none) (h : Visits later groups) :
      Visits (s :: later) (xs :: groups)

/-- The bodies of a run are those of all suites in their order, up to the first that fails. -/
theorem Visits.cut {suites : List Suite} {groups : List (List Execution)}
    (h : Visits suites groups) : Cut (suites.flatMap Suite.tasks) groups.flatten := by
  induction h with
  | done => exact .done
  | stop s later hc ht hx =>
    obtain ⟨x, hm, hf⟩ := hx
    rw [List.flatMap_cons, List.flatten_singleton]
    refine hc.append_of_failed ?_ _
    rw [Ne, blame?_eq_none_iff]
    exact fun h => hf (h x hm)
  | next s hc ht hx h ih => exact hc.append (blame?_eq_none_iff.2 hx) ih

/-- A run with the executions that were noted. -/
def CatalogueRun.noting (run : CatalogueRun σ) (notes : List Execution) :
    CatalogueRun (σ × List Execution) :=
  ⟨(run.state, notes), run.stats, run.catalogue, run.failure?⟩

/-- What there is to say of a run that visits the suites `groups`. -/
structure CatalogueRun.Unfolds (run : CatalogueRun σ) (c : Catalogue) (specs : Nat)
    (groups : List (List Execution)) : Prop where
  visits : Visits c.suites groups
  failure : run.failure? = groups.flatten.findSome? Execution.blame?
  keys : Table.keys run.catalogue = Table.keys c
  ran : run.catalogue.suites.map Suite.ran =
    List.replicate groups.length true ++ (c.suites.drop groups.length).map Suite.ran
  specs : run.stats.specs = specs + groups.flatten.countP Execution.finishesSpec

namespace CatalogueRun.Unfolds

variable {d : String} {suite suite' : Suite} {p p' : Progress (σ × List Execution)}
  {xs : List Execution} {later : Catalogue}

/-- A suite that does not fail is followed by the next. -/
theorem next (ha : Advances suite.tasks p p' none xs) (hp : p.environment = {})
    (hran : suite'.ran = true) {run : CatalogueRun σ} {groups : List (List Execution)}
    (h : run.Unfolds later p'.stats.specs groups) :
    ({ run with catalogue := (d, suite') :: run.catalogue } : CatalogueRun σ).Unfolds
      ((d, suite) :: later) p.stats.specs (xs :: groups) where
  visits := .next suite ha.cut (hp ▸ ha.threaded) (blame?_eq_none_iff.1 ha.error.symm) h.visits
  failure := by
    rw [List.flatten_cons, List.findSome?_append, ← ha.error, Option.none_or]
    exact h.failure
  keys := congrArg (d :: ·) h.keys
  ran := by
    show suite'.ran :: run.catalogue.suites.map Suite.ran = true :: _
    rw [hran, h.ran]
    rfl
  specs := by
    rw [List.flatten_cons, List.countP_append, ← Nat.add_assoc, ← ha.specs]
    exact h.specs

/-- A suite that fails is not followed by anything. -/
theorem stop {e : RunError} (ha : Advances suite.tasks p p' (some e) xs) (hp : p.environment = {})
    (hran : suite'.ran = true) (state : σ) :
    (⟨state, p'.stats, (d, suite') :: later, some e⟩ : CatalogueRun σ).Unfolds
      ((d, suite) :: later) p.stats.specs [xs] where
  visits := by
    -- the error with which the suite stops is that of one of its executions
    refine .stop suite (Catalogue.suites later) ha.cut (hp ▸ ha.threaded) ?_
    obtain ⟨x, hm, hb⟩ := List.exists_of_findSome?_eq_some ha.error.symm
    refine ⟨x, hm, fun hf => ?_⟩
    simp [Execution.blame?, hf] at hb
  failure := by
    rw [List.flatten_singleton]
    exact ha.error
  keys := rfl
  ran := by
    show suite'.ran :: later.suites.map Suite.ran = true :: _
    rw [hran]
    rfl
  specs := by
    rw [List.flatten_singleton]
    exact ha.specs

end CatalogueRun.Unfolds

theorem unfolds_runCatalogue (c : Catalogue) (state : σ) (notes : List Execution) (stats : Stats) :
    ∃ groups,
      (runCatalogue (recorded exec) r c (state, notes) stats).state.2 = notes ++ groups.flatten ∧
      ((runCatalogue (recorded exec) r c (state, notes) stats).map Prod.fst).Unfolds c stats.specs
        groups := by
  induction c generalizing state notes stats with
  | nil => exact ⟨[], by simp [runCatalogue], .done, rfl, rfl, rfl, rfl⟩
  | cons e c ih =>
    obtain ⟨d, suite⟩ := e
    obtain ⟨xs, p, ha, hstate, hstats, hran⟩ := advances_runSuite exec r suite state notes stats
    rw [runCatalogue]
    rcases hs : runSuite (recorded exec) r suite (state, notes) stats with
      ⟨⟨state₁, notes₁⟩, stats₁, suite₁, _ | e⟩
    · rw [hs] at ha hstate hstats hran
      subst hstats
      have hn : notes₁ = notes ++ xs := by rw [← ha.notes, hstate]
      obtain ⟨groups, hl, hv⟩ := ih state₁ notes₁ p.stats
      refine ⟨xs :: groups, ?_, .next ha rfl hran hv⟩
      rw [List.flatten_cons, ← List.append_assoc, ← hn]
      exact hl
    · rw [hs] at ha hstate hstats hran
      subst hstats
      have hn : notes₁ = notes ++ xs := by rw [← ha.notes, hstate]
      refine ⟨[xs], ?_, .stop ha rfl hran state₁⟩
      rw [List.flatten_singleton]
      exact hn

/-- **The life of a run**, whatever executes its bodies: noting the executions changes nothing, and
they are those of the suites in their order, in each suite `before`, the specs between `before_each`
and `after_each`, and `after`, up to the first that fails.  Environments are handed on within a
suite; the run fails as the failed body does; the suites that were entered have been run, and the
specs that did not fail are counted. -/
theorem runCatalogue_lifecycle (c : Catalogue) (state : σ) (stats : Stats) :
    ∃ groups : List (List Execution),
      runCatalogue (recorded exec) r c (state, []) stats =
        (runCatalogue exec r c state stats).noting groups.flatten ∧
      Cut (c.suites.flatMap Suite.tasks) groups.flatten ∧
      (runCatalogue exec r c state stats).Unfolds c stats.specs groups := by
  obtain ⟨groups, hn, hl⟩ := unfolds_runCatalogue exec r c state [] stats
  -- the run itself is the noted run without its notes
  have hm : runCatalogue exec r c state stats =
      (runCatalogue (recorded exec) r c (state, []) stats).map Prod.fst :=
    runCatalogue_map (f := Prod.fst) (fun _ _ _ _ => rfl) r c (state, []) stats
  refine ⟨groups, ?_, hl.visits.cut, ?_⟩
  · rw [hm, CatalogueRun.noting, CatalogueRun.map, ← List.nil_append groups.flatten, ← hn]
  · rw [hm]
    exact hl

end SpecEngine
