import Mathlib.Algebra.GroupWithZero.Nat
import SpecEngine.CommandLine
import SpecEngine.Proofs.Growth

/-!
# The verdict of the command line

The program ends well when no assertion failed, as the engine counts them while the bodies run.  Its
report is made from the assertions that the specs hold in the end.  After one run without an error
on newly loaded files the two agree.

* `Session.Unrun`: sessions in which nothing was run; `unrun_start`, `unrun_loadAll`;
* `ranSpecs`: the specs of the suites that were run; `counts_of_run`: their counts behind a run;
* `Spec.report_failure?`: the text of a failure; `Report.specs_of`, `Report.ranSpecs_of`: reports
  and what they are made from;
* `CommandLine.verdict_agrees`: counts, report and verdict.
-/

namespace SpecEngine

open Session (Operation)

/-! ### Sessions in which nothing was run -/

namespace Session

/-- Nothing was counted, and no suite was run. -/
structure Unrun (s : Session) : Prop where
  stats : s.stats = {}
  suites : ∀ e ∈ s.catalogue, e.2.ran = false ∧ ∀ x ∈ e.2.specs, x.assertions = []

theorem Unrun.held {s : Session} (h : s.Unrun) : held s.catalogue.specs = 0 := by
  refine held_eq_zero_iff.2 fun x hx => ?_
  obtain ⟨t, ht, hx⟩ := List.mem_flatMap.1 hx
  obtain ⟨e, he, rfl⟩ := List.mem_map.1 ht
  exact (h.suites e he).2 x hx

theorem Unrun.held_suite {s : Session} (h : s.Unrun) {d : String} {suite : Suite}
    (hd : s.catalogue.suite? d = some suite) : SpecEngine.held suite.specs = 0 := by
  obtain ⟨u, v, hc, -⟩ := Table.exists_append_of_find? hd
  exact held_eq_zero_iff.2 (h.suites (d, suite) (by simp [hc])).2

theorem unrun_start {config : Config} {sources : Sources} {s : Session}
    (h : start config sources = .ok s) : s.Unrun := by
  obtain ⟨hc, ht⟩ := start_eq h
  refine ⟨ht, fun e he => ?_⟩
  rw [hc] at he
  cases he

theorem unrun_apply {s : Session} (h : s.Unrun) {o : Operation} (ho : o.isRun = false) :
    (s.apply o).1.Unrun := by
  refine ⟨(extends_apply s ho).1.trans h.stats, ?_⟩
  refine forall_suites_apply (P := fun t => t.ran = false ∧ ∀ x ∈ t.specs, x.assertions = [])
    (fun d => ⟨rfl, fun x hx => nomatch hx⟩) (fun t u hu ht => ?_) ho h.suites
  exact ⟨by rw [Suite.absorb_eq]; exact ht.1, Suite.assertions_of_mem_absorb ht.2 hu⟩

/-- Loading files is loading them one by one. -/
theorem applyAll_of_loadAll {files : List String} {s s' : Session}
    (h : s.loadAll files = .ok s') : s.applyAll (files.map .load) = s' := by
  induction files generalizing s with
  | nil =>
    cases h
    rfl
  | cons path files ih =>
    rw [loadAll] at h
    rw [List.map_cons, applyAll, apply]
    cases hp : s.load path with
    | ok s₁ =>
      rw [hp] at h
      exact ih h
    | error e =>
      rw [hp] at h
      cases h

theorem loadAll_of_isOk {files : List String} {s : Session}
    (h : (s.loadAll files).isOk = true) :
    s.loadAll files = .ok (s.applyAll (files.map .load)) := by
  cases hl : s.loadAll files with
  | ok s' => rw [applyAll_of_loadAll hl]
  | error e =>
    rw [hl] at h
    cases h

theorem unrun_loadAll {files : List String} {s s' : Session} (hs : s.Unrun)
    (h : s.loadAll files = .ok s') : s'.Unrun := by
  rw [← applyAll_of_loadAll h]
  clear h
  induction files generalizing s with
  | nil => exact hs
  | cons path files ih => exact ih (unrun_apply hs rfl)

theorem applyAll_append (s : Session) (os os' : List Operation) :
    s.applyAll (os ++ os') = (s.applyAll os).applyAll os' := by
  induction os generalizing s with
  | nil => rfl
  | cons o os ih => exact ih _

end Session

/-! ### One run -/

/-- The specs of the suites that were run. -/
def ranSpecs (c : Catalogue) : List Spec :=
  (c.suites.filter Suite.ran).flatMap Suite.specs

theorem ranSpecs_of_forall {c : Catalogue} (h : ∀ e ∈ c, e.2.ran = true) :
    ranSpecs c = c.specs := by
  have hf : c.suites.filter Suite.ran = c.suites := by
    refine List.filter_eq_self.2 fun s hs => ?_
    obtain ⟨e, he, rfl⟩ := List.mem_map.1 hs
    exact h e he
  rw [ranSpecs, hf, Catalogue.specs]

theorem ranSpecs_of_forall_not {c : Catalogue} (h : ∀ e ∈ c, e.2.ran = false) :
    ranSpecs c = [] := by
  have hf : c.suites.filter Suite.ran = [] := by
    refine List.filter_eq_nil_iff.2 fun s hs => ?_
    obtain ⟨e, he, rfl⟩ := List.mem_map.1 hs
    simp [h e he]
  rw [ranSpecs, hf, List.flatMap_nil]

theorem ranSpecs_append (a b : Catalogue) : ranSpecs (a ++ b) = ranSpecs a ++ ranSpecs b := by
  simp [ranSpecs, Catalogue.suites]

theorem ranSpecs_cons {s : Suite} (hs : s.ran = true) (d : String) (c : Catalogue) :
    ranSpecs ((d, s) :: c) = s.specs ++ ranSpecs c := by
  simp [ranSpecs, Catalogue.suites, hs]

/-- Where no suite was run before, the specs of the first one that is run are all there are. -/
theorem ranSpecs_set {c : Catalogue} {d : String} {s t : Suite} (h : c.suite? d = some s)
    (hc : ∀ e ∈ c, e.2.ran = false) (ht : t.ran = true) :
    ranSpecs (Table.set c d t) = t.specs := by
  obtain ⟨u, v, rfl, hu⟩ := Table.exists_append_of_find? h
  rw [Table.set_append_cons hu, ranSpecs_append, ranSpecs_cons ht,
    ranSpecs_of_forall_not fun e he => hc e (List.mem_append_left _ he),
    ranSpecs_of_forall_not fun e he => hc e (List.mem_append_right _ (List.mem_cons_of_mem _ he)),
    List.nil_append, List.append_nil]

/-- A run without an error, where nothing was run before, counts the specs of the suites that were
run, and all assertions that specs hold. -/
theorem Driven.counts_of_run {σ : Type} {exec : Executor σ} {p p' : Driven σ}
    (hp : p.session.Unrun) {suite? : Option String}
    (h : p.apply exec (.runOf suite?) = (p', none)) :
    p'.stats.specs = (ranSpecs p'.catalogue).length ∧
      p'.stats.assertions = held p'.catalogue.specs := by
  have hspecs : p.stats.specs = 0 := congrArg Stats.specs hp.stats
  have hassertions : p.stats.assertions = 0 := congrArg Stats.assertions hp.stats
  cases suite? with
  | none =>
    obtain ⟨rfl, hf⟩ := Prod.mk.inj h
    rw [Option.map_eq_none_iff] at hf
    obtain ⟨-, ha⟩ := appends_runCatalogue exec p.registry p.catalogue p.state p.stats
    have hn := ha.finished hf
    have ht := (tallies_runCatalogue exec p.registry hf).assertions
    rw [hspecs, Nat.zero_add, ha.specs.length_eq,
      ← ranSpecs_of_forall (ran_runCatalogue exec p.registry hf)] at hn
    rw [hassertions, Nat.zero_add] at ht
    exact ⟨hn, ht⟩
  | some d =>
    rw [Operation.runOf] at h
    cases hd : p.catalogue.suite? d with
    | none =>
      rw [apply_runSuite_unknown exec p hd] at h
      cases h
    | some suite =>
      rw [apply_runSuite exec p hd] at h
      obtain ⟨rfl, hf⟩ := Prod.mk.inj h
      rw [Option.map_eq_none_iff] at hf
      obtain ⟨specs, hs, ha⟩ := appends_runSuite exec p.registry suite p.state p.stats
      have hn := ha.finished hf
      have ht := (tallies_runSuite exec p.registry suite p.state p.stats hf).assertions
      rw [hspecs, Nat.zero_add, ha.specs.length_eq] at hn
      rw [hassertions, Nat.zero_add] at ht
      -- no other suite was run, and none of them holds anything
      have hran := ranSpecs_set hd (fun e he => (hp.suites e he).1)
        (t := (SpecEngine.runSuite exec p.registry suite p.state p.stats).suite) (by rw [hs])
      have hheld := Catalogue.held_set hd
        (SpecEngine.runSuite exec p.registry suite p.state p.stats).suite
      have hall : held p.catalogue.specs = 0 := hp.held
      rw [hp.held_suite hd, hall, Nat.add_zero, Nat.zero_add] at hheld
      refine ⟨?_, ht.trans hheld.symm⟩
      show _ = (ranSpecs (Table.set p.catalogue d _)).length
      rw [hran, hs]
      exact hn

/-! ### Reports -/

namespace Spec

/-- The failure of a spec is the first assertion that did not pass. -/
theorem failure?_eq_some_iff {x : Spec} {a : Assertion} :
    x.failure? = some a ↔ ∃ before later, x.assertions = before ++ a :: later ∧
      (∀ b ∈ before, b.passed = true) ∧ a.passed = false := by
  rw [failure?, List.find?_eq_some_iff_append]
  constructor
  · rintro ⟨ha, before, later, hx, hb⟩
    exact ⟨before, later, hx, by simpa using hb, by simpa using ha⟩
  · rintro ⟨before, later, hx, hb, ha⟩
    exact ⟨by simpa using ha, before, later, hx, by simpa using hb⟩

theorem isSome_failure?_iff {x : Spec} : x.failure?.isSome = true ↔ x.status = .failed := by
  rw [status_eq_failed_iff, failure?, List.find?_isSome]
  simp

end Spec

namespace Report

/-- The specs of the suites that were run. -/
def ranSpecs (r : Report) : List SpecReport :=
  (r.suites.filter (·.ran)).flatMap (·.specs)

theorem specs_of (c : Catalogue) (t : Stats) : (Report.of c t).specs = c.specs.map Spec.report := by
  simp [specs, Report.of, Catalogue.specs, Suite.report, List.flatMap_map, List.map_flatMap]

theorem ranSpecs_of (c : Catalogue) (t : Stats) :
    (Report.of c t).ranSpecs = (SpecEngine.ranSpecs c).map Spec.report := by
  have hf : (c.suites.map Suite.report).filter (·.ran) =
      (c.suites.filter Suite.ran).map Suite.report := List.filter_map
  simp [ranSpecs, Report.of, hf, SpecEngine.ranSpecs, Suite.report, List.flatMap_map,
    List.map_flatMap]

theorem failed_eq_zero_iff (r : Report) : r.failed = 0 ↔ ∀ x ∈ r.specs, x.status ≠ .failed := by
  simp [failed, List.countP_eq_zero]

/-- Every spec stands in one of three ways. -/
theorem length_eq_countP (l : List SpecReport) :
    l.length = l.countP (·.status = .passed) + l.countP (·.status = .failed) +
      l.countP (·.status = .pending) := by
  induction l with
  | nil => rfl
  | cons x l ih =>
    simp only [List.length_cons, List.countP_cons, ih]
    cases x.status <;> simp <;> omega

end Report

/-- The counts of a session and its report agree. -/
structure Session.Agrees (s : Session) : Prop where
  verdict : s.stats.failures = 0 ↔ ∀ x ∈ s.report.specs, x.status ≠ .failed
  failures : s.stats.failures = (assertionsOf s.catalogue.specs).countP (!·.passed)
  passes : s.stats.passes = (assertionsOf s.catalogue.specs).countP (·.passed)
  assertions : s.stats.assertions = (s.report.specs.map (·.assertions)).sum
  specs : s.stats.specs = (ranSpecs s.catalogue).length
  statuses : s.stats.specs = s.report.ranSpecs.countP (·.status = .passed) +
    s.report.ranSpecs.countP (·.status = .failed) + s.report.ranSpecs.countP (·.status = .pending)
  reports : s.report.specs = s.catalogue.specs.map Spec.report
  texts : ∀ x ∈ s.catalogue.specs,
    (x.report.failure?.isSome = true ↔ x.report.status = .failed) ∧
      ∀ text, x.report.failure? = some text ↔ ∃ before a later,
        x.assertions = before ++ a :: later ∧ (∀ b ∈ before, b.passed = true) ∧
          a.passed = false ∧ a.message = text

theorem Session.agrees_of_counts {s : Session}
    (hp : s.stats.passes = (assertionsOf s.catalogue.specs).countP (·.passed))
    (hf : s.stats.failures = (assertionsOf s.catalogue.specs).countP (!·.passed))
    (hn : s.stats.specs = (ranSpecs s.catalogue).length)
    (ha : s.stats.assertions = held s.catalogue.specs) : s.Agrees where
  verdict := by
    have hr : (∀ x ∈ s.report.specs, x.status ≠ .failed) ↔
        ∀ x ∈ s.catalogue.specs, x.status ≠ .failed := by
      simp [report, Report.specs_of, Spec.report]
    rw [hr, hf, List.countP_eq_zero]
    constructor
    · intro h x hx hs
      obtain ⟨a, ha, hpassed⟩ := Spec.status_eq_failed_iff.1 hs
      have := h a (List.mem_flatMap.2 ⟨x, hx, ha⟩)
      simp [hpassed] at this
    · intro h a ha hpassed
      obtain ⟨x, hx, ha⟩ := List.mem_flatMap.1 ha
      exact h x hx (Spec.status_eq_failed_iff.2 ⟨a, ha, by simpa using hpassed⟩)
  failures := hf
  passes := hp
  assertions := by
    rw [ha, report, Report.specs_of]
    induction s.catalogue.specs with
    | nil => rfl
    | cons x l ih =>
      rw [held_cons, ih]
      rfl
  specs := hn
  statuses := by
    rw [hn, report, Report.ranSpecs_of, ← Report.length_eq_countP, List.length_map]
  reports := Report.specs_of _ _
  texts x _ := by
    refine ⟨?_, fun text => ?_⟩
    · rw [Spec.report, Option.isSome_map]
      exact Spec.isSome_failure?_iff
    · rw [Spec.report, Option.map_eq_some_iff]
      constructor
      · rintro ⟨a, hx, rfl⟩
        obtain ⟨before, later, hx, hb, hpassed⟩ := Spec.failure?_eq_some_iff.1 hx
        exact ⟨before, a, later, hx, hb, hpassed, rfl⟩
      · rintro ⟨before, a, later, hx, hb, hpassed, rfl⟩
        exact ⟨a, Spec.failure?_eq_some_iff.2 ⟨before, later, hx, hb, hpassed⟩, rfl⟩

namespace CommandLine

theorem runSession_eq (a : Arguments) (s : Session) :
    runSession a s = s.apply (.runOf (Table.find? a.settings .suite)) := by
  rw [runSession]
  cases Table.find? a.settings .suite <;> rfl

/-- What the program does when nothing fails. -/
theorem execute_of_ok {arguments : List String} {find : Files} {a : Arguments} {s s' : Session}
    (ha : Arguments.read arguments = .ok a) (hs : prepare a find = .ok s)
    (h : runSession a s = (s', none)) :
    execute arguments find =
      { exit := if s'.stats.failures = 0 then 0 else 1, stdout := s'.render ++ "\n" } := by
  simp only [execute, ha, hs, h]

/-- **The verdict of the command line agrees with its report.**  When a session is started with any
configuration, files are loaded, and all suites or one of them are run, all without an error, then
no assertion failed if and only if no spec of the report failed; the counts are those of the
assertions that the specs hold and of the specs that were run; each spec that failed is reported
with the message of its first assertion that did not pass.  A program that is called for this prints
this report, and it ends well if and only if no spec of the report failed. -/
theorem verdict_agrees {config : Config} {sources : Sources} {files : List String}
    {suite? : Option String} {s₀ s s' : Session}
    (hstart : Session.start config sources = .ok s₀) (hload : s₀.loadAll files = .ok s)
    (hrun : s.apply (.runOf suite?) = (s', none)) :
    s'.Agrees ∧
      ∀ arguments find a, Arguments.read arguments = .ok a → prepare a find = .ok s →
        Table.find? a.settings .suite = suite? →
          (execute arguments find).exit = (if s'.report.failed = 0 then 0 else 1) ∧
            (execute arguments find).stdout = s'.render ++ "\n" := by
  have hunrun : s.Unrun := Session.unrun_loadAll (Session.unrun_start hstart) hload
  have hdriven : (⟨s, ()⟩ : Driven Unit).apply interpreter (.runOf suite?) = (⟨s', ()⟩, none) := by
    rw [Driven.apply_interpreter, hrun]
  have hreach : (⟨s', ()⟩ : Driven Unit).Reachable interpreter := by
    refine ⟨config, sources, s₀, (), files.map .load ++ [.runOf suite?], hstart, ?_⟩
    rw [Driven.applyAll_interpreter, Session.applyAll_append, Session.applyAll_of_loadAll hload,
      Session.applyAll, Session.applyAll, hrun]
  obtain ⟨hspecs, hassertions⟩ := Driven.counts_of_run hunrun hdriven
  have hagrees : s'.Agrees :=
    Session.agrees_of_counts hreach.counts.1 hreach.counts.2 hspecs hassertions
  refine ⟨hagrees, fun arguments find a ha hs hsuite => ?_⟩
  rw [execute_of_ok ha hs (by rw [runSession_eq, hsuite, hrun])]
  refine ⟨?_, rfl⟩
  simp only [hagrees.verdict, Report.failed_eq_zero_iff]

/-- One of two suites is run, which stands in both files and has a spec that fails, one that passes
and one without assertions. -/
theorem verdict_agrees_suite :
    let arguments := ["--suite=a", "x.spec", "y.spec"]
    let find : Files := Table.find? [
      ("x.spec", .file "describe 'a' it 'b' 1.should_eql 2 end it 'c' end end"),
      ("y.spec", .file "describe 'd' it 'e' end end describe 'a' it 'f' 3.should_eql 3 end end")]
    let s₀ : Session := ⟨[], ⟨Standard.registry, {}⟩, .files find, .terminal true⟩
    let s := s₀.applyAll [.load "x.spec", .load "y.spec"]
    let s' := (s.apply (.runSuite "a")).1
    Session.start {} (.files find) = .ok s₀ ∧ s₀.loadAll ["x.spec", "y.spec"] = .ok s ∧
      s.apply (.runOf (some "a")) = (s', none) ∧ s'.Agrees ∧ s'.stats = ⟨3, 2, 1, 1⟩ ∧
      (execute arguments find).exit = 1 := by
  intro arguments find s₀ s s'
  have hstart : Session.start {} (.files find) = .ok s₀ := rfl
  have hload : s₀.loadAll ["x.spec", "y.spec"] = .ok s := by
    refine Session.loadAll_of_isOk ?_
    unfold s₀ find
    decide +kernel
  obtain ⟨hnone, hstats⟩ : (s.apply (.runSuite "a")).2 = none ∧ s'.stats = ⟨3, 2, 1, 1⟩ := by
    unfold s' s s₀ find
    decide +kernel
  have hrun : s.apply (.runOf (some "a")) = (s', none) := Prod.ext rfl hnone
  let a : Arguments := { files := ["x.spec", "y.spec"], settings := [(.suite, "a")] }
  have ha : Arguments.read arguments = .ok a := by
    unfold arguments
    rfl
  have hprepare : prepare a find = .ok s := hload
  obtain ⟨hagrees, hcommand⟩ := verdict_agrees hstart hload hrun
  obtain ⟨hexit, -⟩ := hcommand arguments find a ha hprepare rfl
  refine ⟨hstart, hload, hrun, hagrees, hstats, ?_⟩
  rw [hexit, if_neg]
  rw [Report.failed_eq_zero_iff, ← hagrees.verdict, hstats]
  decide

end CommandLine

end SpecEngine
