import SpecEngine.Proofs.Verdict
import SpecEngine.Report.Terminal

/-!
# The listing of a report

A report for a terminal has a line for each spec of the suites that were run, which begins with a
mark, and at its end a line of counts.  The listing leaves out the suites that were not run, and the
line of counts does not, so the two differ by the specs of these.

* `Report.unrunSpecs`: the specs of the suites that were not run; `countP_specs`: these and the
  others are all specs; `Driven.Reachable.pending_of_unrun`: they are pending;
* `mark`, `marked`: how the lines of specs begin; `marked_specLine`;
* `specLines`, `listed`: the lines of specs; `lines_eq`: the other lines around them;
  `filter_marked_listed`: the lines with a mark are those of the specs that stand so;
* `counts`, `pendingNote`: the line of counts, taken apart; `summary_eq_iff`: the number in it;
* `summary_agrees`: the listing and the line of counts; `summary_counts_unrun`: where they differ.
-/

namespace SpecEngine

open Session (Operation)

/-! ### Suites that were not run -/

namespace Report

/-- The specs of the suites that were not run. -/
def unrunSpecs (r : Report) : List SpecReport :=
  (r.suites.filter (!·.ran)).flatMap (·.specs)

/-- Each spec is counted with the suites that were run or with the others. -/
theorem countP_specs (r : Report) (f : SpecReport → Bool) :
    r.specs.countP f = r.ranSpecs.countP f + r.unrunSpecs.countP f := by
  rw [specs, ranSpecs, unrunSpecs]
  induction r.suites with
  | nil => rfl
  | cons s suites ih =>
    rw [List.flatMap_cons, List.countP_append, ih]
    cases hs : s.ran with
    | true =>
      rw [List.filter_cons_of_pos hs, List.filter_cons_of_neg (by simp [hs]), List.flatMap_cons,
        List.countP_append, Nat.add_assoc]
    | false =>
      rw [List.filter_cons_of_neg (by simp [hs]), List.filter_cons_of_pos (by simp [hs]),
        List.flatMap_cons, List.countP_append]
      omega

theorem mem_unrunSpecs_of {c : Catalogue} {t : Stats} {x : SpecReport} :
    x ∈ (Report.of c t).unrunSpecs ↔
      ∃ e ∈ c, e.2.ran = false ∧ ∃ y ∈ e.2.specs, y.report = x := by
  simp [unrunSpecs, Report.of, Catalogue.suites, Suite.report, and_assoc]

end Report

/-- A spec without assertions is pending. -/
theorem Spec.status_of_assertions {x : Spec} (h : x.assertions = []) : x.status = .pending := by
  simp [status, isPending, h]

/-- The specs of suites that were not run are pending, whatever was done before. -/
theorem Driven.Reachable.pending_of_unrun {σ : Type} {exec : Executor σ} {p : Driven σ}
    (hp : p.Reachable exec) : ∀ x ∈ p.session.report.unrunSpecs, x.status = .pending := by
  intro x hx
  obtain ⟨e, he, hr, y, hy, rfl⟩ := Report.mem_unrunSpecs_of.1 hx
  exact Spec.status_of_assertions (hp.settled e he hr y hy)

namespace Terminal

/-! ### Lines of specs -/

/-- What the line of a spec begins with. -/
def mark : Status → String
  | .passed => "pass  "
  | .pending => "todo  "
  | .failed => "FAIL  "

/-- A line begins with a mark. -/
def marked (m : Status) (line : String) : Bool :=
  (mark m).toList.isPrefixOf line.toList

theorem exists_specLine (x : SpecReport) : ∃ text, specLine x = mark x.status ++ text := by
  unfold specLine
  cases x.status with
  | passed => exact ⟨_, by simp only [String.append_assoc]; rfl⟩
  | pending => exact ⟨_, rfl⟩
  | failed => exact ⟨_, by simp only [String.append_assoc]; rfl⟩

/-- The line of a spec begins with the mark of its status and with no other. -/
theorem marked_specLine (m : Status) (x : SpecReport) :
    marked m (specLine x) = decide (x.status = m) := by
  obtain ⟨text, hx⟩ := exists_specLine x
  rw [marked, hx, String.toList_append]
  cases m <;> cases x.status <;> simp [mark, List.isPrefixOf]

/-- The lines of the specs of a suite. -/
def specLines (showPasses : Bool) (s : SuiteReport) : List String :=
  (shown showPasses s).map specLine

/-- The lines of specs in the report. -/
def listed (showPasses : Bool) (r : Report) : List String :=
  (r.suites.filter (·.ran)).flatMap (specLines showPasses)

/-- The lines of a report are those of specs, each set in below the description of its suite and
before an empty line, and the line of counts. -/
theorem lines_eq (showPasses : Bool) (r : Report) :
    lines showPasses r =
      (r.suites.filter (·.ran)).flatMap
          (fun s => s.description :: ((specLines showPasses s).map ("  " ++ ·) ++ [""])) ++
        [summary r] := by
  have hs : suiteLines showPasses =
      fun s => s.description :: ((specLines showPasses s).map ("  " ++ ·) ++ [""]) := by
    funext s
    simp only [suiteLines, specLines, List.map_map, Function.comp_def]
  rw [lines, hs]

theorem filter_marked_specLines {m : Status} (hm : m ≠ .passed) (showPasses : Bool)
    (s : SuiteReport) :
    (specLines showPasses s).filter (marked m) =
      (s.specs.filter (·.status = m)).map specLine := by
  rw [specLines, List.filter_map, shown, List.filter_filter]
  congr 1
  refine List.filter_congr fun x _ => ?_
  rw [Function.comp_apply, marked_specLine]
  by_cases hx : x.status = m
  · simp [hx, hm]
  · simp [hx]

/-- The lines with a mark are those of the specs that stand so and whose suites were run. -/
theorem filter_marked_listed {m : Status} (hm : m ≠ .passed) (showPasses : Bool) (r : Report) :
    (listed showPasses r).filter (marked m) =
      (r.ranSpecs.filter (·.status = m)).map specLine := by
  rw [listed, Report.ranSpecs, List.filter_flatMap, List.filter_flatMap, List.map_flatMap]
  simp only [filter_marked_specLines hm]

theorem countP_marked_listed {m : Status} (hm : m ≠ .passed) (showPasses : Bool) (r : Report) :
    (listed showPasses r).countP (marked m) = r.ranSpecs.countP (·.status = m) := by
  rw [List.countP_eq_length_filter, filter_marked_listed hm, List.length_map,
    ← List.countP_eq_length_filter]

/-! ### The line of counts -/

/-- The counts in their line. -/
def counts (t : Stats) : String :=
  s!"Specs: {t.specs}  Assertions: {t.assertions}  Passes: {t.passes}  Failures: {t.failures}"

/-- The number of pending specs in the line of counts, where zero is not written. -/
def pendingNote (n : Nat) : String :=
  if n > 0 then s!"  Pending: {n}" else ""

theorem pendingNote_inj {m n : Nat} : pendingNote m = pendingNote n ↔ m = n := by
  refine ⟨fun h => ?_, congrArg pendingNote⟩
  have hne : ∀ k : Nat, s!"  Pending: {k}" ≠ "" := fun k hk =>
    absurd (String.append_eq_empty_iff.1 hk).1 (by decide)
  unfold pendingNote at h
  split at h <;> split at h
  · have hdigits := (String.append_right_inj _).1 h
    rw [Nat.toString_eq_ofList_toDigits, Nat.toString_eq_ofList_toDigits,
      String.ofList_inj] at hdigits
    rw [← Nat.ofDigitChars_ten_toDigits (n := m), hdigits, Nat.ofDigitChars_ten_toDigits]
  · exact absurd h (hne m)
  · exact absurd h.symm (hne n)
  · omega

/-- The number that is written in the line of counts is that of all pending specs. -/
theorem summary_eq_iff {r : Report} {n : Nat} :
    summary r = counts r.stats ++ pendingNote n ↔ n = r.pending := by
  have hr : summary r = counts r.stats ++ pendingNote r.pending := rfl
  rw [hr, String.append_right_inj, pendingNote_inj, eq_comm]

/-- **The line of counts agrees with the listing above it, but for the suites that were not run.**
Whatever was done to a session, and whatever runs its bodies, the listing has a line marked as
pending for each pending spec of the suites that were run.  All specs of the other suites are
pending, and the number in the line of counts is greater by the number of these; so it is the
number of the lines if and only if no suite was left out that has a spec.  The failed specs of the
report are those of the lines marked as failed. -/
theorem summary_agrees {σ : Type} {exec : Executor σ} {p : Driven σ} (hp : p.Reachable exec)
    (showPasses : Bool) :
    let r := p.session.report
    let todo := (listed showPasses r).countP (marked .pending)
    lines showPasses r =
        (r.suites.filter (·.ran)).flatMap
            (fun s => s.description :: ((specLines showPasses s).map ("  " ++ ·) ++ [""])) ++
          [summary r] ∧
      todo = r.ranSpecs.countP (·.status = .pending) ∧
      (∀ x ∈ r.unrunSpecs, x.status = .pending) ∧
      (∀ n, summary r = counts r.stats ++ pendingNote n ↔ n = todo + r.unrunSpecs.length) ∧
      (summary r = counts r.stats ++ pendingNote todo ↔
        ∀ s ∈ r.suites, s.ran = false → s.specs = []) ∧
      r.failed = (listed showPasses r).countP (marked .failed) := by
  intro r todo
  have htodo : todo = r.ranSpecs.countP (·.status = .pending) :=
    countP_marked_listed (by decide) showPasses r
  have hunrun : ∀ x ∈ r.unrunSpecs, x.status = .pending := hp.pending_of_unrun
  have hpending : r.pending = todo + r.unrunSpecs.length := by
    rw [Report.pending, Report.countP_specs, htodo,
      List.countP_eq_length.2 fun x hx => decide_eq_true (hunrun x hx)]
  have hnumber : ∀ n, summary r = counts r.stats ++ pendingNote n ↔
      n = todo + r.unrunSpecs.length := by
    intro n
    rw [summary_eq_iff, hpending]
  have hfailed : r.unrunSpecs.countP (·.status = .failed) = 0 :=
    List.countP_eq_zero.2 fun x hx => by simp [hunrun x hx]
  refine ⟨lines_eq showPasses r, htodo, hunrun, hnumber, ?_, ?_⟩
  · rw [hnumber, Nat.left_eq_add, List.length_eq_zero_iff, Report.unrunSpecs,
      List.flatMap_eq_nil_iff]
    simp
  · rw [Report.failed, Report.countP_specs, hfailed, Nat.add_zero,
      countP_marked_listed (by decide)]

/-- A suite with a failed and a pending spec was run before another one was added, and passes are
not shown. -/
theorem summary_agrees_added :
    let s₀ : Session := ⟨[], ⟨Standard.registry, {}⟩, .memory [], .terminal false⟩
    let os : List Operation := [
      .parse "describe 'a' it 'b' 1.should_eql 2 end it 'c' end end", .run,
      .parse "describe 'd' it 'e' end end"]
    let p := (⟨s₀, ()⟩ : Driven Unit).applyAll interpreter os
    let r := p.session.report
    p.Reachable interpreter ∧
      (∀ n, summary r = counts r.stats ++ pendingNote n ↔ n = 2) ∧
      r.failed = (listed false r).countP (marked .failed) ∧
      r.failed = 1 ∧ (listed false r).countP (marked .pending) = 1 := by
  intro s₀ os p r
  have hstart : Session.start { showPasses := false } (.memory []) = .ok s₀ := rfl
  have hp : p.Reachable interpreter := ⟨_, _, s₀, (), os, hstart, rfl⟩
  obtain ⟨-, -, -, hnumber, -, hfailed⟩ := summary_agrees hp false
  have hcounts : r.failed = 1 ∧ (listed false r).countP (marked .pending) = 1 ∧
      r.unrunSpecs.length = 1 := by
    unfold r p s₀ os
    decide +kernel
  refine ⟨hp, fun n => ?_, hfailed, hcounts.1, hcounts.2.1⟩
  rw [hnumber, hcounts.2.1, hcounts.2.2]

/-- The line of counts has a pending spec and the listing has none, where nothing was run. -/
theorem summary_counts_unrun :
    let s₀ : Session := ⟨[], ⟨Standard.registry, {}⟩, .memory [], .terminal true⟩
    let p := (⟨s₀, ()⟩ : Driven Unit).applyAll interpreter [.parse "describe 'a' it 'b' end end"]
    let r := p.session.report
    p.Reachable interpreter ∧ r.pending = 1 ∧
      ∀ showPasses, (listed showPasses r).countP (marked .pending) = 0 ∧
        render showPasses r =
          "Specs: 0  Assertions: 0  Passes: 0  Failures: 0  Pending: 1\n" := by
  intro s₀ p r
  have hstart : Session.start {} (.memory []) = .ok s₀ := rfl
  refine ⟨⟨_, _, s₀, (), _, hstart, rfl⟩, ?_⟩
  unfold r p s₀
  decide +kernel

end Terminal

end SpecEngine
