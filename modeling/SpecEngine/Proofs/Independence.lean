import Mathlib.Data.List.Nodup
import SpecEngine.Proofs.Lifecycle
import SpecEngine.Proofs.Merging
import SpecEngine.Proofs.Operations

/-!
# Suites run by themselves

A suite takes nothing from the suites that were run before it, and leaves nothing to those that are
run after it, but for the counts, to which it adds.  So the order in which suites are run does not
matter.

* `runSuite_add`: a suite adds the same counts whatever was counted before;
* `runSuite_comm`: two suites in either order; `applyAll_perm`: suites in any order;
* `runCatalogue_of_runsSucceed`: a run of all suites is a run of each in their order;
* `keys_nodup_applyAll`, `Reachable.keys_nodup`: no session has two suites of one description;
* `applyAll_runSuite_perm`: all suites, one by one or at once.
-/

namespace SpecEngine

namespace Table

variable {κ α : Type} [DecidableEq κ] {t : Table κ α} {k : κ}

theorem find?_append_cons (h : k ∉ keys t) (a : α) (u : Table κ α) :
    find? (t ++ (k, a) :: u) k = some a := by
  induction t with
  | nil => exact if_pos rfl
  | cons e t ih =>
    simp only [keys, List.map_cons, List.mem_cons, not_or] at h
    rw [List.cons_append, find?_cons, if_neg (Ne.symm h.1)]
    exact ih h.2

theorem set_append_cons (h : k ∉ keys t) (a b : α) (u : Table κ α) :
    set (t ++ (k, a) :: u) k b = t ++ (k, b) :: u := by
  induction t with
  | nil => exact if_pos rfl
  | cons e t ih =>
    simp only [keys, List.map_cons, List.mem_cons, not_or] at h
    rw [List.cons_append, set, upsert, if_neg (Ne.symm h.1)]
    exact congrArg (e :: ·) (ih h.2)

end Table

/-! ### Counts that are added to -/

namespace Stats

instance : Add Stats where
  add t u := ⟨t.specs + u.specs, t.assertions + u.assertions, t.passes + u.passes,
    t.failures + u.failures⟩

theorem add_def (t u : Stats) :
    t + u = ⟨t.specs + u.specs, t.assertions + u.assertions, t.passes + u.passes,
      t.failures + u.failures⟩ := rfl

theorem zero_add (t : Stats) : {} + t = t := by
  simp [add_def]

theorem add_left_comm (t u v : Stats) : t + (u + v) = u + (t + v) := by
  simp [add_def, Nat.add_left_comm]

theorem countAssertions_add (t u : Stats) (log : List Assertion) :
    (t + u).countAssertions log = t.countAssertions log + u := by
  simp [countAssertions_eq, add_def, Nat.add_right_comm]

theorem countSpec_add (t u : Stats) (n : Nat) : (t + u).countSpec n = t.countSpec n + u := by
  simp [countSpec, add_def, Nat.add_right_comm]

end Stats

section

variable {σ : Type} (exec : Executor σ) (r : Registry) (u : Stats)

/-- What is handed on, where `u` was counted before. -/
def Progress.add (p : Progress σ) : Progress σ :=
  { p with stats := p.stats + u }

theorem runHook_add (suite : Suite) (h : Hook) (p : Progress σ) :
    runHook exec suite h (p.add u) = Prod.map (Progress.add u) id (runHook exec suite h p) := by
  unfold runHook
  cases suite.hook? h <;> rfl

theorem runSpec_add (suite : Suite) (s : Spec) (p : Progress σ) :
    runSpec exec r suite s (p.add u) =
      Prod.map (Progress.add u) id (runSpec exec r suite s p) := by
  unfold runSpec
  simp only [Progress.add, Stats.countAssertions_add, Stats.countSpec_add]
  cases (exec p.state ⟨suite.description, .spec s, s.body⟩ r.judge p.environment).2.failure? <;> rfl

theorem runAround_add (suite : Suite) (s : Spec) (p : Progress σ) :
    runAround exec r suite s (p.add u) =
      Prod.map (Progress.add u) id (runAround exec r suite s p) := by
  unfold runAround
  rw [runHook_add]
  rcases runHook exec suite .beforeEach p with ⟨p₁, _ | e⟩
  · simp only [Prod.map, id]
    rw [runSpec_add]
    rcases runSpec exec r suite s p₁ with ⟨p₂, s₂, _ | e⟩
    · simp only [Prod.map, id]
      rw [runHook_add]
      rfl
    · rfl
  · rfl

theorem runSpecs_add (suite : Suite) (specs : List Spec) (p : Progress σ) :
    runSpecs exec r suite specs (p.add u) =
      Prod.map (Progress.add u) id (runSpecs exec r suite specs p) := by
  induction specs generalizing p with
  | nil => rfl
  | cons s specs ih =>
    rw [runSpecs, runSpecs, runAround_add]
    rcases runAround exec r suite s p with ⟨p₁, s₁, _ | e⟩
    · simp only [Prod.map, id]
      rw [ih]
      rfl
    · rfl

/-- A suite adds to the counts, and does not depend on them. -/
theorem runSuite_add (suite : Suite) (state : σ) (stats : Stats) :
    runSuite exec r suite state (stats + u) =
      { runSuite exec r suite state stats with
        stats := (runSuite exec r suite state stats).stats + u } := by
  unfold runSuite
  dsimp only
  have hp : (⟨state, {}, stats + u⟩ : Progress σ) = Progress.add u ⟨state, {}, stats⟩ := rfl
  rw [hp, runHook_add]
  rcases runHook exec { suite with ran := true } .before ⟨state, {}, stats⟩ with ⟨p₁, _ | e⟩
  · simp only [Prod.map, id]
    rw [runSpecs_add]
    rcases runSpecs exec r { suite with ran := true } suite.specs p₁ with ⟨p₂, specs, _ | e⟩
    · simp only [Prod.map, id]
      rw [runHook_add]
      rfl
    · rfl
  · rfl

end

/-! ### Suites of a session -/

namespace Session

/-- What running a suite does where nothing was counted before. -/
def alone (s : Session) (suite : Suite) : SuiteRun Unit :=
  SpecEngine.runSuite interpreter s.engine.registry suite () {}

/-- The session that a run leaves behind. -/
def leave (s : Session) (c : Catalogue) (t : Stats) : Session :=
  { s with catalogue := c, engine := { s.engine with stats := t } }

/-- The session in which a suite has taken its place after a run. -/
def settle (s : Session) (description : String) (run : SuiteRun Unit) : Session :=
  s.leave (Table.set s.catalogue description run.suite) (run.stats + s.engine.stats)

theorem runSuite_of_find {s : Session} {d : String} {suite : Suite}
    (h : s.catalogue.suite? d = some suite) :
    s.runSuite d = (s.settle d (s.alone suite), (s.alone suite).failure?.map .run) := by
  have hadd := runSuite_add interpreter s.engine.registry s.engine.stats suite () {}
  rw [Stats.zero_add] at hadd
  unfold runSuite
  simp only [h]
  rw [hadd]
  rfl

/-- A suite that is run without an error stands in the catalogue. -/
theorem exists_of_runSuite {s : Session} {d : String} (h : (s.runSuite d).2 = none) :
    ∃ suite, s.catalogue.suite? d = some suite ∧ (s.alone suite).failure? = none ∧
      (s.runSuite d).1 = s.settle d (s.alone suite) := by
  cases hd : s.catalogue.suite? d with
  | none => simp [runSuite, hd] at h
  | some suite =>
    rw [runSuite_of_find hd] at h ⊢
    exact ⟨suite, rfl, by simpa using h, rfl⟩

theorem suite?_settle {d e : String} (h : e ≠ d) (s : Session) (run : SuiteRun Unit) :
    (s.settle d run).catalogue.suite? e = s.catalogue.suite? e :=
  Table.find?_upsert_of_ne _ _ h

theorem settle_comm {d e : String} (h : d ≠ e) {s : Session} {suite : Suite}
    (he : s.catalogue.suite? e = some suite) (run run' : SuiteRun Unit) :
    (s.settle d run).settle e run' = (s.settle e run').settle d run := by
  have hk : e ∈ Table.keys s.catalogue := by
    refine Decidable.byContradiction fun hn => ?_
    rw [Catalogue.suite?, (Table.find?_eq_none_iff _ _).2 hn] at he
    cases he
  have hc := Table.upsert_comm h (fun _ => run.suite) (fun _ => run'.suite) hk
  simp only [settle, leave, Session.mk.injEq, Engine.mk.injEq, true_and, and_true]
  exact ⟨hc, Stats.add_left_comm _ _ _⟩

/-- Two suites that run without an error one after the other do so in the other order, with the
same outcome. -/
theorem runSuite_comm {d e : String} (h : d ≠ e) {s : Session} (hd : (s.runSuite d).2 = none)
    (he : ((s.runSuite d).1.runSuite e).2 = none) :
    (s.runSuite e).2 = none ∧ ((s.runSuite e).1.runSuite d).2 = none ∧
      ((s.runSuite e).1.runSuite d).1 = ((s.runSuite d).1.runSuite e).1 := by
  obtain ⟨a, ha, hfa, hsa⟩ := exists_of_runSuite hd
  rw [hsa] at he ⊢
  obtain ⟨b, hb, hfb, hsb⟩ := exists_of_runSuite he
  rw [suite?_settle h.symm] at hb
  -- neither suite sees that the other one was run
  have ha' : (s.settle e (s.alone b)).catalogue.suite? d = some a := by
    rwa [suite?_settle h]
  rw [hsb, runSuite_of_find hb, runSuite_of_find ha']
  exact ⟨congrArg (Option.map SessionError.run) hfb, congrArg (Option.map SessionError.run) hfa,
    (settle_comm h hb _ _).symm⟩

/-- The order in which suites are run does not matter. -/
theorem applyAll_perm {ds ds' : List String} (hp : ds.Perm ds') (hn : ds.Nodup) {s : Session}
    (h : s.RunsSucceed (ds.map .runSuite)) :
    s.RunsSucceed (ds'.map .runSuite) ∧
      s.applyAll (ds'.map .runSuite) = s.applyAll (ds.map .runSuite) := by
  induction hp generalizing s with
  | nil => exact ⟨trivial, rfl⟩
  | cons d hp ih =>
    obtain ⟨hs, hr⟩ := ih (List.nodup_cons.1 hn).2 h.2
    exact ⟨⟨h.1, hs⟩, hr⟩
  | swap e d ds =>
    have hne : d ≠ e := fun hde => (List.nodup_cons.1 hn).1 (by simp [hde])
    obtain ⟨hd, he, hs⟩ := h
    obtain ⟨he', hd', hc⟩ := runSuite_comm hne (hd rfl) (he rfl)
    have hc : (((s.apply (.runSuite e)).1.apply (.runSuite d)).1) =
        ((s.apply (.runSuite d)).1.apply (.runSuite e)).1 := hc
    refine ⟨⟨fun _ => he', fun _ => hd', ?_⟩, ?_⟩
    · rw [hc]
      exact hs
    · simp only [List.map_cons, applyAll]
      rw [hc]
  | trans hp hq ihp ihq =>
    obtain ⟨hs, hr⟩ := ihp hn h
    obtain ⟨hs', hr'⟩ := ihq (hp.nodup_iff.1 hn) hs
    exact ⟨hs', hr'.trans hr⟩

/-! ### Runs of all suites -/

/-- Suites that run without an error one by one in the order of the catalogue do so in one run, with
the same outcome. -/
theorem runCatalogue_of_runsSucceed {s : Session} {a b : Catalogue}
    (hc : s.catalogue = a ++ b) (hn : (Table.keys s.catalogue).Nodup)
    (h : s.RunsSucceed ((Table.keys b).map .runSuite)) :
    let run := runCatalogue interpreter s.engine.registry b () s.engine.stats
    run.failure? = none ∧
      s.applyAll ((Table.keys b).map .runSuite) = s.leave (a ++ run.catalogue) run.stats := by
  induction b generalizing s a with
  | nil =>
    refine ⟨rfl, ?_⟩
    show s = s.leave (a ++ []) s.engine.stats
    rw [← hc]
    rfl
  | cons e b ih =>
    obtain ⟨d, suite⟩ := e
    obtain ⟨hd, h⟩ := h
    have hd := hd rfl
    have ha : d ∉ Table.keys a := by
      rw [hc, Table.keys, List.map_append, List.map_cons, List.nodup_middle] at hn
      exact fun hm => (List.nodup_cons.1 hn).1 (List.mem_append_left _ hm)
    have hfind : s.catalogue.suite? d = some suite := by
      rw [hc]
      exact Table.find?_append_cons ha suite b
    rw [runCatalogue]
    rcases hr : SpecEngine.runSuite interpreter s.engine.registry suite () s.engine.stats with
      ⟨⟨⟩, stats, suite', e⟩
    have hs : s.apply (.runSuite d) =
        (s.leave (a ++ (d, suite') :: b) stats, e.map .run) := by
      rw [apply, runSuite]
      simp only [hfind]
      rw [hr, hc, Table.set_append_cons ha]
      rfl
    rw [hs] at hd h
    have he : e = none := by simpa using hd
    subst he
    obtain ⟨hf, hb⟩ := ih (a := a ++ [(d, suite')]) (by simp [leave])
      (by simpa [leave, hc, Table.keys] using hn) h
    refine ⟨hf, ?_⟩
    rw [Table.keys, List.map_cons, List.map_cons, applyAll, hs, ← Table.keys]
    simpa [leave] using hb

theorem keys_runCatalogue {σ : Type} (exec : Executor σ) (r : Registry) (c : Catalogue) (state : σ)
    (stats : Stats) : Table.keys (runCatalogue exec r c state stats).catalogue = Table.keys c := by
  induction c generalizing state stats with
  | nil => rfl
  | cons e c ih =>
    obtain ⟨d, suite⟩ := e
    rw [runCatalogue]
    rcases SpecEngine.runSuite exec r suite state stats with ⟨state₁, stats₁, suite₁, _ | e⟩
    · exact congrArg (d :: ·) (ih state₁ stats₁)
    · rfl

/-- No description is made to stand twice. -/
theorem keys_nodup_apply {s : Session} (h : (Table.keys s.catalogue).Nodup) (o : Operation) :
    (Table.keys (s.apply o).1.catalogue).Nodup := by
  by_cases ho : o.isRun = true
  · cases o with
    | run =>
      show (Table.keys (runCatalogue _ _ _ _ _).catalogue).Nodup
      rwa [keys_runCatalogue]
    | runSuite d =>
      rw [apply, runSuite]
      cases s.catalogue.suite? d with
      | none => exact h
      | some suite => exact Table.keys_nodup_upsert h _ _
    | _ => cases ho
  · rcases (extends_apply s (by simpa using ho)).2 with hc | ⟨l, hc⟩
    · rwa [hc]
    · rw [hc]
      exact Catalogue.keys_nodup_merge h _

theorem keys_nodup_applyAll {s : Session} (h : (Table.keys s.catalogue).Nodup)
    (os : List Operation) : (Table.keys (s.applyAll os).catalogue).Nodup := by
  induction os generalizing s with
  | nil => exact h
  | cons o os ih => exact ih (keys_nodup_apply h o)

/-- What a session has become that was started, whatever was done to it. -/
def Reachable (s : Session) : Prop :=
  ∃ config sources s₀ os, start config sources = .ok s₀ ∧ s = s₀.applyAll os

theorem Reachable.keys_nodup {s : Session} (h : s.Reachable) :
    (Table.keys s.catalogue).Nodup := by
  obtain ⟨config, sources, s₀, os, hs, rfl⟩ := h
  exact keys_nodup_applyAll (by simp [(start_eq hs).1, Table.keys]) os

/-- **Suites are independent of each other**: if all suites of a session run without an error one by
one in some order, they do so in any order, and leave behind the same session, with the same
assertions of all specs and the same counts, as a single run does. -/
theorem applyAll_runSuite_perm {s : Session} (hs : s.Reachable) {ds : List String}
    (hd : ds.Perm (Table.keys s.catalogue)) (h : s.RunsSucceed (ds.map .runSuite)) :
    (∀ ds' : List String, ds'.Perm (Table.keys s.catalogue) →
      s.RunsSucceed (ds'.map .runSuite) ∧
        s.applyAll (ds'.map .runSuite) = s.applyAll (ds.map .runSuite)) ∧
    s.run = (s.applyAll (ds.map .runSuite), none) := by
  have hds : ds.Nodup := hd.nodup_iff.2 hs.keys_nodup
  refine ⟨fun ds' hd' => applyAll_perm (hd.trans hd'.symm) hds h, ?_⟩
  -- one run is the runs of the suites in the order of the catalogue
  obtain ⟨hk, hr⟩ := applyAll_perm hd hds h
  obtain ⟨hf, ha⟩ := runCatalogue_of_runsSucceed (a := []) rfl hs.keys_nodup hk
  rw [← hr, ha, run]
  simp only [hf]
  rfl

/-- Two suites that bind one name to different values. -/
theorem applyAll_runSuite_perm_names :
    let s₀ : Session := ⟨[], ⟨Standard.registry, {}⟩, .memory [], .terminal true⟩
    let s := s₀.applyAll [.parse (
      "describe 'a' before let x = 1 end it 'b' x.should_eql 1 end end " ++
      "describe 'c' before let x = 2 end it 'd' x.should_eql 2 end end")]
    s.Reachable ∧ ["c", "a"].Perm (Table.keys s.catalogue) ∧
      s.RunsSucceed [.runSuite "c", .runSuite "a"] ∧
      s.run = (s.applyAll [.runSuite "c", .runSuite "a"], none) := by
  intro s₀ s
  have hs : s.Reachable := ⟨{}, .memory [], s₀, _, rfl, rfl⟩
  have hp : ["c", "a"].Perm (Table.keys s.catalogue) := by
    unfold s s₀
    decide +kernel
  have ho : s.RunsSucceed [.runSuite "c", .runSuite "a"] := by
    unfold s s₀
    decide +kernel
  exact ⟨hs, hp, ho, (applyAll_runSuite_perm hs hp ho).2⟩

end Session

end SpecEngine
