import SpecEngine.Proofs.Lifecycle
import SpecEngine.Proofs.Operations

/-!
# The counts of sessions

How the counts of a session keep up with the assertions that its specs hold.  Passes and failures
are counted one assertion at a time; the third count grows, with each finished spec, by all the
assertions that the spec holds by then, so a spec that is run again has its earlier assertions
counted again.

* `held`: the number of assertions that specs hold;
* `Tallies`: what a part of a run that does not fail does to the counts and to the specs it runs;
  `tallies_runSpecs`, `tallies_runSuite`, `tallies_runCatalogue`: the parts;
* `held_merge`, `held_set`: what a change of the catalogue does to `held`;
* `balance`: operations in a row; `stats_applyAll`: the counts of a session.
-/

namespace SpecEngine

/-- The number of assertions that specs hold. -/
def held : List Spec → Nat
  | [] => 0
  | s :: specs => s.assertions.length + held specs

@[simp] theorem held_nil : held [] = 0 := rfl

@[simp] theorem held_cons (s : Spec) (specs : List Spec) :
    held (s :: specs) = s.assertions.length + held specs := rfl

@[simp] theorem held_append (l m : List Spec) : held (l ++ m) = held l + held m := by
  induction l with
  | nil => simp
  | cons s l ih => simp [ih, Nat.add_assoc]

theorem held_eq_zero_iff {specs : List Spec} :
    held specs = 0 ↔ ∀ s ∈ specs, s.assertions = [] := by
  induction specs with
  | nil => simp
  | cons s specs ih => simp [ih]

/-- All assertions that were counted as they were made. -/
def Stats.outcomes (t : Stats) : Nat :=
  t.passes + t.failures

/-! ### Runs -/

/-- A part of a run takes the counts from `t` to `t'` and its specs from `l` to `l'`: what the specs
hold more has passed or failed, and all they hold then is counted. -/
structure Tallies (t t' : Stats) (l l' : List Spec) : Prop where
  outcomes : t'.outcomes + held l = t.outcomes + held l'
  assertions : t'.assertions = t.assertions + held l'

theorem Tallies.append {t t' t'' : Stats} {l l' m m' : List Spec} (h : Tallies t t' l l')
    (h' : Tallies t' t'' m m') : Tallies t t'' (l ++ m) (l' ++ m') := by
  obtain ⟨ho, ha⟩ := h
  obtain ⟨ho', ha'⟩ := h'
  constructor
  · rw [held_append, held_append]
    omega
  · rw [ha', ha, held_append, Nat.add_assoc]

section

variable {σ : Type} (exec : Executor σ) (r : Registry)

theorem stats_runHook (suite : Suite) (h : Hook) (p : Progress σ) :
    (runHook exec suite h p).1.stats = p.stats := by
  unfold runHook
  cases suite.hook? h <;> rfl

theorem tallies_runSpec {suite : Suite} {s s' : Spec} {p p' : Progress σ}
    (h : runSpec exec r suite s p = (p', s', none)) : Tallies p.stats p'.stats [s] [s'] := by
  unfold runSpec at h
  generalize exec p.state ⟨suite.description, .spec s, s.body⟩ r.judge p.environment = out at h
  cases hf : out.2.failure? with
  | some e => simp [hf] at h
  | none =>
    simp only [hf] at h
    cases h
    -- an assertion has either passed or failed
    have hl : out.2.log.length = out.2.log.countP (·.passed) + out.2.log.countP (!·.passed) := by
      simpa using List.length_eq_countP_add_countP (fun a : Assertion => a.passed) (l := out.2.log)
    constructor
    · simp [Stats.outcomes, Stats.countSpec, Stats.countAssertions_eq, Spec.record]
      omega
    · simp [Stats.countSpec, Stats.countAssertions_eq]

theorem tallies_runAround {suite : Suite} {s s' : Spec} {p p' : Progress σ}
    (h : runAround exec r suite s p = (p', s', none)) : Tallies p.stats p'.stats [s] [s'] := by
  unfold runAround at h
  have hp := stats_runHook exec suite .beforeEach p
  rcases hb : runHook exec suite .beforeEach p with ⟨p₁, _ | e⟩
  · rw [hb] at h hp
    dsimp only at h hp
    rcases hs : runSpec exec r suite s p₁ with ⟨p₂, s₂, _ | e⟩
    · rw [hs] at h
      have hq := stats_runHook exec suite .afterEach p₂
      simp only [Prod.mk.injEq] at h
      obtain ⟨rfl, rfl, -⟩ := h
      have ht := tallies_runSpec exec r hs
      rw [hp] at ht
      rwa [← hq] at ht
    · simp [hs] at h
  · simp [hb] at h

theorem tallies_runSpecs {suite : Suite} {l l' : List Spec} {p p' : Progress σ}
    (h : runSpecs exec r suite l p = (p', l', none)) : Tallies p.stats p'.stats l l' := by
  induction l generalizing l' p with
  | nil =>
    cases h
    exact ⟨rfl, rfl⟩
  | cons s l ih =>
    rw [runSpecs] at h
    rcases hs : runAround exec r suite s p with ⟨p₁, s₁, _ | e⟩
    · rw [hs] at h
      rcases hl : runSpecs exec r suite l p₁ with ⟨p₂, l₂, _ | e⟩
      · simp only [hl] at h
        cases h
        exact (tallies_runAround exec r hs).append (ih hl)
      · simp [hl] at h
    · simp [hs] at h

theorem tallies_runSuite (suite : Suite) (state : σ) (stats : Stats)
    (h : (runSuite exec r suite state stats).failure? = none) :
    Tallies stats (runSuite exec r suite state stats).stats suite.specs
      (runSuite exec r suite state stats).suite.specs := by
  unfold runSuite at h ⊢
  dsimp only at h ⊢
  have hp := stats_runHook exec { suite with ran := true } .before ⟨state, {}, stats⟩
  rcases hb : runHook exec { suite with ran := true } .before ⟨state, {}, stats⟩ with ⟨p₁, _ | e⟩
  · rw [hb] at h hp
    rcases hs : runSpecs exec r { suite with ran := true } suite.specs p₁ with ⟨p₂, l, _ | e⟩
    · have hq := stats_runHook exec { suite with ran := true } .after p₂
      have ht := tallies_runSpecs exec r hs
      simp only [hs]
      rw [hq]
      rwa [hp] at ht
    · simp [hs] at h
  · simp [hb] at h

theorem tallies_runCatalogue {c : Catalogue} {state : σ} {stats : Stats}
    (h : (runCatalogue exec r c state stats).failure? = none) :
    Tallies stats (runCatalogue exec r c state stats).stats c.specs
      (runCatalogue exec r c state stats).catalogue.specs := by
  induction c generalizing state stats with
  | nil => exact ⟨rfl, rfl⟩
  | cons e c ih =>
    obtain ⟨d, suite⟩ := e
    rw [runCatalogue] at h ⊢
    have ht := tallies_runSuite exec r suite state stats
    rcases hs : runSuite exec r suite state stats with ⟨state₁, stats₁, suite₁, _ | e⟩
    · rw [hs] at h ht
      exact (ht rfl).append (ih h)
    · simp [hs] at h

end

/-! ### Catalogues -/

theorem held_owned (d : String) (specs : List Spec) : held (Suite.owned d specs) = held specs := by
  induction specs with
  | nil => rfl
  | cons s specs ih => exact congrArg (s.assertions.length + ·) ih

theorem held_items (d : String) (items : List Item) :
    held (Suite.owned d (items.filterMap Item.spec?)) = 0 :=
  held_eq_zero_iff.2 fun _ hx => Suite.assertions_of_mem_owned hx

theorem held_absorb (s t : Suite) : held (s.absorb t).specs = held s.specs + held t.specs := by
  rw [Suite.absorb_eq, held_append, held_owned]

namespace Catalogue

theorem specs_cons (e : String × Suite) (c : Catalogue) :
    specs (e :: c) = e.2.specs ++ specs c := rfl

theorem held_update (c : Catalogue) (d : String) {f : Suite → Suite} {n : Nat}
    (hf : ∀ s, held (f s).specs = held s.specs + n) :
    held (c.update d f).specs = held c.specs + n := by
  unfold update
  induction c with
  | nil =>
    rw [Table.upsert, specs_cons, held_append, hf]
    show 0 + n + 0 = 0 + n
    omega
  | cons e c ih =>
    obtain ⟨k, s⟩ := e
    rw [Table.upsert]
    split
    · rw [specs_cons, specs_cons, held_append, held_append]
      have := hf s
      simp only [Option.getD_some] at this ⊢
      omega
    · rw [specs_cons, specs_cons, held_append, held_append, ih, Nat.add_assoc]

theorem held_merge (c d : Catalogue) : held (c.merge d).specs = held c.specs + held d.specs := by
  unfold merge
  induction d generalizing c with
  | nil => rfl
  | cons e d ih =>
    rw [List.foldl_cons, ih, held_update c e.1 fun s => held_absorb s e.2, specs_cons, held_append,
      Nat.add_assoc]

/-- Specs that come from contents hold nothing yet. -/
theorem held_ofContents (l : List Content) : held (ofContents l).specs = 0 := by
  induction l using List.reverseRecOn with
  | nil => rfl
  | append_singleton l s ih =>
    rw [ofContents_append_singleton, putContent_eq, held_update (n := 0), ih]
    intro t
    rw [Suite.foldl_put, held_append, held_items]

theorem held_set {c : Catalogue} {d : String} {s : Suite} (h : c.suite? d = some s) (s' : Suite) :
    held (Catalogue.specs (Table.set c d s')) + held s.specs = held c.specs + held s'.specs := by
  unfold suite? at h
  induction c with
  | nil => cases h
  | cons e c ih =>
    obtain ⟨k, t⟩ := e
    rw [Table.find?_cons] at h
    rw [Table.set, Table.upsert]
    split at h
    · next hk =>
      cases h
      rw [if_pos hk, specs_cons, specs_cons, held_append, held_append]
      dsimp only
      omega
    · next hk =>
      have ih := ih h
      rw [Table.set] at ih
      rw [if_neg hk, specs_cons, specs_cons, held_append, held_append]
      omega

end Catalogue

/-! ### Sessions -/

namespace Session

/-- The assertions that specs hold already when they are run. -/
def recounted (s : Session) : List Operation → Nat
  | [] => 0
  | o :: os => held (o.specs s) + (s.apply o).1.recounted os

/-- Whether no run meets a spec that holds assertions. -/
def RunsFresh (s : Session) : List Operation → Prop
  | [] => True
  | o :: os => (∀ x ∈ o.specs s, x.assertions = []) ∧ (s.apply o).1.RunsFresh os

theorem recounted_eq_zero_iff {s : Session} {os : List Operation} :
    s.recounted os = 0 ↔ s.RunsFresh os := by
  induction os generalizing s with
  | nil => simp [recounted, RunsFresh]
  | cons o os ih => simp [recounted, RunsFresh, held_eq_zero_iff, ih]

/-- What an operation in which no run fails does to the counts and to the catalogue. -/
structure Balances (s s' : Session) (again : Nat) : Prop where
  outcomes : s'.stats.outcomes + held s.catalogue.specs =
    s.stats.outcomes + held s'.catalogue.specs
  assertions : s'.stats.assertions + held s.catalogue.specs =
    s.stats.assertions + held s'.catalogue.specs + again

theorem balances_run {s : Session} (h : s.run.2 = none) :
    Balances s s.run.1 (held s.catalogue.specs) := by
  unfold run at h ⊢
  have hf : (runCatalogue interpreter s.engine.registry s.catalogue () s.engine.stats).failure? =
      none := by simpa using h
  obtain ⟨ho, ha⟩ := tallies_runCatalogue interpreter s.engine.registry hf
  exact ⟨ho, by rw [stats, ha]; rfl⟩

theorem balances_runSuite {s : Session} {d : String} (h : (s.runSuite d).2 = none) :
    Balances s (s.runSuite d).1 (held ((Operation.runSuite d).specs s)) := by
  unfold runSuite at h ⊢
  unfold Operation.specs
  cases hs : s.catalogue.suite? d with
  | none => simp [hs] at h
  | some suite =>
    have hf : (SpecEngine.runSuite interpreter s.engine.registry suite () s.engine.stats).failure? =
        none := by simpa [hs] using h
    obtain ⟨ho, ha⟩ := tallies_runSuite interpreter s.engine.registry suite () s.engine.stats hf
    -- the suite takes its own place in the catalogue, so nothing else is held there
    have hc := Catalogue.held_set hs
      (SpecEngine.runSuite interpreter s.engine.registry suite () s.engine.stats).suite
    constructor
    · simp only [stats] at ho ⊢
      omega
    · simp only [stats, hs, Option.map_some, Option.getD_some] at ha ⊢
      omega

theorem balances_apply {s : Session} {o : Operation} (h : o.isRun → (s.apply o).2 = none) :
    Balances s (s.apply o).1 (held (o.specs s)) := by
  by_cases hr : o.isRun = true
  · cases o with
    | run => exact balances_run (h rfl)
    | runSuite d => exact balances_runSuite (h rfl)
    | _ => cases hr
  · obtain ⟨hst, hc⟩ := extends_apply s (by simpa using hr)
    -- what is added has not been run, so nothing more is held
    have hheld : held (s.apply o).1.catalogue.specs = held s.catalogue.specs := by
      rcases hc with hc | ⟨l, hc⟩
      · rw [hc]
      · rw [hc, Catalogue.held_merge, Catalogue.held_ofContents, Nat.add_zero]
    have hs : held (o.specs s) = 0 := by
      cases o with
      | run => exact absurd rfl hr
      | runSuite d => exact absurd rfl hr
      | _ => rfl
    constructor
    · rw [hst, hheld]
    · rw [hst, hheld, hs, Nat.add_zero]

/-- Operations in a row in which no run fails count each new assertion as passed or failed, and as
an assertion as often as its spec was run since. -/
theorem balance {s : Session} {os : List Operation} (h : s.RunsSucceed os) :
    Balances s (s.applyAll os) (s.recounted os) := by
  induction os generalizing s with
  | nil => exact ⟨rfl, rfl⟩
  | cons o os ih =>
    obtain ⟨ho, hos⟩ := h
    obtain ⟨ho, ha⟩ := balances_apply ho
    obtain ⟨ho', ha'⟩ := ih hos
    constructor
    · rw [applyAll]
      omega
    · rw [applyAll, recounted]
      omega

/-- **The counts of a session in which no run failed**: all assertions that its specs hold have
passed or failed, and the count of assertions is that of passes and failures if and only if no run
met a spec that held assertions already; those are counted again. -/
theorem stats_applyAll {config : Config} {sources : Sources} {s : Session}
    (hs : start config sources = .ok s) {os : List Operation} (ho : s.RunsSucceed os) :
    (s.applyAll os).stats.passes + (s.applyAll os).stats.failures =
        held (s.applyAll os).catalogue.specs ∧
      (s.applyAll os).stats.assertions =
        held (s.applyAll os).catalogue.specs + s.recounted os ∧
      ((s.applyAll os).stats.assertions =
          (s.applyAll os).stats.passes + (s.applyAll os).stats.failures ↔ s.RunsFresh os) := by
  obtain ⟨hc, ht⟩ := start_eq hs
  obtain ⟨houtcomes, hassertions⟩ := balance ho
  have h0 : held (Catalogue.specs []) = 0 := rfl
  have hp : (s.applyAll os).stats.passes + (s.applyAll os).stats.failures =
      held (s.applyAll os).catalogue.specs := by
    simpa [hc, ht, h0, Stats.outcomes] using houtcomes
  have ha : (s.applyAll os).stats.assertions =
      held (s.applyAll os).catalogue.specs + s.recounted os := by
    simpa [hc, ht, h0] using hassertions
  refine ⟨hp, ha, ?_⟩
  rw [ha, hp, ← recounted_eq_zero_iff]
  omega

/-- Each spec is run once. -/
theorem stats_applyAll_once :
    let s : Session := ⟨[], ⟨Standard.registry, {}⟩, .memory [], .terminal true⟩
    let os := [.parse "describe 'a' it 'b' 1.should_eql 1 end end", .runSuite "a",
      .parse "describe 'c' it 'd' 1.should_eql 2 end end", .runSuite "c"]
    start {} (.memory []) = .ok s ∧ s.RunsSucceed os ∧ s.RunsFresh os ∧
      (s.applyAll os).stats.assertions =
        (s.applyAll os).stats.passes + (s.applyAll os).stats.failures := by
  intro s os
  have hs : start {} (.memory []) = .ok s := rfl
  have ho : s.RunsSucceed os := by
    unfold s os
    decide +kernel
  have hf : s.RunsFresh os := by
    refine recounted_eq_zero_iff.1 ?_
    unfold s os
    decide +kernel
  exact ⟨hs, ho, hf, (stats_applyAll hs ho).2.2.2 hf⟩

/-- A spec with one assertion is run twice: both assertions pass, and three are counted. -/
theorem stats_of_second_run :
    let s : Session := ⟨[], ⟨Standard.registry, {}⟩, .memory [], .terminal true⟩
    let os := [.parse "describe 'a' it 'b' 1.should_eql 1 end end", .run, .run]
    start {} (.memory []) = .ok s ∧ s.RunsSucceed os ∧
      (s.applyAll os).stats = ⟨2, 3, 2, 0⟩ ∧ held (s.applyAll os).catalogue.specs = 2 := by
  intro s os
  refine ⟨rfl, ?_, ?_, ?_⟩ <;>
    · unfold s os
      decide +kernel

end Session

end SpecEngine
