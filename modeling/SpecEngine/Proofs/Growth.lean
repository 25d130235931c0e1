import Mathlib.Data.List.Forall2
import SpecEngine.Proofs.Counters
import SpecEngine.Proofs.Histories
import SpecEngine.Report.Basic

/-!
# Runs only append

Whatever runs the bodies, and wherever a run stops, it leaves the suites as they are but for the
assertions that it adds to the specs and the mark of the suites that it enters.  What it adds is
counted by its outcome.

* `Spec.GrowsTo`, `Suite.GrowsTo`, `Catalogue.GrowsTo`: what has become of specs, suites and
  catalogues behind runs; `Spec.GrowsTo.failed`: a spec that failed does not recover;
* `Appends`: what a part of a run does to the counts and to the specs it runs, `AppendsUntil` with
  what it does when it does not fail; `Appends.trans`, `AppendsUntil.stop`: parts put together;
  `appends_record`, `appends_runSuite`, `appends_runCatalogue`: the parts;
* `Driven.Grows`: a session behind runs; `grows_apply`: one run, `grows_applyAll`: runs in a row;
* `Suite.Settled`: only suites that were run hold assertions; `forall_suites_apply`: what is added
  to a session has not been run; `Reachable.settled`, `Reachable.counts`: all sessions;
* `runs_append`: all of it.
-/

namespace SpecEngine

open Session (Operation)

theorem forall₂_trans {α : Type} {R : α → α → Prop} (hR : ∀ {a b c}, R a b → R b c → R a c)
    {l m n : List α} (h : List.Forall₂ R l m) (h' : List.Forall₂ R m n) : List.Forall₂ R l n := by
  induction h generalizing n with
  | nil => exact h'
  | cons hab _ ih =>
    cases h' with
    | cons hbc h' => exact .cons (hR hab hbc) (ih h')

theorem Table.exists_append_of_find? {κ α : Type} [DecidableEq κ] {t : Table κ α} {k : κ} {a : α}
    (h : find? t k = some a) : ∃ u v, t = u ++ (k, a) :: v ∧ k ∉ keys u := by
  induction t with
  | nil => cases h
  | cons e t ih =>
    obtain ⟨j, b⟩ := e
    rw [find?_cons] at h
    split at h
    · next hj =>
      cases h
      exact ⟨[], t, by rw [hj]; rfl, List.not_mem_nil⟩
    · next hj =>
      obtain ⟨u, v, rfl, hu⟩ := ih h
      refine ⟨(j, b) :: u, v, rfl, ?_⟩
      rw [keys, List.map_cons, List.mem_cons, not_or]
      exact ⟨Ne.symm hj, hu⟩

/-! ### What grows -/

/-- What has become of a spec: it holds what it held, and maybe more behind it. -/
structure Spec.GrowsTo (x x' : Spec) : Prop where
  description : x'.description = x.description
  body : x'.body = x.body
  suite : x'.suite = x.suite
  assertions : x.assertions <+: x'.assertions

/-- What has become of a suite: it has the same hooks and specs in their order, and either it was
run or nothing has changed. -/
structure Suite.GrowsTo (s s' : Suite) : Prop where
  description : s'.description = s.description
  hooks : s'.hooks = s.hooks
  specs : List.Forall₂ Spec.GrowsTo s.specs s'.specs
  ran : s.ran = true → s'.ran = true
  changed : s' = s ∨ s'.ran = true

/-- What has become of a catalogue: its suites stand where they stood. -/
def Catalogue.GrowsTo (c c' : Catalogue) : Prop :=
  List.Forall₂ (fun e e' => e'.1 = e.1 ∧ e.2.GrowsTo e'.2) c c'

instance : LE Stats where
  le t u := t.specs ≤ u.specs ∧ t.assertions ≤ u.assertions ∧ t.passes ≤ u.passes ∧
    t.failures ≤ u.failures

namespace Stats

theorem le_def (t u : Stats) :
    t ≤ u ↔ t.specs ≤ u.specs ∧ t.assertions ≤ u.assertions ∧ t.passes ≤ u.passes ∧
      t.failures ≤ u.failures := Iff.rfl

theorem le_rfl (t : Stats) : t ≤ t :=
  ⟨Nat.le_refl _, Nat.le_refl _, Nat.le_refl _, Nat.le_refl _⟩

theorem le_trans {t u v : Stats} (h : t ≤ u) (h' : u ≤ v) : t ≤ v :=
  ⟨Nat.le_trans h.1 h'.1, Nat.le_trans h.2.1 h'.2.1, Nat.le_trans h.2.2.1 h'.2.2.1,
    Nat.le_trans h.2.2.2 h'.2.2.2⟩

end Stats

namespace Spec

theorem GrowsTo.refl (x : Spec) : GrowsTo x x :=
  ⟨rfl, rfl, rfl, List.prefix_rfl⟩

theorem GrowsTo.trans {x y z : Spec} (h : GrowsTo x y) (h' : GrowsTo y z) : GrowsTo x z where
  description := h'.description.trans h.description
  body := h'.body.trans h.body
  suite := h'.suite.trans h.suite
  assertions := h.assertions.trans h'.assertions

/-- An assertion stays in its place. -/
theorem GrowsTo.getElem? {x x' : Spec} (h : GrowsTo x x') {i : Nat} {a : Assertion}
    (hi : x.assertions[i]? = some a) : x'.assertions[i]? = some a := by
  obtain ⟨later, hl⟩ := h.assertions
  rw [← hl, List.getElem?_append_left (List.getElem?_eq_some_iff.1 hi).1]
  exact hi

theorem growsTo_record (x : Spec) (log : List Assertion) : GrowsTo x (x.record log) :=
  ⟨rfl, rfl, rfl, List.prefix_append _ _⟩

/-- A spec has failed when one of its assertions did not pass. -/
theorem status_eq_failed_iff {x : Spec} :
    x.status = .failed ↔ ∃ a ∈ x.assertions, a.passed = false := by
  rw [status, passed, isPending, failure?]
  cases x.assertions with
  | nil => simp
  | cons a log =>
    have hf : ((a :: log).find? fun b => !b.passed).isNone = true ↔
        ¬ ∃ b ∈ a :: log, b.passed = false := by
      simp [List.find?_eq_none]
    by_cases h : ∃ b ∈ a :: log, b.passed = false
    · simp [hf, h, -List.mem_cons]
    · simp [hf, h, -List.mem_cons]

theorem GrowsTo.failed {x x' : Spec} (h : GrowsTo x x') (hx : x.status = .failed) :
    x'.status = .failed := by
  obtain ⟨a, ha, hp⟩ := status_eq_failed_iff.1 hx
  exact status_eq_failed_iff.2 ⟨a, h.assertions.subset ha, hp⟩

end Spec

theorem Suite.GrowsTo.refl (s : Suite) : GrowsTo s s :=
  ⟨rfl, rfl, List.forall₂_same.2 fun x _ => .refl x, id, Or.inl rfl⟩

theorem Suite.GrowsTo.trans {s t u : Suite} (h : GrowsTo s t) (h' : GrowsTo t u) : GrowsTo s u where
  description := h'.description.trans h.description
  hooks := h'.hooks.trans h.hooks
  specs := forall₂_trans .trans h.specs h'.specs
  ran := h'.ran ∘ h.ran
  changed := by
    rcases h'.changed with rfl | hu
    · exact h.changed
    · exact Or.inr hu

namespace Catalogue

theorem GrowsTo.refl (c : Catalogue) : GrowsTo c c :=
  List.forall₂_same.2 fun e _ => ⟨rfl, .refl e.2⟩

theorem GrowsTo.trans {c d e : Catalogue} (h : GrowsTo c d) (h' : GrowsTo d e) : GrowsTo c e :=
  forall₂_trans (fun h h' => ⟨h'.1.trans h.1, h.2.trans h'.2⟩) h h'

/-- A suite in the middle of a catalogue grows. -/
theorem growsTo_append_cons {s s' : Suite} (h : s.GrowsTo s') (a b : Catalogue) (d : String) :
    GrowsTo (a ++ (d, s) :: b) (a ++ (d, s') :: b) :=
  List.rel_append (GrowsTo.refl a) (.cons ⟨rfl, h⟩ (GrowsTo.refl b))

end Catalogue

/-! ### Parts of runs -/

/-- The assertions that specs hold, in their order. -/
def assertionsOf (specs : List Spec) : List Assertion :=
  specs.flatMap Spec.assertions

theorem assertionsOf_append (l m : List Spec) :
    assertionsOf (l ++ m) = assertionsOf l ++ assertionsOf m :=
  List.flatMap_append

theorem assertionsOf_eq_nil_iff {specs : List Spec} :
    assertionsOf specs = [] ↔ ∀ x ∈ specs, x.assertions = [] :=
  List.flatMap_eq_nil_iff

theorem assertionsOf_absorb (s t : Suite) :
    assertionsOf (s.absorb t).specs = assertionsOf s.specs ++ assertionsOf t.specs := by
  rw [Suite.absorb_eq, assertionsOf_append]
  simp [assertionsOf, Suite.owned, List.flatMap_map]

/-- A suite that holds no assertions still holds none with another such suite added to it. -/
theorem Suite.assertions_of_mem_absorb {s t : Suite} (hs : ∀ x ∈ s.specs, x.assertions = [])
    (ht : ∀ x ∈ t.specs, x.assertions = []) : ∀ x ∈ (s.absorb t).specs, x.assertions = [] := by
  rw [← assertionsOf_eq_nil_iff] at hs ht ⊢
  rw [assertionsOf_absorb, hs, ht, List.append_nil]

/-- A part of a run takes the counts from `t` to `t'` and its specs from `l` to `l'`: the specs
grow, and what they hold more is counted by its outcome. -/
structure Appends (t t' : Stats) (l l' : List Spec) : Prop where
  specs : List.Forall₂ Spec.GrowsTo l l'
  passes : t'.passes + (assertionsOf l).countP (·.passed) =
    t.passes + (assertionsOf l').countP (·.passed)
  failures : t'.failures + (assertionsOf l).countP (!·.passed) =
    t.failures + (assertionsOf l').countP (!·.passed)
  le : t ≤ t'

/-- A part of a run that stops with the error `e`; without an error it counts all its specs. -/
structure AppendsUntil (t t' : Stats) (l l' : List Spec) (e : Option RunError) : Prop
    extends Appends t t' l l' where
  finished : e = none → t'.specs = t.specs + l.length

section

variable {t t' t'' : Stats} {l l' m m' : List Spec} {e : Option RunError}

theorem Appends.refl (t : Stats) (l : List Spec) : Appends t t l l :=
  ⟨List.forall₂_same.2 fun x _ => .refl x, rfl, rfl, Stats.le_rfl t⟩

/-- Two parts with specs of their own, one behind the other. -/
theorem Appends.append (h : Appends t t' l l') (h' : Appends t' t'' m m') :
    Appends t t'' (l ++ m) (l' ++ m') where
  specs := List.rel_append h.specs h'.specs
  passes := by
    have := h.passes
    have := h'.passes
    rw [assertionsOf_append, assertionsOf_append, List.countP_append, List.countP_append]
    omega
  failures := by
    have := h.failures
    have := h'.failures
    rw [assertionsOf_append, assertionsOf_append, List.countP_append, List.countP_append]
    omega
  le := Stats.le_trans h.le h'.le

/-- Two parts with the same specs, one behind the other. -/
theorem Appends.trans {n : List Spec} (h : Appends t t' l m) (h' : Appends t' t'' m n) :
    Appends t t'' l n where
  specs := forall₂_trans .trans h.specs h'.specs
  passes := by
    have := h.passes
    have := h'.passes
    omega
  failures := by
    have := h.failures
    have := h'.failures
    omega
  le := Stats.le_trans h.le h'.le

/-- Specs that a part does not run stay around those that it runs. -/
theorem Appends.frame (h : Appends t t' l l') (before after : List Spec) :
    Appends t t' (before ++ (l ++ after)) (before ++ (l' ++ after)) :=
  (Appends.refl t before).append (h.append (.refl t' after))

/-- Assertions are counted as they are recorded. -/
theorem appends_record (t : Stats) (x : Spec) (log : List Assertion) :
    Appends t (t.countAssertions log) [x] [x.record log] where
  specs := .cons (x.growsTo_record log) .nil
  passes := by
    simp only [Stats.countAssertions_eq, assertionsOf, Spec.record, List.flatMap_cons,
      List.flatMap_nil, List.append_nil, List.countP_append]
    omega
  failures := by
    simp only [Stats.countAssertions_eq, assertionsOf, Spec.record, List.flatMap_cons,
      List.flatMap_nil, List.append_nil, List.countP_append]
    omega
  le := by simp [Stats.le_def, Stats.countAssertions_eq]

/-- A finished spec is counted apart from the outcomes of its assertions. -/
theorem Appends.countSpec (h : Appends t t' l l') (n : Nat) : Appends t (t'.countSpec n) l l' where
  specs := h.specs
  passes := h.passes
  failures := h.failures
  le := Stats.le_trans h.le (by simp [Stats.le_def, Stats.countSpec])

theorem AppendsUntil.append (h : AppendsUntil t t' l l' none) (h' : AppendsUntil t' t'' m m' e) :
    AppendsUntil t t'' (l ++ m) (l' ++ m') e where
  toAppends := h.toAppends.append h'.toAppends
  finished he := by
    rw [h'.finished he, h.finished rfl, List.length_append, Nat.add_assoc]

/-- The specs behind a failure are not run. -/
theorem AppendsUntil.stop {e : RunError} (h : AppendsUntil t t' l l' (some e)) (m : List Spec) :
    AppendsUntil t t' (l ++ m) (l' ++ m) (some e) where
  toAppends := h.toAppends.append (.refl t' m)
  finished he := nomatch he

end

section

variable {σ : Type} (exec : Executor σ) (r : Registry)

theorem appends_runHook (suite : Suite) (h : Hook) (p : Progress σ) :
    AppendsUntil p.stats (runHook exec suite h p).1.stats [] [] (runHook exec suite h p).2 := by
  rw [stats_runHook]
  exact ⟨.refl p.stats [], fun _ => rfl⟩

theorem appends_runSpec (suite : Suite) (s : Spec) (p : Progress σ) :
    AppendsUntil p.stats (runSpec exec r suite s p).1.stats [s] [(runSpec exec r suite s p).2.1]
      (runSpec exec r suite s p).2.2 := by
  unfold runSpec
  generalize exec p.state ⟨suite.description, .spec s, s.body⟩ r.judge p.environment = out
  have hlog := appends_record p.stats s out.2.log
  cases hf : out.2.failure? with
  | none =>
    simp only [hf]
    exact ⟨hlog.countSpec _, fun _ => by rw [Stats.countAssertions_eq]; rfl⟩
  | some e =>
    simp only [hf]
    exact ⟨hlog, fun h => nomatch h⟩

theorem appends_runAround (suite : Suite) (s : Spec) (p : Progress σ) :
    AppendsUntil p.stats (runAround exec r suite s p).1.stats [s]
      [(runAround exec r suite s p).2.1] (runAround exec r suite s p).2.2 := by
  unfold runAround
  have hb := appends_runHook exec suite .beforeEach p
  rcases hp : runHook exec suite .beforeEach p with ⟨p₁, _ | e⟩
  · rw [hp] at hb
    have hs := appends_runSpec exec r suite s p₁
    rcases hq : runSpec exec r suite s p₁ with ⟨p₂, s₂, _ | e⟩
    · rw [hq] at hs
      simp only [hq]
      exact hb.append (hs.append (appends_runHook exec suite .afterEach p₂))
    · rw [hq] at hs
      simp only [hq]
      exact hb.append hs
  · rw [hp] at hb
    exact hb.stop [s]

theorem appends_runSpecs (suite : Suite) (specs : List Spec) (p : Progress σ) :
    AppendsUntil p.stats (runSpecs exec r suite specs p).1.stats specs
      (runSpecs exec r suite specs p).2.1 (runSpecs exec r suite specs p).2.2 := by
  induction specs generalizing p with
  | nil => exact ⟨.refl p.stats [], fun _ => rfl⟩
  | cons s specs ih =>
    have hs := appends_runAround exec r suite s p
    rw [runSpecs]
    rcases hp : runAround exec r suite s p with ⟨p₁, s₁, _ | e⟩
    · rw [hp] at hs
      exact hs.append (ih p₁)
    · rw [hp] at hs
      exact hs.stop specs

/-- A suite that is run is marked, and only its specs change. -/
theorem appends_runSuite (suite : Suite) (state : σ) (stats : Stats) :
    ∃ specs,
      (runSuite exec r suite state stats).suite = { suite with ran := true, specs } ∧
      AppendsUntil stats (runSuite exec r suite state stats).stats suite.specs specs
        (runSuite exec r suite state stats).failure? := by
  unfold runSuite
  dsimp only
  have hb := appends_runHook exec { suite with ran := true } .before ⟨state, {}, stats⟩
  rcases hp : runHook exec { suite with ran := true } .before ⟨state, {}, stats⟩ with ⟨p₁, _ | e⟩
  · rw [hp] at hb
    have hs := appends_runSpecs exec r { suite with ran := true } suite.specs p₁
    rcases hq : runSpecs exec r { suite with ran := true } suite.specs p₁ with
      ⟨p₂, specs, _ | e⟩
    · rw [hq] at hs
      have ha := appends_runHook exec { suite with ran := true } .after p₂
      simp only [hq]
      refine ⟨specs, rfl, ?_⟩
      have h := hb.append (hs.append ha)
      rwa [List.nil_append, List.nil_append, List.append_nil, List.append_nil] at h
    · rw [hq] at hs
      simp only [hq]
      exact ⟨specs, rfl, hb.append hs⟩
  · rw [hp] at hb
    exact ⟨suite.specs, rfl, hb.stop suite.specs⟩

theorem growsTo_runSuite (suite : Suite) (state : σ) (stats : Stats) :
    suite.GrowsTo (runSuite exec r suite state stats).suite ∧
      Appends stats (runSuite exec r suite state stats).stats suite.specs
        (runSuite exec r suite state stats).suite.specs := by
  obtain ⟨specs, hs, ha⟩ := appends_runSuite exec r suite state stats
  rw [hs]
  exact ⟨⟨rfl, rfl, ha.specs, fun _ => rfl, Or.inr rfl⟩, ha.toAppends⟩

theorem appends_runCatalogue (c : Catalogue) (state : σ) (stats : Stats) :
    c.GrowsTo (runCatalogue exec r c state stats).catalogue ∧
      AppendsUntil stats (runCatalogue exec r c state stats).stats c.specs
        (runCatalogue exec r c state stats).catalogue.specs
        (runCatalogue exec r c state stats).failure? := by
  induction c generalizing state stats with
  | nil => exact ⟨.nil, .refl stats [], fun _ => rfl⟩
  | cons e c ih =>
    obtain ⟨d, suite⟩ := e
    obtain ⟨specs, hs, ha⟩ := appends_runSuite exec r suite state stats
    have hg := (growsTo_runSuite exec r suite state stats).1
    rw [runCatalogue]
    rcases hp : runSuite exec r suite state stats with ⟨state₁, stats₁, suite₁, _ | e⟩
    · rw [hp] at ha hg hs
      subst hs
      obtain ⟨hc, hl⟩ := ih state₁ stats₁
      exact ⟨.cons ⟨rfl, hg⟩ hc, ha.append hl⟩
    · rw [hp] at ha hg hs
      subst hs
      exact ⟨.cons ⟨rfl, hg⟩ (Catalogue.GrowsTo.refl c), ha.stop (Catalogue.specs c)⟩

/-- A run that does not fail runs all suites. -/
theorem ran_runCatalogue {c : Catalogue} {state : σ} {stats : Stats}
    (h : (runCatalogue exec r c state stats).failure? = none) :
    ∀ e ∈ (runCatalogue exec r c state stats).catalogue, e.2.ran = true := by
  induction c generalizing state stats with
  | nil => exact fun e he => nomatch he
  | cons x c ih =>
    obtain ⟨d, suite⟩ := x
    obtain ⟨specs, hs, -⟩ := appends_runSuite exec r suite state stats
    rw [runCatalogue] at h ⊢
    rcases hp : runSuite exec r suite state stats with ⟨state₁, stats₁, suite₁, _ | e⟩
    · rw [hp] at h hs
      subst hs
      intro e he
      rcases List.mem_cons.1 he with rfl | he
      · rfl
      · exact ih h e he
    · simp [hp] at h

end

/-! ### What is added to a session -/

namespace Catalogue

theorem specs_append (a b : Catalogue) : specs (a ++ b) = specs a ++ specs b := by
  simp [specs, suites]

section

variable {c : Catalogue} {d : String} {s s' : Suite} (h : c.suite? d = some s)

include h

theorem growsTo_set (hs : s.GrowsTo s') : c.GrowsTo (Table.set c d s') := by
  obtain ⟨u, v, rfl, hu⟩ := Table.exists_append_of_find? h
  rw [Table.set_append_cons hu]
  exact growsTo_append_cons hs u v d

theorem appends_set {t t' : Stats} (hs : Appends t t' s.specs s'.specs) :
    Appends t t' c.specs (specs (Table.set c d s')) := by
  obtain ⟨u, v, rfl, hu⟩ := Table.exists_append_of_find? h
  rw [Table.set_append_cons hu, specs_append, specs_append, specs_cons, specs_cons]
  exact hs.frame (specs u) (specs v)

end

theorem assertionsOf_update (c : Catalogue) (d : String) {f : Suite → Suite}
    (hf : ∀ s, assertionsOf (f s).specs = assertionsOf s.specs) :
    assertionsOf (c.update d f).specs = assertionsOf c.specs := by
  unfold update
  induction c with
  | nil => simpa [Table.upsert, specs, suites] using hf { description := d }
  | cons e c ih =>
    obtain ⟨k, s⟩ := e
    rw [Table.upsert]
    split
    · rw [specs_cons, specs_cons, assertionsOf_append, assertionsOf_append]
      exact congrArg (· ++ assertionsOf (specs c)) (hf s)
    · rw [specs_cons, specs_cons, assertionsOf_append, assertionsOf_append, ih]

theorem assertionsOf_merge {d : Catalogue} (hd : ∀ e ∈ d, ∀ x ∈ e.2.specs, x.assertions = [])
    (c : Catalogue) : assertionsOf (c.merge d).specs = assertionsOf c.specs := by
  unfold merge
  induction d generalizing c with
  | nil => rfl
  | cons e d ih =>
    rw [List.foldl_cons, ih fun e he => hd e (List.mem_cons_of_mem _ he)]
    refine assertionsOf_update c e.1 fun s => ?_
    rw [assertionsOf_absorb, assertionsOf_eq_nil_iff.2 (hd e List.mem_cons_self), List.append_nil]

/-- Contents have not been run. -/
theorem assertions_of_mem_ofContents (l : List Content) :
    ∀ e ∈ ofContents l, ∀ x ∈ e.2.specs, x.assertions = [] := by
  intro e he x hx
  refine held_eq_zero_iff.1 (held_ofContents l) x ?_
  exact List.mem_flatMap.2 ⟨e.2, List.mem_map.2 ⟨e, he, rfl⟩, hx⟩

end Catalogue

namespace Session

/-- What is true of new suites and stays true where specs without assertions are added is not
changed by operations that run nothing. -/
theorem forall_suites_apply {P : Suite → Prop} (h0 : ∀ d, P { description := d })
    (ha : ∀ s t : Suite, (∀ x ∈ t.specs, x.assertions = []) → P s → P (s.absorb t))
    {s : Session} {o : Operation} (ho : o.isRun = false) (hs : ∀ e ∈ s.catalogue, P e.2) :
    ∀ e ∈ (s.apply o).1.catalogue, P e.2 := by
  rcases (extends_apply s ho).2 with hc | ⟨l, hc⟩
  · rwa [hc]
  · rw [hc]
    refine Catalogue.forall_mem_merge (P := fun _ s => P s) h0 (fun e he t => ?_) hs
    exact ha t e.2 (Catalogue.assertions_of_mem_ofContents l e he)

theorem assertionsOf_apply (s : Session) {o : Operation} (ho : o.isRun = false) :
    assertionsOf (s.apply o).1.catalogue.specs = assertionsOf s.catalogue.specs := by
  rcases (extends_apply s ho).2 with hc | ⟨l, hc⟩
  · rw [hc]
  · rw [hc, Catalogue.assertionsOf_merge (Catalogue.assertions_of_mem_ofContents l)]

/-- The run that is asked for: of one suite, or of all of them. -/
def Operation.runOf : Option String → Operation
  | none => .run
  | some description => .runSuite description

theorem Operation.isRun_runOf (suite? : Option String) : (runOf suite?).isRun = true := by
  cases suite? <;> rfl

end Session

/-- Only suites that were run hold assertions. -/
def Suite.Settled (s : Suite) : Prop :=
  s.ran = false → ∀ x ∈ s.specs, x.assertions = []

namespace Suite

theorem GrowsTo.settled {s s' : Suite} (h : GrowsTo s s') (hs : s.Settled) : s'.Settled := by
  intro hr
  rcases h.changed with rfl | hr'
  · exact hs hr
  · rw [hr'] at hr
    cases hr

theorem settled_absorb {s t : Suite} (ht : ∀ x ∈ t.specs, x.assertions = []) (hs : s.Settled) :
    (s.absorb t).Settled := by
  intro hr
  rw [absorb_eq] at hr
  exact assertions_of_mem_absorb (hs hr) ht

end Suite

theorem Catalogue.GrowsTo.settled {c c' : Catalogue} (h : c.GrowsTo c')
    (hc : ∀ e ∈ c, e.2.Settled) : ∀ e ∈ c', e.2.Settled := by
  induction h with
  | nil => exact hc
  | cons he _ ih =>
    intro e hm
    rcases List.mem_cons.1 hm with rfl | hm
    · exact he.2.settled (hc _ List.mem_cons_self)
    · exact ih (fun e he => hc e (List.mem_cons_of_mem _ he)) e hm

/-! ### Sessions -/

namespace Driven

variable {σ : Type}

/-- What has become of a session behind runs. -/
structure Grows (p p' : Driven σ) : Prop where
  catalogue : p.catalogue.GrowsTo p'.catalogue
  appends : Appends p.stats p'.stats p.catalogue.specs p'.catalogue.specs

theorem Grows.refl (p : Driven σ) : Grows p p :=
  ⟨.refl _, .refl _ _⟩

theorem Grows.trans {p q s : Driven σ} (h : Grows p q) (h' : Grows q s) : Grows p s :=
  ⟨h.catalogue.trans h'.catalogue, h.appends.trans h'.appends⟩

variable (exec : Executor σ)

theorem grows_apply (p : Driven σ) {o : Operation} (ho : o.isRun = true) :
    Grows p (p.apply exec o).1 := by
  cases o with
  | run =>
    obtain ⟨hc, ha⟩ := appends_runCatalogue exec p.registry p.catalogue p.state p.stats
    exact ⟨hc, ha.toAppends⟩
  | runSuite d =>
    cases hd : p.catalogue.suite? d with
    | none =>
      rw [apply_runSuite_unknown exec p hd]
      exact .refl p
    | some suite =>
      obtain ⟨hg, ha⟩ := growsTo_runSuite exec p.registry suite p.state p.stats
      rw [apply_runSuite exec p hd]
      exact ⟨Catalogue.growsTo_set hd hg, Catalogue.appends_set hd ha⟩
  | _ => cases ho

/-- Runs in a row, whether they fail or not. -/
theorem grows_applyAll (p : Driven σ) {os : List Operation} (ho : ∀ o ∈ os, o.isRun = true) :
    Grows p (p.applyAll exec os) := by
  induction os generalizing p with
  | nil => exact .refl p
  | cons o os ih =>
    exact (grows_apply exec p (ho o List.mem_cons_self)).trans
      (ih _ fun o ho' => ho o (List.mem_cons_of_mem _ ho'))

theorem apply_of_not_isRun (p : Driven σ) {o : Operation} (ho : o.isRun = false) :
    (p.apply exec o).1 = { p with session := (p.session.apply o).1 } := by
  cases o with
  | run => cases ho
  | runSuite d => cases ho
  | _ => rfl

variable {exec} {p : Driven σ}

/-- What is true at the start and stays true in every operation is true of all sessions. -/
theorem Reachable.induction {P : Driven σ → Prop} (h : p.Reachable exec)
    (h0 : ∀ q : Driven σ, q.catalogue = [] → q.stats = {} → P q)
    (hstep : ∀ q o, P q → P (q.apply exec o).1) : P p := by
  obtain ⟨config, sources, s, state, os, hs, rfl⟩ := h
  have hstart : P ⟨s, state⟩ := h0 _ (Session.start_eq hs).1 (Session.start_eq hs).2
  generalize (⟨s, state⟩ : Driven σ) = q at hstart ⊢
  induction os generalizing q with
  | nil => exact hstart
  | cons o os ih => exact ih _ (hstep q o hstart)

/-- Only suites that were run hold assertions, whatever was done before. -/
theorem Reachable.settled (h : p.Reachable exec) : ∀ e ∈ p.catalogue, e.2.Settled := by
  refine h.induction (P := fun q => ∀ e ∈ q.catalogue, e.2.Settled)
    (fun q hq _ e he => by rw [hq] at he; cases he) fun q o hq => ?_
  cases ho : o.isRun with
  | true => exact (grows_apply exec q ho).catalogue.settled hq
  | false =>
    rw [apply_of_not_isRun exec q ho]
    exact Session.forall_suites_apply (fun d _ x hx => nomatch hx)
      (fun s t ht => Suite.settled_absorb ht) ho hq

/-- Passes and failures are the assertions that the specs hold, whatever was done before. -/
theorem Reachable.counts (h : p.Reachable exec) :
    p.stats.passes = (assertionsOf p.catalogue.specs).countP (·.passed) ∧
      p.stats.failures = (assertionsOf p.catalogue.specs).countP (!·.passed) := by
  refine h.induction (P := fun q =>
    q.stats.passes = (assertionsOf q.catalogue.specs).countP (·.passed) ∧
      q.stats.failures = (assertionsOf q.catalogue.specs).countP (!·.passed))
    (fun q hc ht => by rw [hc, ht]; exact ⟨rfl, rfl⟩) fun q o hq => ?_
  cases ho : o.isRun with
  | true =>
    obtain ⟨hp, hf⟩ := hq
    obtain ⟨-, hp', hf', -⟩ := (grows_apply exec q ho).appends
    exact ⟨by omega, by omega⟩
  | false =>
    rw [apply_of_not_isRun exec q ho]
    show (q.session.apply o).1.stats.passes = _ ∧ (q.session.apply o).1.stats.failures = _
    rw [(Session.extends_apply q.session ho).1]
    simp only [catalogue, Session.assertionsOf_apply q.session ho]
    exact hq

variable (exec)

/-- **Runs only append**, whatever runs the bodies and wherever the runs stop.  Behind any runs the
suites stand where they stood with the specs and hooks that they had, a suite that was run stays so,
and each spec holds what it held, with what is new behind it; what is new is counted by its outcome,
and no count decreases.  So no assertion changes, and a spec that failed does not recover.  Whatever
else is done to a session, only suites that were run hold assertions. -/
theorem runs_append :
    (∀ (p : Driven σ) (selections : List (Option String)),
      let p' := p.applyAll exec (selections.map Operation.runOf)
      p.catalogue.GrowsTo p'.catalogue ∧
        Appends p.stats p'.stats p.catalogue.specs p'.catalogue.specs ∧
        List.Forall₂ (fun x x' =>
          (∀ (i : Nat) (a : Assertion), x.assertions[i]? = some a → x'.assertions[i]? = some a) ∧
            (x.status = .failed → x'.status = .failed))
          p.catalogue.specs p'.catalogue.specs) ∧
    ∀ p : Driven σ, p.Reachable exec →
      ∀ s ∈ p.catalogue.suites, ∀ x ∈ s.specs, x.assertions ≠ [] → s.ran = true := by
  constructor
  · intro p selections p'
    have hruns : ∀ o ∈ selections.map Operation.runOf, o.isRun = true := by
      intro o ho
      obtain ⟨suite?, -, rfl⟩ := List.mem_map.1 ho
      exact Operation.isRun_runOf suite?
    obtain ⟨hc, ha⟩ := grows_applyAll exec p hruns
    exact ⟨hc, ha, ha.specs.imp fun x x' hx => ⟨fun i a => hx.getElem?, hx.failed⟩⟩
  · intro p hp s hs x hx hne
    obtain ⟨e, he, rfl⟩ := List.mem_map.1 hs
    cases hr : e.2.ran with
    | true => rfl
    | false => exact absurd (hp.settled e he hr x hx) hne

end Driven

end SpecEngine
