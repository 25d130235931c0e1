import SpecEngine.Proofs.Independence

/-!
# Histories of sessions

What is done to a session whose bodies any executor runs, one operation after the other.  What
fails as a whole leaves the session as it was, and matchers are registered up to the first
definition that is refused.  So a history goes on as if what failed had never been asked for.

* `Driven`: a session with the state of an executor; `Driven.apply`, `Driven.applyAll`: operations,
  which are those of a session when the executor is the interpreter (`apply_interpreter`);
* `Registry.Registers`, `Registry.accepted`: definitions that are registered in a row, and those
  before the first that is refused; `extend_accepted`, `exists_of_extend`;
* `Event`, `Driven.history`: all that is to be seen of operations in a row;
* `Event.kept?`: an event without what failed in it; `kept?_event`: one operation;
  `history_kept`: operations in a row;
* `failed_leaves_nothing`: all of it.
-/

namespace SpecEngine

open Session (Operation)

/-! ### Definitions in a row -/

namespace Registry

/-- Definitions that are registered one after the other, none of which is refused. -/
inductive Registers : Registry → List (String × String) → Registry → Prop
  | nil (r : Registry) : Registers r [] r
  | cons {r r' r'' : Registry} {name source : String} {ds : List (String × String)}
      (h : r.registerSource name source = .ok r') (hs : Registers r' ds r'') :
      Registers r ((name, source) :: ds) r''

/-- The definitions before the first that is refused. -/
def accepted (r : Registry) : List (String × String) → List (String × String)
  | [] => []
  | (name, source) :: ds =>
    match r.registerSource name source with
    | .ok r' => (name, source) :: accepted r' ds
    | .error _ => []

theorem extend_of_registers {r r' : Registry} {ds : List (String × String)}
    (h : Registers r ds r') : r.extend ds = (r', none) := by
  induction h with
  | nil r => rfl
  | cons h hs ih =>
    rw [extend, h]
    exact ih

theorem registers_accepted (r : Registry) (ds : List (String × String)) :
    Registers r (r.accepted ds) (r.extend ds).1 := by
  induction ds generalizing r with
  | nil => exact .nil r
  | cons d ds ih =>
    obtain ⟨name, source⟩ := d
    rw [accepted, extend]
    cases h : r.registerSource name source with
    | ok r' => exact .cons h (ih r')
    | error e => exact .nil r

/-- The definitions before the first that is refused are all that is registered. -/
theorem extend_accepted (r : Registry) (ds : List (String × String)) :
    r.extend (r.accepted ds) = ((r.extend ds).1, none) :=
  extend_of_registers (registers_accepted r ds)

/-- Definitions fail as the first one that is refused. -/
theorem exists_of_extend {r : Registry} {ds : List (String × String)} {e : MatcherError}
    (h : (r.extend ds).2 = some e) :
    ∃ name source later, ds = r.accepted ds ++ (name, source) :: later ∧
      (r.extend ds).1.registerSource name source = .error e := by
  induction ds generalizing r with
  | nil => cases h
  | cons d ds ih =>
    obtain ⟨name, source⟩ := d
    rw [extend] at h ⊢
    rw [accepted]
    cases hd : r.registerSource name source with
    | ok r' =>
      rw [hd] at h
      obtain ⟨name', source', later, hs, he⟩ := ih h
      exact ⟨name', source', later, congrArg ((name, source) :: ·) hs, he⟩
    | error e' =>
      rw [hd] at h
      cases h
      exact ⟨name, source, ds, rfl, hd⟩

end Registry

/-! ### Operations with an executor -/

/-- A session, and the state of the executor that runs its bodies. -/
structure Driven (σ : Type) where
  session : Session
  state : σ

/-- An operation in a history: what it was done to, how it failed, and what it left behind. -/
structure Event (σ : Type) where
  before : Driven σ
  operation : Operation
  failure? : Option SessionError
  after : Driven σ

namespace Driven

variable {σ : Type}

/-- The matchers of the session. -/
def registry (p : Driven σ) : Registry := p.session.engine.registry

/-- The suites of the session. -/
def catalogue (p : Driven σ) : Catalogue := p.session.catalogue

/-- What the session has counted. -/
def stats (p : Driven σ) : Stats := p.session.stats

/-- The same with another registry. -/
def withRegistry (p : Driven σ) (registry : Registry) : Driven σ :=
  { p with session := { p.session with engine := { p.session.engine with registry } } }

variable (exec : Executor σ)

/-- Runs all suites. -/
def run (p : Driven σ) : Driven σ × Option SessionError :=
  let r := runCatalogue exec p.registry p.catalogue p.state p.stats
  (⟨p.session.leave r.catalogue r.stats, r.state⟩, r.failure?.map .run)

/-- Runs the suite with a description. -/
def runSuite (p : Driven σ) (description : String) : Driven σ × Option SessionError :=
  match p.catalogue.suite? description with
  | none => (p, some (.run (.unknownSuite description)))
  | some suite =>
    let r := SpecEngine.runSuite exec p.registry suite p.state p.stats
    (⟨p.session.leave (Table.set p.catalogue description r.suite) r.stats, r.state⟩,
      r.failure?.map .run)

/-- What an operation leaves behind, and how it failed.  Only runs need the executor. -/
def apply (p : Driven σ) : Operation → Driven σ × Option SessionError
  | .run => p.run exec
  | .runSuite description => p.runSuite exec description
  | o => ({ p with session := (p.session.apply o).1 }, (p.session.apply o).2)

/-- What operations in a row leave behind. -/
def applyAll (p : Driven σ) : List Operation → Driven σ
  | [] => p
  | o :: os => (p.apply exec o).1.applyAll os

/-- An operation as it is seen in a history. -/
def event (p : Driven σ) (o : Operation) : Event σ :=
  ⟨p, o, (p.apply exec o).2, (p.apply exec o).1⟩

/-- All that is to be seen of operations in a row. -/
def history (p : Driven σ) : List Operation → List (Event σ)
  | [] => []
  | o :: os => p.event exec o :: (p.apply exec o).1.history os

/-- What a session has become that was started with an executor, whatever was done to it. -/
def Reachable (p : Driven σ) : Prop :=
  ∃ config sources s state os, Session.start config sources = .ok s ∧
    p = (⟨s, state⟩ : Driven σ).applyAll exec os

/-- With the interpreter, operations are those of a session. -/
theorem apply_interpreter (s : Session) (o : Operation) :
    (⟨s, ()⟩ : Driven Unit).apply interpreter o = (⟨(s.apply o).1, ()⟩, (s.apply o).2) := by
  cases o with
  | runSuite d =>
    simp only [apply, runSuite, Session.apply, Session.runSuite, catalogue]
    cases s.catalogue.suite? d <;> rfl
  | _ => rfl

theorem applyAll_interpreter (s : Session) (os : List Operation) :
    (⟨s, ()⟩ : Driven Unit).applyAll interpreter os = ⟨s.applyAll os, ()⟩ := by
  induction os generalizing s with
  | nil => rfl
  | cons o os ih =>
    rw [applyAll, apply_interpreter]
    exact ih _

end Driven

/-! ### What is left when failures are left out -/

/-- An event without what failed in it: of matchers those before the one that was refused, nothing
of what failed as a whole.  A run that stopped at a body did not fail as a whole. -/
def Event.kept? {σ : Type} (x : Event σ) : Option (Event σ) :=
  match x.operation, x.failure? with
  | _, none => some x
  | .run, some _ => some x
  | .runSuite description, some _ =>
    if (x.before.catalogue.suite? description).isSome then some x else none
  | .addMatchers ds, some _ =>
    some { x with operation := .addMatchers (x.before.registry.accepted ds), failure? := none }
  | _, some _ => none

namespace Driven

variable {σ : Type} (exec : Executor σ) (p : Driven σ)

theorem apply_addMatchers (ds : List (String × String)) :
    p.apply exec (.addMatchers ds) =
      (p.withRegistry (p.registry.extend ds).1, (p.registry.extend ds).2.map .matcher) := rfl

theorem apply_runSuite_unknown {description : String}
    (h : p.catalogue.suite? description = none) :
    p.apply exec (.runSuite description) = (p, some (.run (.unknownSuite description))) := by
  rw [apply, runSuite, h]

theorem apply_runSuite {description : String} {suite : Suite}
    (h : p.catalogue.suite? description = some suite) :
    p.apply exec (.runSuite description) =
      let r := SpecEngine.runSuite exec p.registry suite p.state p.stats
      (⟨p.session.leave (Table.set p.catalogue description r.suite) r.stats, r.state⟩,
        r.failure?.map .run) := by
  rw [apply, runSuite, h]

/-- What can fail as a whole leaves nothing behind when it fails. -/
theorem apply_eq_self {o : Operation}
    (ho : (∃ source, o = .parse source) ∨ (∃ path, o = .load path) ∨
      ∃ name d, o = .register name d) (h : (p.apply exec o).2 ≠ none) :
    (p.apply exec o).1 = p := by
  have hstay : ∀ x, (p.session.orStay x).2 ≠ none → (p.session.orStay x).1 = p.session := by
    intro x hx
    cases x with
    | ok s => exact absurd rfl hx
    | error e => rfl
  have hs : (p.session.apply o).1 = p.session := by
    rcases ho with ⟨source, rfl⟩ | ⟨path, rfl⟩ | ⟨name, d, rfl⟩ <;> exact hstay _ h
  have hp : (p.apply exec o).1 = { p with session := (p.session.apply o).1 } := by
    rcases ho with ⟨source, rfl⟩ | ⟨path, rfl⟩ | ⟨name, d, rfl⟩ <;> rfl
  rw [hp, hs]

/-- An operation is kept as one that leaves the same behind, or else it left nothing behind. -/
theorem kept?_event (o : Operation) :
    ((p.event exec o).kept? = none ∧ (p.apply exec o).1 = p) ∨
      ∃ o', (p.event exec o).kept? = some (p.event exec o') ∧
        (p.apply exec o').1 = (p.apply exec o).1 := by
  have hkeep : (p.event exec o).kept? = some (p.event exec o) →
      ∃ o', (p.event exec o).kept? = some (p.event exec o') ∧
        (p.apply exec o').1 = (p.apply exec o).1 := fun h => ⟨o, h, rfl⟩
  cases hf : (p.apply exec o).2 with
  | none => exact Or.inr (hkeep (by simp [Event.kept?, event, hf]))
  | some e =>
    have hne : (p.apply exec o).2 ≠ none := by simp [hf]
    cases o with
    | parse source =>
      exact Or.inl ⟨by simp [Event.kept?, event, hf],
        apply_eq_self exec p (Or.inl ⟨source, rfl⟩) hne⟩
    | load path =>
      exact Or.inl ⟨by simp [Event.kept?, event, hf],
        apply_eq_self exec p (Or.inr (Or.inl ⟨path, rfl⟩)) hne⟩
    | register name d =>
      exact Or.inl ⟨by simp [Event.kept?, event, hf],
        apply_eq_self exec p (Or.inr (Or.inr ⟨name, d, rfl⟩)) hne⟩
    | addMatchers ds =>
      -- the definitions before the refused one, by themselves, are all registered
      have ha : p.apply exec (.addMatchers (p.registry.accepted ds)) =
          ((p.apply exec (.addMatchers ds)).1, none) := by
        rw [apply_addMatchers, Registry.extend_accepted]
        rfl
      refine Or.inr ⟨.addMatchers (p.registry.accepted ds), ?_, by rw [ha]⟩
      simp [Event.kept?, event, hf, ha]
    | run => exact Or.inr (hkeep (by simp [Event.kept?, event, hf]))
    | runSuite d =>
      cases hd : p.catalogue.suite? d with
      | none =>
        refine Or.inl ⟨by simp [Event.kept?, event, hf, hd], ?_⟩
        rw [apply_runSuite_unknown exec p hd]
      | some suite => exact Or.inr (hkeep (by simp [Event.kept?, event, hf, hd]))

/-- What is kept of operations in a row, done by itself, is seen as it was, and leaves the same
behind. -/
theorem history_kept (os : List Operation) :
    p.history exec (((p.history exec os).filterMap Event.kept?).map Event.operation) =
        (p.history exec os).filterMap Event.kept? ∧
      p.applyAll exec (((p.history exec os).filterMap Event.kept?).map Event.operation) =
        p.applyAll exec os := by
  induction os generalizing p with
  | nil => exact ⟨rfl, rfl⟩
  | cons o os ih =>
    obtain ⟨hh, ha⟩ := ih (p.apply exec o).1
    rw [history, applyAll]
    rcases kept?_event exec p o with ⟨hk, hp⟩ | ⟨o', hk, hp⟩
    · rw [List.filterMap_cons_none hk]
      rw [hp] at hh ha ⊢
      exact ⟨hh, ha⟩
    · rw [List.filterMap_cons_some hk]
      have ho : (p.event exec o').operation = o' := rfl
      rw [List.map_cons, ho, history, applyAll, hp]
      exact ⟨congrArg (p.event exec o' :: ·) hh, ha⟩

/-- **What fails leaves nothing behind**, whatever runs the bodies.  A spec file that cannot be had
or read, a definition that is refused and a suite that is not there leave the session as it was.  Of
definitions in a row those before the first that is refused are registered, and nothing else is
changed.  All that follows in a history is the same when what failed is left out. -/
theorem failed_leaves_nothing :
    (∀ o, ((∃ source, o = .parse source) ∨ (∃ path, o = .load path) ∨
        ∃ name d, o = .register name d) →
      (p.apply exec o).2 ≠ none → (p.apply exec o).1 = p) ∧
    (∀ description, p.catalogue.suite? description = none →
      p.apply exec (.runSuite description) = (p, some (.run (.unknownSuite description)))) ∧
    (∀ ds e, (p.apply exec (.addMatchers ds)).2 = some e →
      ∃ before name source later r e', ds = before ++ (name, source) :: later ∧
        p.registry.Registers before r ∧ r.registerSource name source = .error e' ∧
        p.apply exec (.addMatchers ds) = (p.withRegistry r, some (.matcher e'))) ∧
    ∀ os, let kept := (p.history exec os).filterMap Event.kept?
      p.history exec (kept.map Event.operation) = kept ∧
        p.applyAll exec (kept.map Event.operation) = p.applyAll exec os := by
  refine ⟨fun o ho => apply_eq_self exec p ho, fun d => apply_runSuite_unknown exec p,
    fun ds e he => ?_, history_kept exec p⟩
  rw [apply_addMatchers] at he
  obtain ⟨e', he', -⟩ := Option.map_eq_some_iff.1 he
  obtain ⟨name, source, later, hs, hd⟩ := Registry.exists_of_extend he'
  refine ⟨_, name, source, later, _, e', hs, Registry.registers_accepted _ _, hd, ?_⟩
  rw [apply_addMatchers, he']
  rfl

end Driven

end SpecEngine
