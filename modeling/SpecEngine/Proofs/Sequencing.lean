import SpecEngine.Proofs.Continuation
import SpecEngine.Proofs.Effects
import SpecEngine.Proofs.Expansion

/-!
# Bodies one behind the other

A body that is made of two others on lines of their own does what the two do one after the other, in
the same environment, if the first does not fail.

* `Trail.behind`: a trail behind assertions that were made before; `evalExpr_behind`,
  `runStatements_behind`: evaluation does not look at them;
* `runStatements_outcome_append`: statements one behind the other;
* `Context.execute`: a body in the place of a spec or a hook; `runSpec_eq_execute`,
  `runHook_eq_execute`: runs execute bodies like that;
* `execute_joined`: two bodies on lines of their own.
-/

namespace SpecEngine

/-! ### Assertions made before -/

namespace Trail

/-- A trail behind assertions that were made before. -/
def behind (log : List Assertion) (t : Trail) : Trail :=
  { t with log := log ++ t.log }

theorem record_behind (log : List Assertion) (t : Trail) (a : Assertion) :
    (t.behind log).record a = (t.record a).behind log := by
  simp only [behind, record, List.append_assoc]

end Trail

namespace Body

open Trail (behind)

variable {n : Nat}

/-- A run behind assertions that were made before. -/
def Run.behind (log : List Assertion) (r : Run n) : Run n :=
  { r with trail := r.trail.behind log }

theorem assert_behind (judge : Judge) (matcher : String) (actual expected : Value) (negate : Bool)
    (log : List Assertion) (t : Trail) :
    assert judge matcher actual expected negate (t.behind log) =
      Prod.map (behind log) id (assert judge matcher actual expected negate t) := by
  unfold assert
  cases judge matcher actual expected negate with
  | error e => rfl
  | ok a =>
    dsimp only
    rw [Trail.record_behind]
    rfl

mutual

theorem evalExpr_behind (judge : Judge) (scope : Scope) (e : Expr) (log : List Assertion)
    (t : Trail) :
    evalExpr judge scope e (t.behind log) =
      Prod.map (behind log) id (evalExpr judge scope e t) := by
  cases e with
  | undefined | null | bool | number | string | callable =>
    rw [evalExpr, evalExpr]
    rfl
  | name n =>
    rw [evalExpr, evalExpr]
    cases lookup scope n <;> rfl
  | list items =>
    rw [evalExpr, evalItems_behind, evalExpr]
    rcases evalItems judge scope items t with ⟨t₁, e | vs⟩ <;> rfl
  | object fields =>
    rw [evalExpr, evalFields_behind, evalExpr]
    rcases evalFields judge scope fields t with ⟨t₁, e | fs⟩ <;> rfl
  | boxed inner =>
    rw [evalExpr, evalExpr_behind, evalExpr]
    rcases evalExpr judge scope inner t with ⟨t₁, e | v⟩ <;> rfl
  | property target name =>
    rw [evalExpr, evalExpr_behind, evalExpr]
    rcases evalExpr judge scope target t with ⟨t₁, e | v⟩ <;> rfl
  | call target =>
    rw [evalExpr, evalExpr_behind, evalExpr]
    rcases evalExpr judge scope target t with ⟨t₁, e | ⟨v, hv⟩⟩
    · rfl
    · dsimp only [Prod.map, id]
      split
      · rfl
      · next body captured hc =>
        have hrank := Value.rank_of_closure? hc
        rw [runStatements_behind]
        rcases runStatements .ofCallable captured body t₁ with ⟨t₂, scope₂, e | w⟩ <;> rfl
  | assertion actual matcher negate expected =>
    rw [evalExpr, evalExpr_behind, evalExpr]
    rcases evalExpr judge scope actual t with ⟨t₁, e | ⟨a, ha⟩⟩
    · rfl
    · dsimp only [Prod.map, id]
      rw [evalExpected_behind]
      rcases evalExpected judge scope expected t₁ with ⟨t₂, e | x⟩
      · rfl
      · dsimp only [Prod.map, id]
        rw [assert_behind]
        rcases assert judge matcher a x negate t₂ with ⟨t₃, e | passed⟩ <;> rfl
termination_by Value.rankFields scope + e.size
decreasing_by
  all_goals try simp only [Expr.size]
  all_goals omega

theorem evalExpected_behind (judge : Judge) (scope : Scope) (e : Option Expr)
    (log : List Assertion) (t : Trail) :
    evalExpected judge scope e (t.behind log) =
      Prod.map (behind log) id (evalExpected judge scope e t) := by
  cases e with
  | none =>
    rw [evalExpected, evalExpected]
    rfl
  | some e =>
    rw [evalExpected, evalExpr_behind, evalExpected]
    rcases evalExpr judge scope e t with ⟨t₁, e | v⟩ <;> rfl
termination_by Value.rankFields scope + Expr.sizeExpected e
decreasing_by simp only [Expr.sizeExpected]; omega

theorem evalItems_behind (judge : Judge) (scope : Scope) (items : List Expr)
    (log : List Assertion) (t : Trail) :
    evalItems judge scope items (t.behind log) =
      Prod.map (behind log) id (evalItems judge scope items t) := by
  cases items with
  | nil =>
    rw [evalItems, evalItems]
    rfl
  | cons e es =>
    rw [evalItems, evalExpr_behind, evalItems]
    rcases evalExpr judge scope e t with ⟨t₁, e | v⟩
    · rfl
    · dsimp only [Prod.map, id]
      rw [evalItems_behind]
      rcases evalItems judge scope es t₁ with ⟨t₂, e | vs⟩ <;> rfl
termination_by Value.rankFields scope + Expr.sizeItems items
decreasing_by all_goals simp only [Expr.sizeItems]; omega

theorem evalFields_behind (judge : Judge) (scope : Scope) (fields : List (String × Expr))
    (log : List Assertion) (t : Trail) :
    evalFields judge scope fields (t.behind log) =
      Prod.map (behind log) id (evalFields judge scope fields t) := by
  cases fields with
  | nil =>
    rw [evalFields, evalFields]
    rfl
  | cons f fs =>
    obtain ⟨key, e⟩ := f
    rw [evalFields, evalExpr_behind, evalFields]
    rcases evalExpr judge scope e t with ⟨t₁, e | v⟩
    · rfl
    · dsimp only [Prod.map, id]
      rw [evalFields_behind]
      rcases evalFields judge scope fs t₁ with ⟨t₂, e | vs⟩ <;> rfl
termination_by Value.rankFields scope + Expr.sizeFields fields
decreasing_by all_goals simp only [Expr.sizeFields]; omega

theorem runStatement_behind (judge : Judge) (scope : Scope) (s : Statement)
    (log : List Assertion) (t : Trail) :
    runStatement judge scope s (t.behind log) =
      Prod.map (behind log) id (runStatement judge scope s t) := by
  cases s with
  | bind name e | raise e | expr e =>
    rw [runStatement, evalExpr_behind, runStatement]
    rcases evalExpr judge scope e t with ⟨t₁, e | v⟩ <;> rfl
termination_by Value.rankFields scope + s.size
decreasing_by all_goals simp only [Statement.size]; omega

theorem runStatements_behind (judge : Judge) (scope : Scope) (body : List Statement)
    (log : List Assertion) (t : Trail) :
    runStatements judge scope body (t.behind log) =
      (runStatements judge scope body t).behind log := by
  cases body with
  | nil =>
    rw [runStatements, runStatements]
    rfl
  | cons s rest =>
    rw [runStatements, runStatement_behind, runStatements]
    rcases runStatement judge scope s t with ⟨t₁, e | ⟨scope₁, v, hs, hv⟩⟩
    · rfl
    · dsimp only [Prod.map, id]
      split
      · rfl
      · rw [runStatements_behind]
        rfl
termination_by Value.rankFields scope + Statement.sizeAll body
decreasing_by all_goals simp only [Statement.sizeAll]; omega

end

/-! ### Statements one behind the other -/

/-- What a run leaves behind of a body. -/
def Run.outcome (r : Run n) : Outcome where
  environment := ⟨r.scope, r.trail.next⟩
  log := r.trail.log
  failure? :=
    match r.result with
    | .ok _ => none
    | .error e => some e

theorem Run.outcome_widen {m : Nat} (r : Run m) (h : m ≤ n) : (r.widen h).outcome = r.outcome := by
  unfold widen outcome
  cases r.result <;> rfl

theorem run_eq_outcome {judge : Judge} {text : String} {body : List Statement}
    (h : ReadsAs text body) (env : Environment) :
    run judge text env = (runStatements judge env.scope body { next := env.next }).outcome := by
  rw [run, show statements (Shorthand.expand text.toList) = .ok body from h]
  dsimp only
  generalize runStatements judge env.scope body { next := env.next } = r
  obtain ⟨trail, scope, e | v⟩ := r <;> rfl

/-- Goes on with the environment that is left behind, unless there was a failure. -/
def Outcome.andThen (o : Outcome) (f : Environment → Outcome) : Outcome :=
  match o.failure? with
  | some _ => o
  | none => { f o.environment with log := o.log ++ (f o.environment).log }

/-- One statement, and the ones behind it. -/
theorem runStatements_outcome_cons (judge : Judge) (scope : Scope) (s : Statement)
    (rest : List Statement) (t : Trail) :
    (runStatements judge scope (s :: rest) t).outcome =
      match runStatement judge scope s t with
      | (t₁, .error e) => ⟨⟨scope, t₁.next⟩, t₁.log, some e⟩
      | (t₁, .ok step) => (runStatements judge step.scope rest t₁).outcome := by
  rw [runStatements]
  rcases runStatement judge scope s t with ⟨t₁, e | ⟨scope₁, v, hs, hv⟩⟩
  · rfl
  · dsimp only
    split
    · next hrest =>
      rw [List.isEmpty_iff.1 hrest, runStatements]
      rfl
    · rw [Run.outcome_widen]

/-- Statements go on where others ended. -/
theorem runStatements_outcome_append (judge : Judge) (scope : Scope) (body rest : List Statement)
    (t : Trail) :
    (runStatements judge scope (body ++ rest) t).outcome =
      (runStatements judge scope body t).outcome.andThen fun env =>
        (runStatements judge env.scope rest { next := env.next }).outcome := by
  induction body generalizing scope t with
  | nil =>
    have ht : behind t.log { next := t.next } = t := by
      rw [behind, List.append_nil]
    have hrest : runStatements judge scope rest t =
        (runStatements judge scope rest { next := t.next }).behind t.log := by
      rw [← runStatements_behind, ht]
    rw [List.nil_append, hrest, runStatements]
    rfl
  | cons s body ih =>
    rw [List.cons_append, runStatements_outcome_cons, runStatements_outcome_cons]
    rcases runStatement judge scope s t with ⟨t₁, e | step⟩
    · rfl
    · exact ih step.scope t₁

end Body

/-! ### In the place of a spec or a hook -/

theorem Spec.record_append (s : Spec) (log log' : List Assertion) :
    s.record (log ++ log') = (s.record log).record log' := by
  simp only [record, List.append_assoc]

theorem Engine.count_append (e : Engine) (log log' : List Assertion) :
    e.count (log ++ log') = (e.count log).count log' := by
  simp only [count, Stats.countAssertions, List.foldl_append]

namespace Phase

/-- What decides on the assertions of a body. -/
def judge (r : Registry) : Phase → Judge
  | .hook h => .ofHook h
  | .spec _ => r.judge

/-- Keeps the assertions of a body, if there is a spec to keep them. -/
def record (log : List Assertion) : Phase → Phase
  | .hook h => .hook h
  | .spec s => .spec (s.record log)

theorem judge_record (r : Registry) (p : Phase) (log : List Assertion) :
    (p.record log).judge r = p.judge r := by
  cases p <;> rfl

theorem record_append (p : Phase) (log log' : List Assertion) :
    p.record (log ++ log') = (p.record log).record log' := by
  cases p with
  | hook h => rfl
  | spec s => rw [record, Spec.record_append, record, record]

end Phase

/-- Where a body is executed: the spec or hook that it belongs to, the engine, and the environment
of the suite. -/
structure Context where
  phase : Phase
  engine : Engine
  environment : Environment

/-- Executes a body.  Its assertions are kept and counted in any case. -/
def Context.execute (c : Context) (text : String) : Context × Option BodyError :=
  let out := Body.run (c.phase.judge c.engine.registry) text c.environment
  (⟨c.phase.record out.log, c.engine.count out.log, out.environment⟩, out.failure?)

/-- A run executes the body of a spec in the place of the spec. -/
theorem runSpec_eq_execute (r : Registry) (suite : Suite) (s : Spec) (p : Progress Unit) :
    let (c, failure?) := Context.execute ⟨.spec s, ⟨r, p.stats⟩, p.environment⟩ s.body
    ∃ s', c.phase = .spec s' ∧
      runSpec interpreter r suite s p =
        match failure? with
        | some e =>
          (⟨(), c.environment, c.engine.stats⟩, s',
            some (.specFailed suite.description s.description e))
        | none => (⟨(), c.environment, (c.engine.finish s').stats⟩, s', none) := by
  refine ⟨s.record (Body.run r.judge s.body p.environment).log, rfl, ?_⟩
  unfold runSpec interpreter Phase.judge
  dsimp only
  generalize Body.run r.judge s.body p.environment = out
  obtain ⟨env, log, _ | e⟩ := out <;> rfl

/-- A run executes the body of a hook in the place of the hook, and the engine stays as it is. -/
theorem runHook_eq_execute {suite : Suite} {h : Hook} {body : String}
    (hb : suite.hook? h = some body) (e : Engine) (p : Progress Unit) :
    let (c, failure?) := Context.execute ⟨.hook h, e, p.environment⟩ body
    c.engine = e ∧
      runHook interpreter suite h p =
        ({ p with environment := c.environment },
          failure?.map (.hookFailed suite.description h)) := by
  have hlog : (Body.run (.ofHook h) body p.environment).log = [] :=
    List.eq_nil_iff_forall_not_mem.2 fun a ha =>
      Judge.not_makes_ofHook h a (Body.makes_of_mem_log a ha)
  constructor
  · change e.count (Body.run (.ofHook h) body p.environment).log = e
    rw [hlog]
    rfl
  · rw [runHook, hb]
    rfl

namespace Body

theorem run_append {judge : Judge} {text text₁ text₂ : String} {body rest : List Statement}
    (h : ReadsAs text (body ++ rest)) (h₁ : ReadsAs text₁ body) (h₂ : ReadsAs text₂ rest)
    (env : Environment) : run judge text env = (run judge text₁ env).andThen (run judge text₂) := by
  rw [run_eq_outcome h, run_eq_outcome h₁, runStatements_outcome_append]
  congr 1
  funext env
  exact (run_eq_outcome h₂ env).symm

theorem execute_append {text text₁ text₂ : String} {body rest : List Statement}
    (h : ReadsAs text (body ++ rest)) (h₁ : ReadsAs text₁ body) (h₂ : ReadsAs text₂ rest)
    (c : Context) :
    c.execute text =
      match c.execute text₁ with
      | (c₁, some e) => (c₁, some e)
      | (c₁, none) => c₁.execute text₂ := by
  unfold Context.execute
  rw [run_append h h₁ h₂]
  generalize run (c.phase.judge c.engine.registry) text₁ c.environment = out
  obtain ⟨env, log, _ | e⟩ := out
  · dsimp only [Outcome.andThen]
    rw [Phase.judge_record, Phase.record_append, Engine.count_append]
    rfl
  · rfl

/-- **Bodies compose at line breaks**, where the first does not end with a return.  They are brought
to the bracketed form one by one, their statements are read one behind the other if each of them can
be read, and then both are executed one after the other, whatever they are executed for: with the
failure of the first, if it fails, and else with what the second comes to behind it. -/
theorem execute_joined {a : String} (ha : a.toList.getLast? ≠ some '\r') (b : String) :
    Shorthand.expand (a ++ "\n" ++ b).toList =
      Shorthand.expand a.toList ++ '\n' :: Shorthand.expand b.toList ∧
    ∀ body rest, ReadsAs a body → ReadsAs b rest →
      ReadsAs (a ++ "\n" ++ b) (body ++ rest) ∧
      ∀ c : Context,
        c.execute (a ++ "\n" ++ b) =
          match c.execute a with
          | (c₁, some e) => (c₁, some e)
          | (c₁, none) => c₁.execute b := by
  have htext : (a ++ "\n" ++ b).toList = a.toList ++ '\n' :: b.toList := by
    simp
  have hexpand : Shorthand.expand (a ++ "\n" ++ b).toList =
      Shorthand.expand a.toList ++ '\n' :: Shorthand.expand b.toList := by
    rw [htext, Shorthand.expand_append_feed ha]
  refine ⟨hexpand, fun body rest hbody hrest => ?_⟩
  have hjoined : ReadsAs (a ++ "\n" ++ b) (body ++ rest) := by
    rw [ReadsAs, hexpand]
    exact statements_join hbody hrest
  exact ⟨hjoined, execute_append hjoined hbody hrest⟩

/-- A comment at the end of a line, and at the end of the body the word of a failure, which is read
as a name there: the text on the next line is not what the body fails with. -/
theorem execute_joined_raise :
    let a := "let f = -> \x7b raise 'no' \x7d // one\n  f.should_throw_error\n  raise \t"
    let b := "'late'"
    let body : List Statement :=
      [.bind "f" (.callable "-> \x7b raise 'no' \x7d" [.raise (.string "no")]),
        .expr (.assertion (.name "f") "throw_error" false none), .expr (.name "raise")]
    let c : Context := ⟨.spec { description := "text", body := a }, ⟨Standard.registry, {}⟩, {}⟩
    a.toList.getLast? ≠ some '\r' ∧ ReadsAs a body ∧ ReadsAs b [.expr (.string "late")] ∧
      ReadsAs (a ++ "\n" ++ b) (body ++ [.expr (.string "late")]) ∧
      (c.execute (a ++ "\n" ++ b)).2 = some (.unknownName "raise") ∧
      (c.execute (a ++ "\n" ++ b)).1.engine.stats.passes = 1 := by
  intro a b body c
  have ha : a.toList.getLast? ≠ some '\r' := by decide +kernel
  have hbody : ReadsAs a body := by
    unfold ReadsAs a body
    decide +kernel
  have hrest : ReadsAs b [.expr (.string "late")] := by
    unfold ReadsAs b
    decide +kernel
  obtain ⟨hjoined, hexecute⟩ := (execute_joined ha b).2 body _ hbody hrest
  refine ⟨ha, hbody, hrest, hjoined, ?_⟩
  rw [hexecute c]
  decide +kernel

end Body

end SpecEngine
