import SpecEngine.Engine
import SpecEngine.Proofs.Aliases

/-!
# Registering a matcher anew

What a registration changes in a registry that is there already.  A name is *visited* by the names
whose aliases lead to it, itself among them, whether it is bound or not.  Only these see the new
definition, and they all see it in the same way: as what the name itself now stands for.

* `Reachable`: the registries that changes lead to;
* `Visits.total`, `EndsAt.eq`, `resolve_of_visits`: there is one way on from a name, so that the
  names on it have one end and stand for one rule;
* `visits_set`, `endsAt_set`: what a registration does to the ways;
* `AssertsAs`, `assertsAs_of_endsAt`: an assertion with an alias and one with the name at its end;
* `register_disturbs`: all of it, for every registry that can be reached.
-/

namespace SpecEngine

open Relation

namespace Registry

/-- Some changes in a row, whether they fail or not, lead to the registry. -/
def Reachable (r : Registry) : Prop :=
  ∃ standard changes, r = (initial standard).applyAll changes

/-- A name is on the way of the aliases from another one, or at its end. -/
def Visits (r : Registry) (name x : String) : Prop :=
  ReflTransGen r.Leads name x

/-! ### Registries that can be reached -/

theorem applyAll_append (r : Registry) (changes more : List Change) :
    r.applyAll (changes ++ more) = (r.applyAll changes).applyAll more := by
  induction changes generalizing r with
  | nil => rfl
  | cons c changes ih => exact ih (r.apply c).1

theorem Reachable.apply {r : Registry} (hr : r.Reachable) (c : Change) :
    (r.apply c).1.Reachable := by
  obtain ⟨standard, changes, rfl⟩ := hr
  exact ⟨standard, changes ++ [c], (applyAll_append _ changes [c]).symm⟩

theorem Reachable.register {r r' : Registry} (hr : r.Reachable) {x : String} {d : Definition}
    (h : r.register x d = .ok r') : r'.Reachable := by
  have hc : (r.apply (.register x d)).1 = r' := by rw [Registry.apply, h, orStay]
  exact hc ▸ hr.apply (.register x d)

theorem Reachable.acyclic {r : Registry} (hr : r.Reachable) : r.Acyclic := by
  obtain ⟨standard, changes, rfl⟩ := hr
  exact acyclic_applyAll (acyclic_initial standard) changes

/-! ### The way on from a name -/

section

variable {r : Registry} {name last x y : String}

theorem Visits.total (hx : r.Visits name x) (hy : r.Visits name y) :
    r.Visits x y ∨ r.Visits y x :=
  ReflTransGen.total_of_right_unique (fun _ _ _ => Leads.eq) hx hy

/-- From the end there is no way on. -/
theorem EndsAt.eq_of_visits (h : r.EndsAt name last) (hx : r.Visits last x) : x = last :=
  (reflTransGen_iff_eq h.2).1 hx

/-- Each name on the way has the same end. -/
theorem EndsAt.of_visits (h : r.EndsAt name last) (hx : r.Visits name x) : r.EndsAt x last := by
  refine ⟨?_, h.2⟩
  rcases Visits.total hx h.1 with hl | hl
  · exact hl
  · rw [h.eq_of_visits hl]

theorem EndsAt.eq (hx : r.EndsAt name x) (hy : r.EndsAt name y) : x = y :=
  (hx.eq_of_visits (hy.of_visits hx.1).1).symm

/-- What a name stands for is told by what is at its end. -/
theorem resolve_of_endsAt (hr : r.Acyclic) (h : r.EndsAt name last) :
    (∃ rule, Table.find? r last = some (.rule rule) ∧ r.resolve name = .ok rule) ∨
      (Table.find? r last = none ∧ r.resolve name = .error (.unknown last)) := by
  obtain ⟨end', hend, hres⟩ := resolve_of_acyclic hr name
  rw [h.eq hend]
  exact hres

/-- Names with one end stand for the same. -/
theorem resolve_eq_of_endsAt {r' : Registry} (hr : r.Acyclic) (hr' : r'.Acyclic)
    (hx : r.EndsAt x last) (hy : r'.EndsAt y last)
    (hd : Table.find? r' last = Table.find? r last) : r'.resolve y = r.resolve x := by
  rcases resolve_of_endsAt hr hx with ⟨rule, hl, hx⟩ | ⟨hl, hx⟩ <;>
    rcases resolve_of_endsAt hr' hy with ⟨rule', hl', hy⟩ | ⟨hl', hy⟩ <;>
    rw [hd, hl] at hl' <;> cases hl' <;> rw [hx, hy]

theorem resolve_of_visits (hr : r.Acyclic) (h : r.Visits name x) :
    r.resolve name = r.resolve x := by
  obtain ⟨last, hend, -⟩ := resolve_of_acyclic hr name
  exact resolve_eq_of_endsAt hr hr (hend.of_visits h) hend rfl

end

/-! ### A registration and the ways -/

section

variable {r : Registry} {name last x : String} {d : Definition}

theorem eq_set_of_register {r' : Registry} (h : r.register x d = .ok r') :
    r' = Table.set r x d := by
  rw [register] at h
  split at h
  · cases h
  · cases h
    rfl

/-- The way up to a name does not go through its own definition. -/
theorem visits_set (h : r.Visits name x) : Visits (Table.set r x d) name x := by
  induction h using ReflTransGen.head_induction_on with
  | refl => exact .refl
  | @head a b hab _ ih =>
    by_cases ha : a = x
    · rw [ha]
      exact .refl
    · exact .head ((leads_set_of_ne ha).2 hab) ih

/-- A way that does not visit a name is there whatever the name stands for. -/
theorem endsAt_set (hx : ¬ r.Visits name x) (h : r.EndsAt name last) :
    EndsAt (Table.set r x d) name last := by
  obtain ⟨hreach, hlast⟩ := h
  have hne : ∀ y, r.Visits name y → y ≠ x := fun y hy hyx => hx (hyx ▸ hy)
  constructor
  · clear hlast
    induction hreach with
    | refl => exact .refl
    | @tail a b hya hab ih => exact ih.tail ((leads_set_of_ne (hne a hya)).2 hab)
  · intro target ht
    exact hlast target ((leads_set_of_ne (hne last hreach)).1 ht)

end

/-! ### Assertions with aliases -/

/-- Assertions with a name have the outcome of the definition under another one: if it is a rule,
they are judged by it, and if there is none, they fail as that name is unknown.  Assertions with the
two names differ only in the name of the matcher and, if the rule brings no message, in the words of
that name in the message. -/
def AssertsAs (r : Registry) (name last : String) : Prop :=
  ∀ actual expected negate,
    (Table.find? r last = none ∧
      r.evaluate last actual expected negate = .error (.unknown last) ∧
      r.evaluate name actual expected negate = .error (.unknown last)) ∨
    ∃ rule a, Table.find? r last = some (.rule rule) ∧
      r.evaluate last actual expected negate = .ok a ∧
      a.passed = (rule.holds expected.unboxed actual.unboxed != negate) ∧
      match rule.message? expected.unboxed actual.unboxed negate with
      | some text => a.message = text ∧
          r.evaluate name actual expected negate = .ok { a with matcher := name }
      | none => a.message = Assertion.sentence last a.actual a.expected negate ∧
          r.evaluate name actual expected negate = .ok { a with
            matcher := name, message := Assertion.sentence name a.actual a.expected negate }

theorem evaluate_of_resolve {r : Registry} {name : String} {rule : Rule}
    (h : r.resolve name = .ok rule) (actual expected : Value) (negate : Bool) :
    r.evaluate name actual expected negate = .ok {
      matcher := name, actual := actual.unboxed, expected := expected.unboxed, negate
      passed := rule.holds expected.unboxed actual.unboxed != negate
      message := (rule.message? expected.unboxed actual.unboxed negate).getD
        (Assertion.sentence name actual.unboxed expected.unboxed negate) } := by
  rw [evaluate, h]

theorem evaluate_of_resolve_error {r : Registry} {name : String} {e : MatcherError}
    (h : r.resolve name = .error e) (actual expected : Value) (negate : Bool) :
    r.evaluate name actual expected negate = .error e := by
  rw [evaluate, h]

theorem assertsAs_of_endsAt {r : Registry} {name last : String} (hr : r.Acyclic)
    (h : r.EndsAt name last) : r.AssertsAs name last := by
  intro actual expected negate
  have hname : r.resolve name = r.resolve last := resolve_of_visits hr h.1
  rcases resolve_of_endsAt hr (h.of_visits h.1) with ⟨rule, hd, hres⟩ | ⟨hd, hres⟩
  · right
    refine ⟨rule, _, hd, evaluate_of_resolve hres actual expected negate, rfl, ?_⟩
    rw [evaluate_of_resolve (hname.trans hres)]
    cases rule.message? expected.unboxed actual.unboxed negate <;> exact ⟨rfl, rfl⟩
  · left
    exact ⟨hd, evaluate_of_resolve_error hres actual expected negate,
      evaluate_of_resolve_error (hname.trans hres) actual expected negate⟩

/-! ### What a registration changes -/

/-- **A registration disturbs only what refers to its name.**  Whatever changes led to a registry,
a name that gets a definition there keeps its place, or goes last if it was not bound; the other
definitions and the order of the names stay.  A name whose aliases do not visit it stands for what
it stood for, and a name whose aliases visit it, be it as the unbound last one, stands for what it
stands for now.  So an assertion with an alias, before as after, has the outcome of the definition
that is then at the end of its aliases. -/
theorem register_disturbs {r r' : Registry} {x : String} {d : Definition} (hr : r.Reachable)
    (h : r.register x d = .ok r') :
    r'.Reachable ∧
    Table.find? r' x = some d ∧
    (∀ name, name ≠ x → Table.find? r' name = Table.find? r name) ∧
    Table.keys r' = (if x ∈ Table.keys r then Table.keys r else Table.keys r ++ [x]) ∧
    (∀ name, ¬ r.Visits name x → r'.resolve name = r.resolve name) ∧
    (∀ name, r.Visits name x → r'.resolve name = r'.resolve x) ∧
    ∀ s ∈ [r, r'], ∀ name, ∃ last, s.EndsAt name last ∧ s.AssertsAs name last := by
  have hacyclic : r.Acyclic := hr.acyclic
  have hreach : r'.Reachable := hr.register h
  have hacyclic' : r'.Acyclic := hreach.acyclic
  obtain rfl := eq_set_of_register h
  refine ⟨hreach, Table.find?_upsert_self r x _, fun name hname => ?_, Table.keys_upsert r x _,
    fun name hname => ?_, fun name hname => ?_, fun s hs name => ?_⟩
  · exact Table.find?_upsert_of_ne r _ hname
  · obtain ⟨last, hend, -⟩ := resolve_of_acyclic hacyclic name
    have hlast : last ≠ x := fun hl => hname (hl ▸ hend.1)
    exact resolve_eq_of_endsAt hacyclic hacyclic' hend (endsAt_set hname hend)
      (Table.find?_upsert_of_ne r _ hlast)
  · exact resolve_of_visits hacyclic' (visits_set hname)
  · have hs : s.Acyclic := by
      rcases List.mem_pair.1 hs with rfl | rfl
      · exact hacyclic
      · exact hacyclic'
    obtain ⟨last, hend, -⟩ := resolve_of_acyclic hs name
    exact ⟨last, hend, assertsAs_of_endsAt hs hend⟩

/-- The standard matcher `eql` becomes an operator, and its alias `be` with it; `be_an`, an alias of
`be_a`, stays what it was. -/
theorem register_disturbs_be :
    let d : Definition := .rule (.operator .strictEqual)
    let r' : Registry := Table.set Standard.registry "eql" d
    Reachable Standard.registry ∧ Standard.registry.register "eql" d = .ok r' ∧
      r'.resolve "be" = r'.resolve "eql" ∧
      r'.resolve "be_an" = Standard.registry.resolve "be_an" := by
  intro d r'
  have hr : Reachable Standard.registry := ⟨true, [], rfl⟩
  have h : Standard.registry.register "eql" d = .ok r' := rfl
  obtain ⟨-, -, -, -, hapart, hthrough, -⟩ := register_disturbs hr h
  refine ⟨hr, h, hthrough "be" (.single rfl), hapart "be_an" fun hv => ?_⟩
  -- the way from `be_an` has the one name `be_a` on it
  have hend : EndsAt Standard.registry "be_an" "be_a" := by
    refine ⟨.single rfl, fun target ht => ?_⟩
    cases ht
  have heql : EndsAt Standard.registry "eql" "eql" := by
    refine ⟨.refl, fun target ht => ?_⟩
    cases ht
  have hsame : "be_a" = "eql" := (hend.of_visits hv).eq heql
  exact absurd hsame (by decide)

end Registry

end SpecEngine
