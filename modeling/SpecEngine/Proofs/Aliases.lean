import Mathlib.Data.List.Chain
import Mathlib.Logic.Relation
import SpecEngine.Matcher.Standard

/-!
# Aliases of matchers

The aliases of a registry as a graph on names.  A registry never gets a cycle: an alias is refused
if and only if it would close one, so a chain of aliases always ends, and looking a matcher up gives
what stands at the end.

* `Leads`, `EndsAt`, `Acyclic`: one alias, a whole chain, and registries without cycles;
* `exists_of_follow_error`, `of_follow_ok`: what `follow` goes through, with a cycle and without;
* `register_aliasOf`, `resolve_of_acyclic`: registering and looking up in a registry without cycles;
* `acyclic_set_rule`, `acyclic_set_aliasOf`, `acyclic_register`, `acyclic_applyAll`: what is done to
  a registry makes no cycle;
* `aliases_safe`: all of it, after any changes in a row.
-/

namespace SpecEngine

open Relation

namespace Table

variable {κ α : Type} [DecidableEq κ]

theorem find?_erase_of_ne {j k : κ} (t : Table κ α) (h : j ≠ k) :
    find? (erase t k) j = find? t j := by
  induction t with
  | nil => rfl
  | cons e t ih =>
    obtain ⟨i, a⟩ := e
    simp only [erase] at ih
    by_cases hi : i = k
    · subst hi
      simpa [erase, find?, h.symm] using ih
    · simpa [erase, find?, hi] using congrArg (fun x => if i = j then some a else x) ih

end Table

namespace Registry

/-- A name is an alias of another one. -/
def Leads (r : Registry) (name target : String) : Prop :=
  Table.find? r name = some (.aliasOf target)

/-- The aliases from a name on end at a name that is no alias. -/
def EndsAt (r : Registry) (name last : String) : Prop :=
  ReflTransGen r.Leads name last ∧ ∀ target, ¬ r.Leads last target

/-- No alias leads back to its own name. -/
def Acyclic (r : Registry) : Prop :=
  ∀ name, ¬ TransGen r.Leads name name

theorem Leads.eq {r : Registry} {name a b : String} (ha : r.Leads name a) (hb : r.Leads name b) :
    a = b := by
  have h := ha.symm.trans hb
  simpa using h

/-- What is reached behind an alias is its name or is reached behind its target. -/
theorem cases_of_leads {r : Registry} {name target x : String} (h : r.Leads name target)
    (hx : ReflTransGen r.Leads name x) : x = name ∨ ReflTransGen r.Leads target x := by
  rcases hx.cases_head with rfl | ⟨y, hy, hyx⟩
  · exact Or.inl rfl
  · exact Or.inr (h.eq hy ▸ hyx)

/-- A chain leads from its first name to its last. -/
theorem reaches_of_isChain {r : Registry} {x y : String} {path : List String}
    (hhead : (path ++ [x]).head? = some y) (h : (path ++ [x]).IsChain r.Leads) :
    ReflTransGen r.Leads y x := by
  obtain ⟨z, zs, hz⟩ : ∃ z zs, path ++ [x] = z :: zs := List.exists_cons_of_ne_nil (by simp)
  rw [hz] at hhead h
  cases hhead
  have hlast : (y :: zs).getLast (List.cons_ne_nil y zs) = x := by simp [← hz]
  exact List.relationReflTransGen_of_exists_isChain_cons zs h hlast

/-- A name that stands twice in a chain leads back to itself. -/
theorem transGen_of_isChain {r : Registry} {x : String} {path : List String} (hx : x ∈ path)
    (h : (path ++ [x]).IsChain r.Leads) : TransGen r.Leads x x := by
  obtain ⟨before, after, rfl⟩ := List.append_of_mem hx
  have hs : (x :: (after ++ [x])).IsChain r.Leads := by
    refine h.suffix ⟨before, ?_⟩
    simp
  rw [List.isChain_cons] at hs
  obtain ⟨y, hy⟩ : ∃ y, (after ++ [x]).head? = some y := by cases after <;> simp
  exact .head' (hs.1 y hy) (reaches_of_isChain hy hs.2)

/-! ### Following aliases -/

section

variable {r r' : Registry} {chain : List String} {name : String}

/-- Behind the names of a chain, the registry without them is the registry. -/
theorem find?_erase_of_notMem (hr : ∀ x ∉ chain, Table.find? r' x = Table.find? r x) :
    ∀ x ∉ chain ++ [name], Table.find? (Table.erase r' name) x = Table.find? r x := by
  intro x hx
  simp only [List.mem_append, List.mem_singleton, not_or] at hx
  rw [Table.find?_erase_of_ne r' hx.2, hr x hx.1]

/-- A chain that comes back to a name is refused as a whole. -/
theorem exists_of_follow_error (hr : ∀ x ∉ chain, Table.find? r' x = Table.find? r x)
    {found : List String} (h : follow r' chain name = .error found) :
    ∃ path x, found = chain ++ (path ++ [x]) ∧ (path ++ [x]).head? = some name ∧
      (path ++ [x]).IsChain r.Leads ∧ x ∈ chain ++ path := by
  fun_induction follow r' chain name with
  | case1 r' chain name hn =>
    cases h
    exact ⟨[], name, rfl, rfl, by simp, by simpa using hn⟩
  | case2 r' chain name hn hf => cases h
  | case3 r' chain name hn rule hf => cases h
  | case4 r' chain name hn target hf ih =>
    obtain ⟨path, x, rfl, hhead, hpath, hx⟩ := ih (find?_erase_of_notMem hr) h
    have hl : r.Leads name target := (hr name hn).symm.trans hf
    refine ⟨name :: path, x, by simp, rfl, ?_, by simpa using hx⟩
    refine hpath.cons fun y hy => ?_
    rw [hhead] at hy
    cases hy
    exact hl

/-- A name that is no alias ends its own chain. -/
theorem endsAt_self {rule? : Option Rule} (h : Table.find? r name = rule?.map .rule) :
    r.EndsAt name name := by
  refine ⟨.refl, fun target hl => ?_⟩
  have h := h.symm.trans hl
  cases rule? <;> simp at h

/-- A chain that comes back to no name is gone through to its end. -/
theorem of_follow_ok (hr : ∀ x ∉ chain, Table.find? r' x = Table.find? r x)
    {found : String × Option Rule} (h : follow r' chain name = .ok found) :
    r.EndsAt name found.1 ∧ Table.find? r found.1 = found.2.map .rule ∧
      ∀ x, ReflTransGen r.Leads name x → x ∉ chain := by
  fun_induction follow r' chain name with
  | case1 r' chain name hn => cases h
  | case2 r' chain name hn hf =>
    cases h
    have hd : Table.find? r name = (none : Option Rule).map .rule := (hr name hn).symm.trans hf
    refine ⟨endsAt_self hd, hd, fun x hx => ?_⟩
    rw [reflTransGen_iff_eq (endsAt_self hd).2] at hx
    exact hx ▸ hn
  | case3 r' chain name hn rule hf =>
    cases h
    have hd : Table.find? r name = (some rule).map .rule := (hr name hn).symm.trans hf
    refine ⟨endsAt_self hd, hd, fun x hx => ?_⟩
    rw [reflTransGen_iff_eq (endsAt_self hd).2] at hx
    exact hx ▸ hn
  | case4 r' chain name hn target hf ih =>
    obtain ⟨⟨hreach, hlast⟩, hd, hx⟩ := ih (find?_erase_of_notMem hr) h
    have hl : r.Leads name target := (hr name hn).symm.trans hf
    refine ⟨⟨.head hl hreach, hlast⟩, hd, fun x hnx => ?_⟩
    rcases cases_of_leads hl hnx with rfl | htx
    · exact hn
    · exact fun hc => hx x htx (List.mem_append_left _ hc)

end

/-! ### Registries without cycles -/

section

variable {r : Registry}

/-- An alias is refused if and only if its name is reached from its target, and what is reported is
the cycle that it would have closed. -/
theorem register_aliasOf (hr : r.Acyclic) (name target : String) :
    (ReflTransGen r.Leads target name ∧ ∃ between,
        (between ++ [name]).head? = some target ∧ (between ++ [name]).IsChain r.Leads ∧
        r.register name (.aliasOf target) = .error (.aliasCycle (name :: (between ++ [name])))) ∨
      (¬ ReflTransGen r.Leads target name ∧
        r.register name (.aliasOf target) = .ok (Table.set r name (.aliasOf target))) := by
  rw [register, cycle?]
  cases hf : follow r [name] target with
  | error found =>
    left
    obtain ⟨path, x, rfl, hhead, hpath, hx⟩ := exists_of_follow_error (fun _ _ => rfl) hf
    -- only the new name can stand twice in the chain
    obtain rfl : x = name := by
      rcases List.mem_cons.1 hx with hx | hx
      · exact hx
      · exact absurd (transGen_of_isChain hx hpath) (hr x)
    exact ⟨reaches_of_isChain hhead hpath, path, hhead, hpath, rfl⟩
  | ok found =>
    right
    obtain ⟨-, -, hx⟩ := of_follow_ok (fun _ _ => rfl) hf
    exact ⟨fun h => hx name h (by simp), rfl⟩

/-- A name stands for the rule at the end of its aliases; if there is none, the name there is
unknown. -/
theorem resolve_of_acyclic (hr : r.Acyclic) (name : String) :
    ∃ last, r.EndsAt name last ∧
      ((∃ rule, Table.find? r last = some (.rule rule) ∧ r.resolve name = .ok rule) ∨
        (Table.find? r last = none ∧ r.resolve name = .error (.unknown last))) := by
  unfold resolve
  cases hf : follow r [] name with
  | error found =>
    obtain ⟨path, x, -, -, hpath, hx⟩ := exists_of_follow_error (fun _ _ => rfl) hf
    exact absurd (transGen_of_isChain hx hpath) (hr x)
  | ok found =>
    obtain ⟨last, rule?⟩ := found
    obtain ⟨hend, hd, -⟩ := of_follow_ok (fun _ _ => rfl) hf
    refine ⟨last, hend, ?_⟩
    cases rule? with
    | none => exact Or.inr ⟨hd, rfl⟩
    | some rule => exact Or.inl ⟨rule, hd, rfl⟩

theorem leads_set_of_ne {d : Definition} {name a b : String} (ha : a ≠ name) :
    Leads (Table.set r name d) a b ↔ r.Leads a b := by
  rw [Leads, Table.set, Table.find?_upsert_of_ne _ _ ha, Leads]

theorem leads_set_self {d : Definition} {name target : String} :
    Leads (Table.set r name d) name target ↔ d = .aliasOf target := by
  rw [Leads, Table.set, Table.find?_upsert_self, Option.some.injEq]

/-- A rule in the place of whatever was there makes no cycle. -/
theorem acyclic_set_rule (hr : r.Acyclic) (name : String) (rule : Rule) :
    Acyclic (Table.set r name (.rule rule)) := by
  have hl : ∀ a b, Leads (Table.set r name (.rule rule)) a b → r.Leads a b := by
    intro a b h
    by_cases ha : a = name
    · subst ha
      exact nomatch leads_set_self.1 h
    · exact (leads_set_of_ne ha).1 h
  exact fun x hx => hr x (TransGen.mono hl x x hx)

/-- An alias whose name is not reached from its target makes no cycle. -/
theorem acyclic_set_aliasOf (hr : r.Acyclic) {name target : String}
    (h : ¬ ReflTransGen r.Leads target name) : Acyclic (Table.set r name (.aliasOf target)) := by
  -- what the target reached before is all that it reaches now
  have hold : ∀ x, ReflTransGen (Leads (Table.set r name (.aliasOf target))) target x →
      ReflTransGen r.Leads target x := by
    intro x hx
    induction hx with
    | refl => exact .refl
    | tail _ hyz ih =>
      refine ih.tail ((leads_set_of_ne ?_).1 hyz)
      rintro rfl
      exact h ih
  -- a way either was there before, or takes the new alias
  have hnew : ∀ x y, TransGen (Leads (Table.set r name (.aliasOf target))) x y →
      TransGen r.Leads x y ∨
        ReflTransGen (Leads (Table.set r name (.aliasOf target))) x name ∧
          ReflTransGen (Leads (Table.set r name (.aliasOf target))) target y := by
    intro x y hxy
    induction hxy with
    | @single z hz =>
      by_cases hx : x = name
      · subst hx
        cases leads_set_self.1 hz
        exact Or.inr ⟨.refl, .refl⟩
      · exact Or.inl (.single ((leads_set_of_ne hx).1 hz))
    | @tail y z hxy hz ih =>
      rcases ih with ih | ⟨hn, ht⟩
      · by_cases hy : y = name
        · subst hy
          cases leads_set_self.1 hz
          exact Or.inr ⟨hxy.to_reflTransGen, .refl⟩
        · exact Or.inl (ih.tail ((leads_set_of_ne hy).1 hz))
      · exact Or.inr ⟨hn, ht.tail hz⟩
  intro x hx
  rcases hnew x x hx with hx | ⟨hn, ht⟩
  · exact hr x hx
  · exact h (hold name (ht.trans hn))

theorem acyclic_register (hr : r.Acyclic) {name : String} {d : Definition} {r' : Registry}
    (h : r.register name d = .ok r') : r'.Acyclic := by
  cases d with
  | rule rule =>
    cases h
    exact acyclic_set_rule hr name rule
  | aliasOf target =>
    rcases register_aliasOf hr name target with ⟨-, between, -, -, he⟩ | ⟨ht, ho⟩
    · cases he.symm.trans h
    · cases ho.symm.trans h
      exact acyclic_set_aliasOf hr ht

theorem acyclic_registerSource (hr : r.Acyclic) {name source : String} {r' : Registry}
    (h : r.registerSource name source = .ok r') : r'.Acyclic := by
  unfold registerSource at h
  split at h
  · exact acyclic_register hr h
  · cases h

theorem acyclic_extend (hr : r.Acyclic) (definitions : List (String × String)) :
    (r.extend definitions).1.Acyclic := by
  induction definitions generalizing r with
  | nil => exact hr
  | cons e definitions ih =>
    obtain ⟨name, source⟩ := e
    rw [extend]
    split
    · next r' h => exact ih (acyclic_registerSource hr h)
    · exact hr

end

/-! ### Changes of registries -/

/-- What can be done to a registry. -/
inductive Change
  | register (name : String) (d : Definition)
  | registerSource (name source : String)
  | extend (definitions : List (String × String))

/-- The alias that a change is to register, by itself or by its text. -/
def Change.alias? : Change → Option (String × String)
  | .register name (.aliasOf target) => some (name, target)
  | .registerSource name source =>
    match Definition.read source with
    | .ok (.aliasOf target) => some (name, target)
    | _ => none
  | _ => none

/-- A registry is left as it was by what fails as a whole. -/
def orStay (r : Registry) : Except MatcherError Registry → Registry × Option MatcherError
  | .ok r' => (r', none)
  | .error e => (r, some e)

/-- The registry that a change leaves behind, and how the change failed. -/
def apply (r : Registry) : Change → Registry × Option MatcherError
  | .register name d => r.orStay (r.register name d)
  | .registerSource name source => r.orStay (r.registerSource name source)
  | .extend definitions => r.extend definitions

theorem apply_of_alias? {r : Registry} {c : Change} {name target : String}
    (h : c.alias? = some (name, target)) :
    r.apply c = r.orStay (r.register name (.aliasOf target)) := by
  cases c with
  | register name d =>
    cases d with
    | aliasOf target =>
      cases h
      rfl
    | rule rule => cases h
  | registerSource name source =>
    rw [Change.alias?] at h
    rw [apply, registerSource]
    cases hd : Definition.read source with
    | error e => simp [hd] at h
    | ok d =>
      cases d with
      | aliasOf target =>
        rw [hd] at h
        cases h
        rfl
      | rule rule => simp [hd] at h
  | extend definitions => cases h

/-- The registry after changes in a row, whether they fail or not. -/
def applyAll (r : Registry) : List Change → Registry
  | [] => r
  | c :: cs => (r.apply c).1.applyAll cs

/-- The registries that changes start from: the standard matchers, or none. -/
def initial (standard : Bool) : Registry :=
  if standard then Standard.registry else []

/-- The aliases among the standard matchers lead to rules. -/
theorem acyclic_initial (standard : Bool) : (initial standard).Acyclic := by
  have hl : ∀ a b, (initial standard).Leads a b → ∀ c, ¬ (initial standard).Leads b c := by
    intro a b hab c hbc
    cases standard with
    | false => cases hab
    | true =>
      have hm := Table.mem_of_find? hab
      have hab : a = "be" ∧ b = "eql" ∨ a = "be_an" ∧ b = "be_a" := by
        simpa [initial, Standard.registry, Standard.predicate, Standard.formula] using hm
      rcases hab with ⟨-, rfl⟩ | ⟨-, rfl⟩ <;> cases hbc
  intro x hx
  obtain ⟨y, hxy, hyx⟩ := TransGen.head'_iff.1 hx
  rcases hyx.cases_head with rfl | ⟨z, hyz, -⟩
  · exact hl y y hxy y hxy
  · exact hl x y hxy z hyz

theorem acyclic_apply {r : Registry} (hr : r.Acyclic) (c : Change) : (r.apply c).1.Acyclic := by
  cases c with
  | register name d =>
    rw [apply]
    cases h : r.register name d with
    | ok r' => exact acyclic_register hr h
    | error e => exact hr
  | registerSource name source =>
    rw [apply]
    cases h : r.registerSource name source with
    | ok r' => exact acyclic_registerSource hr h
    | error e => exact hr
  | extend definitions => exact acyclic_extend hr definitions

theorem acyclic_applyAll {r : Registry} (hr : r.Acyclic) (changes : List Change) :
    (r.applyAll changes).Acyclic := by
  induction changes generalizing r with
  | nil => exact hr
  | cons c changes ih => exact ih (acyclic_apply hr c)

/-- **Aliases are safe**, whatever was done to a registry before.  There are no cycles.  An alias is
refused for a cycle if and only if its target is its name or leads to it, and the chain that is
reported is the cycle that it would have closed.  What fails leaves the registry as it was.  Each
name stands for the rule at the end of its aliases, or else the name there is unknown. -/
theorem aliases_safe (standard : Bool) (changes : List Change) :
    let r := (initial standard).applyAll changes
    r.Acyclic ∧
    (∀ c name target, Change.alias? c = some (name, target) →
      ((∃ chain, (r.apply c).2 = some (.aliasCycle chain)) ↔
        target = name ∨ TransGen r.Leads target name) ∧
      ∀ chain, (r.apply c).2 = some (.aliasCycle chain) →
        ∃ between, chain = name :: (between ++ [name]) ∧
          (between ++ [name]).head? = some target ∧ (between ++ [name]).IsChain r.Leads) ∧
    (∀ c, (∀ definitions, c ≠ .extend definitions) → (r.apply c).2 ≠ none → (r.apply c).1 = r) ∧
    ∀ name, ∃ last, r.EndsAt name last ∧
      ((∃ rule, Table.find? r last = some (.rule rule) ∧ r.resolve name = .ok rule) ∨
        (Table.find? r last = none ∧ r.resolve name = .error (.unknown last))) := by
  intro r
  have hr : r.Acyclic := acyclic_applyAll (acyclic_initial standard) changes
  refine ⟨hr, fun c name target hc => ?_, fun c hc hf => ?_, resolve_of_acyclic hr⟩
  · have hreach : (target = name ∨ TransGen r.Leads target name) ↔
        ReflTransGen r.Leads target name := by
      rw [reflTransGen_iff_eq_or_transGen, eq_comm]
    rw [apply_of_alias? hc, hreach]
    rcases register_aliasOf hr name target with ⟨ht, between, hhead, hpath, he⟩ | ⟨ht, ho⟩
    · rw [he]
      refine ⟨⟨fun _ => ht, fun _ => ⟨_, rfl⟩⟩, fun chain hchain => ?_⟩
      cases hchain
      exact ⟨between, rfl, hhead, hpath⟩
    · rw [ho]
      exact ⟨⟨fun ⟨_, h⟩ => (nomatch h), fun h => absurd h ht⟩, fun _ h => (nomatch h)⟩
  · have hstay : ∀ x, (r.orStay x).2 ≠ none → (r.orStay x).1 = r := by
      intro x hx
      cases x with
      | ok r' => exact absurd rfl hx
      | error e => rfl
    cases c with
    | extend definitions => exact absurd rfl (hc definitions)
    | register name d => exact hstay _ hf
    | registerSource name source => exact hstay _ hf

end Registry

end SpecEngine
