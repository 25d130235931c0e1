import Mathlib.Data.List.Forall2
import Mathlib.Data.List.Perm.Subperm
import SpecEngine.Proofs.Heap
import SpecEngine.Proofs.Mirroring

/-!
# Equality of structure

Two values are the same if they have the same parts, whichever handles they are seen through.  An
object is the family of its look-ups, whatever the order of its keys.

* `Double.compare_eq_iff`: which doubles are equal; `alike_refl`, `alike_symm`, `alike_trans`: with
  a NaN equal to itself, equality of doubles is an equivalence;
* `same_atom_iff`, `same_number_iff`, `same_list_iff`, `same_object_iff`, `same_boxed_iff`,
  `same_callable_iff`: what is the same as a value of each kind;
* `same_refl`, `same_symm`, `same_trans`: equality of structure is an equivalence;
* `eq_or_number_of_strictEq`: what is strictly equal is one value, or two equal numbers;
* `same_equivalence`: all of it, for the values that live in one heap.
-/

namespace SpecEngine

/-! ### Doubles -/

namespace Double

open Float.Model (UnpackedFloat)

/-- Doubles are equal if they are the same and no NaN; the zeros of both signs are equal, too. -/
theorem compare_eq_iff (x y : UnpackedFloat) :
    x.compare y = some .eq ↔ x.isNaN = false ∧ (x = y ∨ ∃ s t, x = .zero s ∧ y = .zero t) := by
  have hthen : ∀ (d e : Int) (m n : Nat),
      (compare d e).then (compare m n) = .eq ↔ d = e ∧ m = n := by
    intro d e m n
    rw [Ordering.then_eq_eq, compare_eq_iff_eq, compare_eq_iff_eq]
  constructor
  · intro h
    cases x with
    | notANumber => cases h
    | infinity s =>
      cases y with
      | infinity t => cases s <;> cases t <;> first | exact ⟨rfl, .inl rfl⟩ | cases h
      | _ => cases s <;> cases h
    | zero s =>
      cases y with
      | zero t => exact ⟨rfl, .inr ⟨s, t, rfl, rfl⟩⟩
      | infinity t | finite t => cases t <;> cases h
      | notANumber => cases h
    | finite s m d hm =>
      cases y with
      | notANumber => cases h
      | infinity t => cases t <;> cases h
      | zero t => cases s <;> cases h
      | finite t n e hn =>
        cases s <;> cases t
        case negative.negative =>
          obtain ⟨rfl, rfl⟩ := (hthen d e m n).1 (Ordering.swap_inj.1 (Option.some.inj h))
          exact ⟨rfl, .inl rfl⟩
        case positive.positive =>
          obtain ⟨rfl, rfl⟩ := (hthen d e m n).1 (Option.some.inj h)
          exact ⟨rfl, .inl rfl⟩
        all_goals cases h
  · rintro ⟨h, rfl | ⟨s, t, rfl, rfl⟩⟩
    · cases x with
      | notANumber => cases h
      | infinity s => cases s <;> rfl
      | zero s => rfl
      | finite s m d hm =>
        have hself := (hthen d d m m).2 ⟨rfl, rfl⟩
        cases s
        · exact congrArg (fun o => some (Ordering.swap o)) hself
        · exact congrArg some hself
    · rfl

/-- Doubles are alike if they are equal or no numbers. -/
def Alike (x y : Float) : Prop :=
  (x == y) = true ∨ x.isNaN = true ∧ y.isNaN = true

variable {x y z : Float}

theorem beq_iff_unpack : (x == y) = true ↔
    x.isNaN = false ∧ (x.toModel.unpack = y.toModel.unpack ∨
      ∃ s t, x.toModel.unpack = .zero s ∧ y.toModel.unpack = .zero t) :=
  (beq_iff x y).trans (compare_eq_iff _ _)

theorem alike_refl (x : Float) : Alike x x := by
  cases h : x.isNaN with
  | true => exact .inr ⟨h, h⟩
  | false => exact .inl (beq_iff_unpack.2 ⟨h, .inl rfl⟩)

theorem alike_symm (h : Alike x y) : Alike y x :=
  h.imp (fun h => beq_comm y x ▸ h) And.symm

theorem beq_trans (hxy : (x == y) = true) (hyz : (y == z) = true) : (x == z) = true := by
  obtain ⟨hx, hxy⟩ := beq_iff_unpack.1 hxy
  obtain ⟨-, hyz⟩ := beq_iff_unpack.1 hyz
  refine beq_iff_unpack.2 ⟨hx, ?_⟩
  rcases hxy with hxy | ⟨s, t, hs, ht⟩
  · rw [hxy]
    exact hyz
  · rcases hyz with hyz | ⟨-, u, -, hu⟩
    · exact .inr ⟨s, t, hs, hyz ▸ ht⟩
    · exact .inr ⟨s, u, hs, hu⟩

theorem alike_trans (hxy : Alike x y) (hyz : Alike y z) : Alike x z := by
  have hnumber : ∀ {a b : Float}, (a == b) = true → a.isNaN = false := fun h =>
    (beq_iff_unpack.1 h).1
  rcases hxy with hxy | ⟨hx, hy⟩ <;> rcases hyz with hyz | ⟨hy', hz⟩
  · exact .inl (beq_trans hxy hyz)
  · rw [hnumber (beq_comm y x ▸ hxy)] at hy'
    cases hy'
  · rw [hnumber hyz] at hy
    cases hy
  · exact .inr ⟨hx, hz⟩

end Double

namespace Value

open Double (Alike)

/-! ### What is the same as a value -/

theorem same_atom_iff {a b : Value} (ha : a.isAtom = true) : a.same b = true ↔ a = b := by
  cases a with
  | undefined | null | bool | string | type => cases b <;> simp [same, strictEq]
  | _ => cases ha

theorem same_number_iff {x : Float} {b : Value} :
    (number x).same b = true ↔ ∃ y, b = .number y ∧ Alike x y := by
  cases b <;> simp [same, strictEq, Alike]

theorem same_boxed_iff {a b : Value} :
    (boxed a).same b = true ↔ ∃ c, b = .boxed c ∧ a.same c = true := by
  cases b <;> simp [same, strictEq]

theorem same_callable_iff {i : Nat} {source : String} {body : List Statement}
    {scope : List (String × Value)} {b : Value} :
    (callable i source body scope).same b = true ↔
      ∃ source' body' scope', b = .callable i source' body' scope' := by
  cases b with
  | callable j => simpa [same, strictEq] using eq_comm
  | _ => simp [same, strictEq]

theorem sameItems_iff {as bs : List Value} :
    sameItems as bs = true ↔ List.Forall₂ (fun a b => a.same b = true) as bs := by
  induction as generalizing bs with
  | nil => cases bs <;> simp [sameItems]
  | cons a as ih => cases bs <;> simp [sameItems, ih]

/-- Lists are the same item by item. -/
theorem same_list_iff {i : Nat} {as : List Value} {b : Value} :
    (list i as).same b = true ↔
      ∃ j bs, b = .list j bs ∧ List.Forall₂ (fun a b => a.same b = true) as bs := by
  cases b <;> simp [same, strictEq, sameItems_iff]

theorem sameFields_iff {fs gs : List (String × Value)} :
    sameFields fs gs = true ↔
      ∀ e ∈ fs, ∃ b, Table.find? gs e.1 = some b ∧ e.2.same b = true := by
  induction fs with
  | nil => simp [sameFields]
  | cons e fs ih =>
    obtain ⟨k, a⟩ := e
    rw [sameFields, Bool.and_eq_true, ih, List.forall_mem_cons]
    cases Table.find? gs k <;> simp

/-- Two tables have the same keys, and the same value under each of them. -/
structure SameLookups (fs gs : Table String Value) : Prop where
  keys : ∀ k, k ∈ Table.keys fs ↔ k ∈ Table.keys gs
  values : ∀ k a b, Table.find? fs k = some a → Table.find? gs k = some b → a.same b = true

theorem sameLookups_iff {fs gs : Table String Value} (hf : (Table.keys fs).Nodup)
    (hg : (Table.keys gs).Nodup) :
    (fs.length == gs.length && sameFields fs gs) = true ↔ SameLookups fs gs := by
  have hlength : ∀ t : Table String Value, (Table.keys t).length = t.length := fun t =>
    List.length_map _
  rw [Bool.and_eq_true, beq_iff_eq, sameFields_iff]
  constructor
  · rintro ⟨hlen, hfields⟩
    have hsub : Table.keys fs ⊆ Table.keys gs := by
      intro k hk
      obtain ⟨e, he, rfl⟩ := List.mem_map.1 hk
      obtain ⟨b, hb, -⟩ := hfields e he
      exact List.mem_map.2 ⟨(e.1, b), Table.mem_of_find? hb, rfl⟩
    -- the second table has no more keys, so it has the same ones
    have hperm : (Table.keys fs).Perm (Table.keys gs) :=
      (hf.subperm hsub).perm_of_length_le (by rw [hlength, hlength, hlen])
    refine ⟨fun k => hperm.mem_iff, fun k a b ha hb => ?_⟩
    obtain ⟨x, hx, hax⟩ := hfields (k, a) (Table.mem_of_find? ha)
    rw [hb] at hx
    cases hx
    exact hax
  · intro h
    have hperm : (Table.keys fs).Perm (Table.keys gs) := (List.perm_ext_iff_of_nodup hf hg).2 h.keys
    refine ⟨by rw [← hlength, ← hlength, hperm.length_eq], fun e he => ?_⟩
    obtain ⟨⟨k, b⟩, hb, hk⟩ := List.mem_map.1 ((h.keys e.1).1 (List.mem_map_of_mem he))
    have hfind : Table.find? gs e.1 = some b := hk ▸ Table.find?_of_mem hg hb
    exact ⟨b, hfind, h.values e.1 e.2 b (Table.find?_of_mem hf he) hfind⟩

/-- Objects are the same if all look-ups are. -/
theorem same_object_iff {i : Nat} {fs : List (String × Value)} {b : Value} {w w' : Heap}
    (ha : (object i fs).Lives w) (hb : b.Lives w') :
    (object i fs).same b = true ↔ ∃ j gs, b = .object j gs ∧ SameLookups fs gs := by
  obtain ⟨-, hf, -⟩ := lives_object_iff.1 ha
  cases b with
  | object j gs =>
    obtain ⟨-, hg, -⟩ := lives_object_iff.1 hb
    rw [same, sameLookups_iff hf hg]
    simp
  | _ => simp [same, strictEq]

/-! ### Equivalence -/

section

variable {w w' w'' : Heap} {a b c : Value}

theorem same_refl (ha : a.Lives w) : a.same a = true := by
  -- as in all that follows, by induction on the value and with the law for its kind
  induction ha with
  | atom h => exact (same_atom_iff h).2 rfl
  | number x => exact same_number_iff.2 ⟨x, rfl, Double.alike_refl x⟩
  | list _ _ ih => exact same_list_iff.2 ⟨_, _, rfl, List.forall₂_same.2 ih⟩
  | object stands keys parts ih =>
    have hlive := lives_object_iff.2 ⟨stands, keys, parts⟩
    refine (same_object_iff hlive hlive).2 ⟨_, _, rfl, fun k => Iff.rfl, fun k x y hx hy => ?_⟩
    rw [hx] at hy
    cases hy
    exact ih (k, x) (Table.mem_of_find? hx)
  | boxed _ ih => exact same_boxed_iff.2 ⟨_, rfl, ih⟩
  | callable => exact same_callable_iff.2 ⟨_, _, _, rfl⟩

theorem same_symm (ha : a.Lives w) (hb : b.Lives w') (h : a.same b = true) : b.same a = true := by
  induction ha generalizing b with
  | atom ha =>
    obtain rfl := (same_atom_iff ha).1 h
    exact h
  | number x =>
    obtain ⟨y, rfl, hxy⟩ := same_number_iff.1 h
    exact same_number_iff.2 ⟨x, rfl, Double.alike_symm hxy⟩
  | list _ _ ih =>
    obtain ⟨j, bs, rfl, hitems⟩ := same_list_iff.1 h
    obtain ⟨hlength, hget⟩ := List.forall₂_iff_get.1 hitems
    obtain ⟨-, hbs⟩ := lives_list_iff.1 hb
    refine same_list_iff.2 ⟨_, _, rfl, List.forall₂_iff_get.2 ⟨hlength.symm, fun k hk hk' => ?_⟩⟩
    exact ih _ (List.get_mem _ _) (hbs _ (List.get_mem _ _)) (hget k hk' hk)
  | object stands keys parts ih =>
    have ha := lives_object_iff.2 ⟨stands, keys, parts⟩
    obtain ⟨j, gs, rfl, hfg⟩ := (same_object_iff ha hb).1 h
    obtain ⟨-, -, hgs⟩ := lives_object_iff.1 hb
    refine (same_object_iff hb ha).2 ⟨_, _, rfl, fun k => (hfg.keys k).symm, fun k x y hx hy => ?_⟩
    exact ih (k, y) (Table.mem_of_find? hy) (hgs (k, x) (Table.mem_of_find? hx))
      (hfg.values k y x hy hx)
  | boxed _ ih =>
    obtain ⟨c, rfl, hac⟩ := same_boxed_iff.1 h
    exact same_boxed_iff.2 ⟨_, rfl, ih (lives_boxed_iff.1 hb) hac⟩
  | callable =>
    obtain ⟨_, _, _, rfl⟩ := same_callable_iff.1 h
    exact same_callable_iff.2 ⟨_, _, _, rfl⟩

theorem same_trans (ha : a.Lives w) (hb : b.Lives w') (hc : c.Lives w'')
    (hab : a.same b = true) (hbc : b.same c = true) : a.same c = true := by
  induction ha generalizing b c with
  | atom ha =>
    obtain rfl := (same_atom_iff ha).1 hab
    exact hbc
  | number x =>
    obtain ⟨y, rfl, hxy⟩ := same_number_iff.1 hab
    obtain ⟨z, rfl, hyz⟩ := same_number_iff.1 hbc
    exact same_number_iff.2 ⟨z, rfl, Double.alike_trans hxy hyz⟩
  | list _ _ ih =>
    obtain ⟨j, bs, rfl, hitems⟩ := same_list_iff.1 hab
    obtain ⟨k, cs, rfl, hitems'⟩ := same_list_iff.1 hbc
    obtain ⟨-, hbs⟩ := lives_list_iff.1 hb
    obtain ⟨-, hcs⟩ := lives_list_iff.1 hc
    obtain ⟨hlength, hget⟩ := List.forall₂_iff_get.1 hitems
    obtain ⟨hlength', hget'⟩ := List.forall₂_iff_get.1 hitems'
    refine same_list_iff.2 ⟨k, cs, rfl,
      List.forall₂_iff_get.2 ⟨hlength.trans hlength', fun n hn hn' => ?_⟩⟩
    exact ih _ (List.get_mem _ _) (hbs _ (List.get_mem _ _)) (hcs _ (List.get_mem _ _))
      (hget n hn (hlength ▸ hn)) (hget' n (hlength ▸ hn) hn')
  | object stands keys parts ih =>
    have ha := lives_object_iff.2 ⟨stands, keys, parts⟩
    obtain ⟨j, gs, rfl, hfg⟩ := (same_object_iff ha hb).1 hab
    obtain ⟨k, hs, rfl, hgh⟩ := (same_object_iff hb hc).1 hbc
    obtain ⟨-, hgkeys, hgs⟩ := lives_object_iff.1 hb
    obtain ⟨-, -, hhs⟩ := lives_object_iff.1 hc
    refine (same_object_iff ha hc).2
      ⟨k, hs, rfl, fun k => (hfg.keys k).trans (hgh.keys k), fun k x z hx hz => ?_⟩
    -- the key stands in the object between as well
    have hkey := (hgh.keys k).2 (List.mem_map_of_mem (Table.mem_of_find? hz))
    obtain ⟨⟨k, y⟩, hy, rfl⟩ := List.mem_map.1 hkey
    have hfind := Table.find?_of_mem hgkeys hy
    exact ih (k, x) (Table.mem_of_find? hx) (hgs (k, y) hy) (hhs (k, z) (Table.mem_of_find? hz))
      (hfg.values k x y hx hfind) (hgh.values k y z hfind hz)
  | boxed _ ih =>
    obtain ⟨y, rfl, hxy⟩ := same_boxed_iff.1 hab
    obtain ⟨z, rfl, hyz⟩ := same_boxed_iff.1 hbc
    exact same_boxed_iff.2 ⟨z, rfl, ih (lives_boxed_iff.1 hb) (lives_boxed_iff.1 hc) hxy hyz⟩
  | callable =>
    obtain ⟨_, _, _, rfl⟩ := same_callable_iff.1 hab
    exact same_callable_iff.2 (same_callable_iff.1 hbc)

theorem same_comm (ha : a.Lives w) (hb : b.Lives w') : a.same b = b.same a :=
  Bool.eq_iff_iff.2 ⟨same_symm ha hb, same_symm hb ha⟩

/-! ### Identity -/

/-- What is strictly equal in one heap is one value, or two equal numbers. -/
theorem eq_or_number_of_strictEq (ha : a.Lives w) (hb : b.Lives w) (h : a.strictEq b = true) :
    a = b ∨ ∃ x y, a = .number x ∧ b = .number y ∧ (x == y) = true := by
  -- what stands in a heap under one number is one value
  have hone : ∀ {i : Nat}, w[i]? = some a → w[i]? = some b → a = b := fun h h' =>
    Option.some.inj (h.symm.trans h')
  cases ha with
  | @atom a ha =>
    cases a with
    | undefined | null | bool | string | type => cases b <;> simp_all [strictEq]
    | _ => cases ha
  | number x =>
    cases b with
    | number y => exact .inr ⟨x, y, rfl, rfl, h⟩
    | _ => cases h
  | boxed => cases b <;> cases h
  | list stands =>
    cases b with
    | list j bs =>
      obtain rfl := eq_of_beq h
      exact .inl (hone stands (lives_list_iff.1 hb).1)
    | _ => cases h
  | object stands =>
    cases b with
    | object j gs =>
      obtain rfl := eq_of_beq h
      exact .inl (hone stands (lives_object_iff.1 hb).1)
    | _ => cases h
  | callable stands =>
    cases b with
    | callable j =>
      obtain rfl := eq_of_beq h
      cases hb with
      | atom hb => cases hb
      | callable stands' => exact .inl (hone stands stands')
    | _ => cases h

/-- What is strictly equal is the same. -/
theorem same_of_strictEq (ha : a.Lives w) (hb : b.Lives w) (h : a.strictEq b = true) :
    a.same b = true := by
  rcases eq_or_number_of_strictEq ha hb h with rfl | ⟨x, y, rfl, rfl, hxy⟩
  · exact same_refl ha
  · exact same_number_iff.2 ⟨y, rfl, .inl hxy⟩

/-- **Equality of structure is an equivalence that respects identity.**  For all values there are,
however deeply they are nested: a value is the same as itself, a NaN in it included; which value
comes first makes no difference; and what is the same as a third value is the same.  Lists are
compared item by item in their order, objects key by key, whatever the order of the keys.  What is
strictly equal in one heap is the same; a box is strictly equal to nothing but itself, seen through
one handle.  All values that bodies bind or assert one after the other live in one heap. -/
theorem same_equivalence (ha : a.Lives w) (hb : b.Lives w') (hc : c.Lives w'') :
    a.same a = true ∧ a.same b = b.same a ∧
      (a.same b = true → b.same c = true → a.same c = true) ∧
      (∀ i j as bs, a = .list i as → b = .list j bs →
        (a.same b = true ↔ List.Forall₂ (fun x y => x.same y = true) as bs)) ∧
      (∀ i j fs gs, a = .object i fs → b = .object j gs →
        (a.same b = true ↔ SameLookups fs gs)) ∧
      (b.Lives w → a.strictEq b = true → a.same b = true) ∧
      ∀ env log, Environment.Reached env log → ∃ w', (∀ e ∈ env.scope, e.2.Lives w') ∧
        ∀ x ∈ log, x.actual.Lives w' ∧ x.expected.Lives w' := by
  refine ⟨same_refl ha, same_comm ha hb, same_trans ha hb hc, ?_, ?_,
    fun hb => same_of_strictEq ha hb, ?_⟩
  · rintro i j as bs rfl rfl
    exact sameItems_iff
  · rintro i j fs gs rfl rfl
    exact sameLookups_iff (lives_object_iff.1 ha).2.1 (lives_object_iff.1 hb).2.1
  · intro env log h
    obtain ⟨w', henv, hlog⟩ := h.exists_heap
    exact ⟨w', henv.scope, hlog⟩

end

/-- Two objects that share a list with a NaN, and have their keys in different orders. -/
theorem same_equivalence_shared :
    let x := list 0 [.number Double.nan]
    let a := object 1 [("k", x), ("l", .null)]
    let b := object 2 [("l", .null), ("k", x)]
    let w : Heap := [x, a, b]
    a.Lives w ∧ b.Lives w ∧ x.Lives w ∧ a.same a = true ∧ a.same b = true ∧ b.same a = true := by
  intro x a b w
  have hx : x.Lives w := lives_list_iff.2 ⟨rfl, by
    rintro v hv
    rw [List.mem_singleton.1 hv]
    exact .number _⟩
  have ha : a.Lives w := lives_object_iff.2 ⟨rfl, by decide, by
    simpa using ⟨hx, .atom rfl⟩⟩
  have hb : b.Lives w := lives_object_iff.2 ⟨rfl, by decide, by
    simpa using ⟨.atom rfl, hx⟩⟩
  obtain ⟨hself, hcomm, -, -, hobject, -⟩ := same_equivalence ha hb hx
  have hfind : ∀ k,
      Table.find? [("k", x), ("l", null)] k = Table.find? [("l", null), ("k", x)] k := by
    intro k
    by_cases hk : "k" = k
    · subst hk
      rfl
    · simp [Table.find?, hk]
  have hsame : a.same b = true := by
    refine (hobject 1 2 _ _ rfl rfl).2 ⟨fun k => by simp [Table.keys, or_comm], ?_⟩
    intro k u v hu hv
    rw [hfind, hv] at hu
    cases hu
    exact same_refl ((lives_object_iff.1 hb).2.2 (k, u) (Table.mem_of_find? hv))
  exact ⟨ha, hb, hx, hself, hsame, hcomm ▸ hsame⟩

end Value

end SpecEngine
