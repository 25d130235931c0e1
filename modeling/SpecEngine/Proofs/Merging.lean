import SpecEngine.Proofs.Contents

/-!
# Merging catalogues

What it takes to add a catalogue that was itself filled bit by bit: its changes can be made before
it is added or behind it.

* `Catalogue.Proper`: catalogues in which no description and no hook of a suite stands twice;
  `proper_update`: the changes that keep them so;
* `forall_mem_update`, `forall_mem_merge`: what is true of all suites, and kept;
* `Suite.absorb_assoc`: adding two suites one after the other, or the second to the first before;
* `merge_update_absorb`: a suite is added to a catalogue before the catalogue is merged, or behind;
  `merge_assoc`: so merging is associative.
-/

namespace SpecEngine

theorem Table.setAll_setAll {κ α : Type} [DecidableEq κ] {u : Table κ α} (hu : (keys u).Nodup)
    (t : Table κ α) (l : List (κ × α)) : setAll t (setAll u l) = setAll (setAll t u) l := by
  induction l generalizing u with
  | nil => rfl
  | cons e l ih =>
    have hs : (keys (set u e.1 e.2)).Nodup := keys_nodup_upsert hu _ _
    rw [setAll_cons, ih hs, setAll_set hu, setAll_cons]

namespace Suite

theorem owned_append (d : String) (l m : List Spec) : owned d (l ++ m) = owned d l ++ owned d m :=
  List.map_append

theorem owned_owned (d e : String) (l : List Spec) : owned d (owned e l) = owned d l := by
  simp [owned]

/-- A suite that was added to another one before is added with it. -/
theorem absorb_assoc {t : Suite} (ht : (Table.keys t.hooks).Nodup) (s u : Suite) :
    s.absorb (t.absorb u) = (s.absorb t).absorb u := by
  rw [absorb_eq t, absorb_eq s, absorb_eq (s.absorb t), absorb_eq s, owned_append, owned_owned,
    Table.setAll_setAll ht, List.append_assoc]

end Suite

namespace Catalogue

/-- Catalogues in which no description and no hook of a suite stands twice. -/
structure Proper (c : Catalogue) : Prop where
  keys : (Table.keys c).Nodup
  hooks : ∀ e ∈ c, (Table.keys e.2.hooks).Nodup

theorem proper_nil : Proper [] :=
  ⟨List.nodup_nil, fun _ h => nomatch h⟩

/-- What is true of all suites under their descriptions stays true behind a change that keeps it. -/
theorem forall_mem_update {P : String → Suite → Prop} {d : String} {f : Suite → Suite}
    (hf : ∀ s, P d s → P d (f s)) {c : Catalogue} (h0 : P d { description := d })
    (hc : ∀ e ∈ c, P e.1 e.2) : ∀ e ∈ c.update d f, P e.1 e.2 :=
  Table.forall_mem_upsert hf (hf _ h0) hc

/-- What is true of new suites and stays true where suites are added is true of all suites. -/
theorem forall_mem_merge {P : String → Suite → Prop} (h0 : ∀ d, P d { description := d })
    {d : Catalogue} (hd : ∀ e ∈ d, ∀ s, P e.1 s → P e.1 (s.absorb e.2)) {c : Catalogue}
    (hc : ∀ e ∈ c, P e.1 e.2) : ∀ e ∈ c.merge d, P e.1 e.2 := by
  unfold merge
  induction d generalizing c with
  | nil => exact hc
  | cons x d ih =>
    exact ih (fun e he => hd e (List.mem_cons_of_mem _ he))
      (forall_mem_update (hd x List.mem_cons_self) (h0 x.1) hc)

theorem proper_update {c : Catalogue} (hc : c.Proper) (d : String) (s : Suite) :
    (c.update d fun t => t.absorb s).Proper where
  keys := Table.keys_nodup_upsert hc.keys _ _
  hooks := by
    refine forall_mem_update (P := fun _ t => (Table.keys t.hooks).Nodup) (fun t ht => ?_)
      List.nodup_nil hc.hooks
    rw [Suite.absorb_eq]
    exact Table.keys_nodup_setAll ht _

theorem keys_nodup_merge {c : Catalogue} (hc : (Table.keys c).Nodup) (d : Catalogue) :
    (Table.keys (c.merge d)).Nodup := by
  unfold merge
  induction d generalizing c with
  | nil => exact hc
  | cons e d ih => exact ih (Table.keys_nodup_upsert hc _ _)

theorem update_comm {j k : String} (h : j ≠ k) (f g : Suite → Suite) {c : Catalogue}
    (hk : k ∈ Table.keys c) : (c.update j f).update k g = (c.update k g).update j f :=
  Table.upsert_comm h _ _ hk

theorem mem_keys_update_self (c : Catalogue) (d : String) (f : Suite → Suite) :
    d ∈ Table.keys (c.update d f) := by
  rw [update, Table.keys_upsert]
  split
  · assumption
  · simp

theorem mem_keys_update {c : Catalogue} {d : String} (h : d ∈ Table.keys c) (e : String)
    (f : Suite → Suite) : d ∈ Table.keys (c.update e f) := by
  rw [update, Table.keys_upsert]
  split
  · exact h
  · exact List.mem_append_left _ h

/-- A suite that has its place can be changed before others are merged. -/
theorem update_merge_of_notMem {d : String} (f : Suite → Suite) {b : Catalogue}
    (hb : d ∉ Table.keys b) {a : Catalogue} (ha : d ∈ Table.keys a) :
    (a.merge b).update d f = (a.update d f).merge b := by
  induction b generalizing a with
  | nil => rfl
  | cons e b ih =>
    simp only [Table.keys, List.map_cons, List.mem_cons, not_or] at hb
    have hstep : ∀ c : Catalogue,
        c.merge (e :: b) = (c.update e.1 fun s => s.absorb e.2).merge b := fun _ => rfl
    rw [hstep, hstep, ih hb.2 (mem_keys_update ha _ _), update_comm (Ne.symm hb.1) _ _ ha]

/-- A suite is added to a catalogue before the catalogue is merged, or behind. -/
theorem merge_update_absorb {b : Catalogue} (hb : b.Proper) (a : Catalogue) (d : String)
    (s : Suite) :
    a.merge (b.update d fun t => t.absorb s) = (a.merge b).update d fun t => t.absorb s := by
  obtain ⟨hkeys, hhooks⟩ := hb
  induction b generalizing a with
  | nil =>
    have hnew : ∀ t : Suite, t.absorb (({ description := d } : Suite).absorb s) = t.absorb s := by
      intro t
      rw [Suite.absorb_assoc (t := { description := d }) List.nodup_nil, Suite.absorb_eq t]
      simp [Suite.owned]
    show (a.update d fun t => t.absorb (({ description := d } : Suite).absorb s)) = _
    simp only [hnew]
    rfl
  | cons e b ih =>
    obtain ⟨j, t⟩ := e
    simp only [Table.keys, List.map_cons, List.nodup_cons] at hkeys
    have ht := hhooks (j, t) (by simp)
    by_cases hj : j = d
    · -- the description stands nowhere else in `b`, so its suite is whole before the rest
      subst hj
      have hu : update ((j, t) :: b) j (fun x => x.absorb s) = (j, t.absorb s) :: b := by
        simp [update, Table.upsert]
      rw [hu]
      show (a.update j fun x => x.absorb (t.absorb s)).merge b =
        ((a.update j fun x => x.absorb t).merge b).update j fun x => x.absorb s
      rw [update_merge_of_notMem _ hkeys.1 (mem_keys_update_self a j _), update_update]
      simp only [Suite.absorb_assoc ht, Function.comp_def]
    · have hu : update ((j, t) :: b) d (fun x => x.absorb s) =
          (j, t) :: update b d fun x => x.absorb s := by simp [update, Table.upsert, hj]
      rw [hu]
      exact ih _ hkeys.2 fun e he => hhooks e (List.mem_cons_of_mem _ he)

/-- Merging two catalogues one after the other, or the second into the first before. -/
theorem merge_assoc {b : Catalogue} (hb : b.Proper) (a c : Catalogue) :
    a.merge (b.merge c) = (a.merge b).merge c := by
  induction c generalizing b with
  | nil => rfl
  | cons e c ih =>
    show a.merge ((b.update e.1 fun s => s.absorb e.2).merge c) = _
    rw [ih (proper_update hb e.1 e.2), merge_update_absorb hb]
    rfl

end Catalogue

end SpecEngine
