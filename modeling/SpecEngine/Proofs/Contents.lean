import Mathlib.Data.List.Induction
import SpecEngine.Outline.Reader

/-!
# Contents of catalogues

What a catalogue is made of, apart from how it was written down: suites in the order in which they
are named, each with its specs and hook bodies in their order.

* `Table.setAll`: putting pairs one after the other; `setAll_ofList`: doing so in two rounds
  through a table of its own changes nothing;
* `Item`, `Content`, `Catalogue.ofContents`: the catalogue that is had by naming suites and adding
  specs and hook bodies to them one by one;
* `foldl_put`, `absorb_eq`: what a suite is after items are put into it, or another suite is added;
  `assertions_of_mem_owned`: what comes from items has not been run;
* `register_draft`: closing a suite that was filled apart is filling it in its place;
* `keys_ofContents`, `suite?_ofContents`: the suites of `ofContents` and what they hold.
-/

namespace SpecEngine

namespace Table

variable {κ α : Type} [DecidableEq κ]

theorem upsert_upsert (t : Table κ α) (k : κ) (f g : Option α → α) :
    upsert (upsert t k f) k g = upsert t k fun a => g (some (f a)) := by
  induction t with
  | nil => simp [upsert]
  | cons e t ih =>
    obtain ⟨j, a⟩ := e
    by_cases h : j = k <;> simp [upsert, h, ih]

/-- Changes under two keys can be made in either order, once the later one has its place. -/
theorem upsert_comm {j k : κ} (h : j ≠ k) (f g : Option α → α) {t : Table κ α}
    (hk : k ∈ keys t) : upsert (upsert t j f) k g = upsert (upsert t k g) j f := by
  induction t with
  | nil => cases hk
  | cons e t ih =>
    obtain ⟨i, a⟩ := e
    by_cases hik : i = k
    · subst hik
      simp [upsert, Ne.symm h]
    · have ht : k ∈ keys t := by
        rcases List.mem_cons.1 hk with hk | hk
        · exact absurd hk.symm hik
        · exact hk
      by_cases hij : i = j
      · subst hij
        simp [upsert, hik]
      · simp [upsert, hik, hij, ih ht]

/-- Puts pairs into a table, one after the other. -/
def setAll (t : Table κ α) (l : List (κ × α)) : Table κ α :=
  l.foldl (fun t e => set t e.1 e.2) t

@[simp] theorem setAll_nil (t : Table κ α) : setAll t [] = t := rfl

@[simp] theorem setAll_cons (t : Table κ α) (e : κ × α) (l : List (κ × α)) :
    setAll t (e :: l) = setAll (set t e.1 e.2) l := rfl

theorem setAll_append (t : Table κ α) (l m : List (κ × α)) :
    setAll t (l ++ m) = setAll (setAll t l) m := by
  simp [setAll, List.foldl_append]

theorem keys_nodup_setAll {t : Table κ α} (h : (keys t).Nodup) (l : List (κ × α)) :
    (keys (setAll t l)).Nodup := by
  induction l generalizing t with
  | nil => exact h
  | cons e l ih => exact ih (keys_nodup_upsert h _ _)

/-- A value that has its place can be changed before values under other keys are put. -/
theorem setAll_set_of_notMem {k : κ} (a : α) {l : List (κ × α)} (hl : k ∉ l.map Prod.fst)
    {t : Table κ α} (ht : k ∈ keys t) : set (setAll t l) k a = setAll (set t k a) l := by
  induction l generalizing t with
  | nil => rfl
  | cons e l ih =>
    simp only [List.map_cons, List.mem_cons, not_or] at hl
    have hk : k ∈ keys (set t e.1 e.2) := by
      rw [set, keys_upsert]
      split
      · exact ht
      · exact List.mem_append_left _ ht
    rw [setAll_cons, setAll_cons, ih hl.2 hk]
    exact congrArg (setAll · l) (upsert_comm (Ne.symm hl.1) _ _ ht)

theorem setAll_set {u : Table κ α} (hu : (keys u).Nodup) (t : Table κ α) (k : κ) (a : α) :
    setAll t (set u k a) = set (setAll t u) k a := by
  induction u generalizing t with
  | nil => rfl
  | cons e u ih =>
    obtain ⟨j, b⟩ := e
    simp only [keys, List.map_cons, List.nodup_cons] at hu
    by_cases hj : j = k
    · -- the key stands nowhere else in `u`, so its value can be changed before or after the rest
      subst hj
      have hj : j ∈ keys (set t j b) := by
        rw [set, keys_upsert]
        split
        · assumption
        · simp
      rw [setAll_cons, setAll_set_of_notMem a hu.1 hj]
      simp [set, upsert, upsert_upsert]
    · have hs : set ((j, b) :: u) k a = (j, b) :: set u k a := by simp [set, upsert, hj]
      rw [hs, setAll_cons, setAll_cons, ih hu.2]

theorem setAll_ofList (t : Table κ α) (l : List (κ × α)) :
    setAll t (ofList l) = setAll t l := by
  -- from the back: a pair that is put last into the table is put last by the list as well
  induction l using List.reverseRecOn with
  | nil => rfl
  | append_singleton l e ih =>
    have hl : ofList (l ++ [e]) = set (ofList l) e.1 e.2 := setAll_append [] l [e]
    have hn : (keys (ofList l)).Nodup := keys_nodup_setAll (t := []) List.nodup_nil l
    rw [hl, setAll_set hn, ih, setAll_append]
    rfl

end Table

/-- What stands in a suite. -/
inductive Item
  | spec (description body : String)
  | hook (h : Hook) (body : String)
  deriving DecidableEq

namespace Item

/-- The spec that an item is. -/
def spec? : Item → Option Spec
  | .spec description body => some { description, body }
  | .hook .. => none

/-- The hook that an item is, and its body. -/
def hook? : Item → Option (Hook × String)
  | .spec .. => none
  | .hook h body => some (h, body)

/-- Adds a spec, or gives a hook its body. -/
def put (s : Suite) : Item → Suite
  | .spec description body => s.addSpec { description, body }
  | .hook h body => s.setHook h body

end Item

/-- A suite by its description and its items. -/
structure Content where
  description : String
  items : List Item
  deriving DecidableEq

namespace Suite

/-- The specs as those of the suite described by `d`. -/
def owned (d : String) (specs : List Spec) : List Spec :=
  specs.map fun s => { s with suite := d }

/-- Items put into a suite one by one: specs follow in their order, hook bodies take the places
of earlier ones. -/
theorem foldl_put (s : Suite) (items : List Item) :
    items.foldl Item.put s =
      { s with
        specs := s.specs ++ owned s.description (items.filterMap Item.spec?)
        hooks := Table.setAll s.hooks (items.filterMap Item.hook?) } := by
  induction items generalizing s with
  | nil => simp [owned]
  | cons i items ih =>
    rw [List.foldl_cons, ih]
    cases i <;> simp [Item.put, Item.spec?, Item.hook?, addSpec, setHook, owned,
      List.filterMap_cons]

/-- Specs that come from items have not been run. -/
theorem assertions_of_mem_owned {d : String} {items : List Item} {x : Spec}
    (hx : x ∈ owned d (items.filterMap Item.spec?)) : x.assertions = [] := by
  simp only [owned, List.mem_map, List.mem_filterMap] at hx
  obtain ⟨_, ⟨i, -, hi⟩, rfl⟩ := hx
  cases i with
  | spec title body =>
    cases hi
    rfl
  | hook h body => cases hi

theorem foldl_addSpec (s : Suite) (specs : List Spec) :
    specs.foldl addSpec s = { s with specs := s.specs ++ owned s.description specs } := by
  induction specs generalizing s with
  | nil => simp [owned]
  | cons x specs ih =>
    rw [List.foldl_cons, ih]
    simp [addSpec, owned]

theorem foldl_setHook (s : Suite) (hooks : List (Hook × String)) :
    hooks.foldl (fun s e => s.setHook e.1 e.2) s =
      { s with hooks := Table.setAll s.hooks hooks } := by
  induction hooks generalizing s with
  | nil => rfl
  | cons e hooks ih =>
    rw [List.foldl_cons, ih]
    rfl

theorem absorb_eq (s t : Suite) :
    s.absorb t =
      { s with
        specs := s.specs ++ owned s.description t.specs
        hooks := Table.setAll s.hooks t.hooks } := by
  rw [absorb, foldl_setHook, foldl_addSpec]

/-- Adding a suite that was filled apart adds its items. -/
theorem absorb_foldl_put (s : Suite) (d : String) (items : List Item) :
    s.absorb (items.foldl Item.put { description := d }) = items.foldl Item.put s := by
  rw [foldl_put, foldl_put, absorb_eq]
  simp only [List.nil_append]
  congr 1
  · simp [owned]
  · exact Table.setAll_ofList s.hooks _

end Suite

namespace Catalogue

theorem update_update (c : Catalogue) (d : String) (f g : Suite → Suite) :
    (c.update d f).update d g = c.update d (g ∘ f) := by
  rw [update, update, Table.upsert_upsert]
  rfl

/-- Names a suite and adds its items one by one. -/
def putContent (c : Catalogue) (s : Content) : Catalogue :=
  s.items.foldl (fun c i => c.update s.description fun t => i.put t) (c.insert s.description)

/-- The catalogue that is had by naming suites and adding their items one by one. -/
def ofContents (l : List Content) : Catalogue :=
  l.foldl putContent []

theorem foldl_update (c : Catalogue) (d : String) (f : Suite → Suite) (items : List Item) :
    items.foldl (fun c i => c.update d fun t => i.put t) (c.update d f) =
      c.update d fun t => items.foldl Item.put (f t) := by
  induction items generalizing f with
  | nil => rfl
  | cons i items ih =>
    rw [List.foldl_cons, update_update, ih]
    rfl

theorem putContent_eq (c : Catalogue) (s : Content) :
    c.putContent s = c.update s.description fun t => s.items.foldl Item.put t := by
  rw [putContent, insert, foldl_update]
  rfl

theorem keys_putContent (c : Catalogue) (s : Content) :
    Table.keys (c.putContent s) =
      if s.description ∈ Table.keys c then Table.keys c else Table.keys c ++ [s.description] := by
  rw [putContent_eq, update, Table.keys_upsert]

theorem ofContents_append_singleton (l : List Content) (s : Content) :
    ofContents (l ++ [s]) = (ofContents l).putContent s := by
  simp [ofContents, List.foldl_append]

/-- Suites stand where their descriptions are first named. -/
theorem keys_ofContents (l : List Content) :
    Table.keys (ofContents l) = (l.map Content.description).eraseDups := by
  induction l using List.reverseRecOn with
  | nil => rfl
  | append_singleton l s ih =>
    rw [ofContents_append_singleton, keys_putContent, ih, List.map_append, List.eraseDups_append]
    by_cases h : s.description ∈ l.map Content.description
    · simp [List.removeAll, h, -List.mem_map]
    · simp [List.removeAll, h, List.eraseDups_cons, -List.mem_map]

/-- The items that a list of contents gives the suite described by `d`. -/
def itemsOf (l : List Content) (d : String) : List Item :=
  (l.filter fun s => s.description = d).flatMap Content.items

/-- A suite holds the items of all contents with its description, and nothing else. -/
theorem suite?_ofContents (l : List Content) (d : String) :
    (ofContents l).suite? d =
      if d ∈ l.map Content.description then
        some ((itemsOf l d).foldl Item.put { description := d })
      else none := by
  induction l using List.reverseRecOn with
  | nil => rfl
  | append_singleton l s ih =>
    rw [ofContents_append_singleton, putContent_eq, update]
    by_cases h : s.description = d
    · subst h
      simp only [suite?] at ih
      simp only [suite?, Table.find?_upsert_self, ih, itemsOf, List.filter_append,
        List.flatMap_append, List.foldl_append]
      by_cases hl : s.description ∈ l.map Content.description
      · simp [hl, -List.mem_map]
      · have hf : l.filter (fun t => t.description = s.description) = [] := by
          simpa [List.filter_eq_nil_iff] using hl
        simp [hl, hf, -List.mem_map]
    · have hi : itemsOf (l ++ [s]) d = itemsOf l d := by simp [itemsOf, h]
      rw [suite?, Table.find?_upsert_of_ne _ _ (Ne.symm h), hi]
      simpa [suite?, Ne.symm h] using ih

end Catalogue

/-- A suite that was filled apart is closed as if it had been filled in its place. -/
theorem Outline.register_draft (c : Catalogue) (s : Content) :
    Outline.register c (s.items.foldl Item.put { description := s.description }) =
      c.putContent s := by
  have hd : (s.items.foldl Item.put { description := s.description }).description =
      s.description := by rw [Suite.foldl_put]
  rw [Outline.register, hd, Catalogue.putContent_eq]
  simp only [Suite.absorb_foldl_put]

end SpecEngine
