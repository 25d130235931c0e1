/-!
# Tables in the order of insertion

A table is a list of keys with values.  A key keeps the place where it was first put; putting it
again changes the value there.

* `find?`, `upsert`, `set`, `erase`, `ofList`;
* what a change does to look-ups (`find?_upsert_self`, `find?_upsert_of_ne`) and to the keys
  (`keys_upsert`, `keys_nodup_upsert`);
* entries and look-ups (`mem_of_find?`, `find?_of_mem`); what is true of all entries, and kept
  (`forall_mem_upsert`).
-/

namespace SpecEngine

/-- Keys with values, in the order of insertion. -/
abbrev Table (κ α : Type) := List (κ × α)

namespace Table

variable {κ α : Type} [DecidableEq κ]

/-- The value put under `k`. -/
def find? : Table κ α → κ → Option α
  | [], _ => none
  | (j, a) :: t, k => if j = k then some a else find? t k

/-- Changes the value under `k`, or puts a first one at the end. -/
def upsert : Table κ α → κ → (Option α → α) → Table κ α
  | [], k, f => [(k, f none)]
  | (j, a) :: t, k, f => if j = k then (j, f (some a)) :: t else (j, a) :: upsert t k f

/-- Puts `a` under `k`, in the place of an earlier value if there is one. -/
def set (t : Table κ α) (k : κ) (a : α) : Table κ α :=
  upsert t k fun _ => a

/-- The table without the key `k`. -/
def erase (t : Table κ α) (k : κ) : Table κ α :=
  t.filter fun e => e.1 ≠ k

/-- The keys in their order. -/
def keys (t : Table κ α) : List κ :=
  t.map Prod.fst

/-- Whether there is a value under a key. -/
def contains (t : Table κ α) (k : κ) : Bool :=
  (find? t k).isSome

/-- Puts the pairs one after the other: a repeated key keeps its first place and takes its last
value. -/
def ofList (l : List (κ × α)) : Table κ α :=
  l.foldl (fun t e => set t e.1 e.2) []

@[simp] theorem find?_nil (k : κ) : find? ([] : Table κ α) k = none := rfl

theorem find?_cons (j k : κ) (a : α) (t : Table κ α) :
    find? ((j, a) :: t) k = if j = k then some a else find? t k := rfl

theorem find?_upsert_self (t : Table κ α) (k : κ) (f : Option α → α) :
    find? (upsert t k f) k = some (f (find? t k)) := by
  induction t with
  | nil => simp [upsert, find?]
  | cons e t ih =>
    obtain ⟨j, a⟩ := e
    by_cases h : j = k <;> simp [upsert, find?, h, ih]

theorem find?_upsert_of_ne {j k : κ} (t : Table κ α) (f : Option α → α) (h : j ≠ k) :
    find? (upsert t k f) j = find? t j := by
  induction t with
  | nil => simp [upsert, find?, h.symm]
  | cons e t ih =>
    obtain ⟨i, a⟩ := e
    by_cases hi : i = k
    · subst hi; simp [upsert, find?, h.symm]
    · simp [upsert, find?, hi, ih]

theorem find?_eq_none_iff (t : Table κ α) (k : κ) : find? t k = none ↔ k ∉ keys t := by
  induction t with
  | nil => simp [find?, keys]
  | cons e t ih =>
    obtain ⟨j, a⟩ := e
    by_cases h : j = k
    · simp [find?, keys, h]
    · simpa [find?, keys, h, Ne.symm h] using ih

theorem mem_of_find? {t : Table κ α} {k : κ} {a : α} (h : find? t k = some a) : (k, a) ∈ t := by
  induction t with
  | nil => cases h
  | cons e t ih =>
    obtain ⟨j, b⟩ := e
    rw [find?_cons] at h
    split at h
    · next hj =>
      cases h
      simp [hj]
    · exact List.mem_cons_of_mem _ (ih h)

/-- An entry of a table in which no key stands twice is found under its key. -/
theorem find?_of_mem {t : Table κ α} (ht : (keys t).Nodup) {e : κ × α} (he : e ∈ t) :
    find? t e.1 = some e.2 := by
  induction t with
  | nil => cases he
  | cons x t ih =>
    obtain ⟨hx, ht⟩ := List.nodup_cons.1 ht
    rcases List.mem_cons.1 he with rfl | he
    · rw [find?_cons, if_pos rfl]
    · have hne : x.1 ≠ e.1 := fun h => hx (h ▸ List.mem_map_of_mem he)
      rw [find?_cons, if_neg hne, ih ht he]

theorem keys_upsert (t : Table κ α) (k : κ) (f : Option α → α) :
    keys (upsert t k f) = if k ∈ keys t then keys t else keys t ++ [k] := by
  induction t with
  | nil => rfl
  | cons e t ih =>
    obtain ⟨j, a⟩ := e
    by_cases h : j = k
    · simp [upsert, keys, h]
    · have hk : ¬ k = j := fun hkj => h hkj.symm
      simp only [keys] at ih
      by_cases ht : k ∈ t.map Prod.fst <;> simp [upsert, keys, h, hk, ht, ih]

theorem keys_nodup_upsert {t : Table κ α} (h : (keys t).Nodup) (k : κ) (f : Option α → α) :
    (keys (upsert t k f)).Nodup := by
  rw [keys_upsert]
  split
  · exact h
  · next hk =>
    refine List.nodup_append.2 ⟨h, by simp, ?_⟩
    intro a ha b hb hab
    rw [List.mem_singleton] at hb
    exact hk (hb ▸ hab ▸ ha)

/-- What is true of all entries stays true behind a change that keeps it. -/
theorem forall_mem_upsert {P : κ → α → Prop} {k : κ} {f : Option α → α}
    (hf : ∀ a, P k a → P k (f (some a))) (h0 : P k (f none)) {t : Table κ α}
    (ht : ∀ e ∈ t, P e.1 e.2) : ∀ e ∈ upsert t k f, P e.1 e.2 := by
  induction t with
  | nil =>
    intro e he
    rw [upsert, List.mem_singleton] at he
    exact he ▸ h0
  | cons x t ih =>
    obtain ⟨j, a⟩ := x
    have htail : ∀ e ∈ t, P e.1 e.2 := fun e he => ht e (List.mem_cons_of_mem _ he)
    intro e he
    rw [upsert] at he
    split at he
    · next hj =>
      subst hj
      rcases List.mem_cons.1 he with rfl | he
      · exact hf a (ht (j, a) List.mem_cons_self)
      · exact htail e he
    · rcases List.mem_cons.1 he with rfl | he
      · exact ht (j, a) List.mem_cons_self
      · exact ih htail e he

theorem length_erase_lt {t : Table κ α} {k : κ} {a : α} (h : find? t k = some a) :
    (erase t k).length < t.length := by
  induction t with
  | nil => cases h
  | cons e t ih =>
    obtain ⟨j, b⟩ := e
    by_cases hj : j = k
    · have := List.length_filter_le (fun e : κ × α => decide (e.1 ≠ k)) t
      simp only [erase, hj, List.filter_cons, ne_eq, not_true, decide_false,
        List.length_cons] at this ⊢
      simpa using Nat.lt_succ_of_le this
    · have ht : find? t k = some a := by simpa [find?, hj] using h
      simpa [erase, hj] using ih ht

end Table

end SpecEngine
