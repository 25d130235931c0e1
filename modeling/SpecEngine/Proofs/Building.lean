import SpecEngine.Proofs.Merging

/-!
# Catalogues as they are built

The catalogues that can be had by naming suites, filling them, running them and merging catalogues,
in any order and as often as one likes.  Merging is told by what it does to the suite under each
description.

* `Table.keys_foldl_upsert`, `Table.find?_foldl_upsert`: a table changed under each key of another
  one; `Table.eq_of_find?_eq`: tables are told by their keys and look-ups;
* `Suite.IsOf`, `Catalogue.Regular`: suites that stand under their own descriptions and own their
  specs;
* `Catalogue.Built`, `Built.regular`: the catalogues that can be built are of that kind;
* `hasRun`, `specsOf`, `hooksOf`: what stands under a description; `suite?_merge`: what a merge
  leaves there;
* `merge_built`: merging catalogues that can be built is associative, has the empty catalogue as its
  neutral element, and loses nothing.
-/

namespace SpecEngine

/-! ### Tables put into tables -/

namespace Table

variable {κ α β : Type} [DecidableEq κ]

/-- Tables with the same keys in one order and the same values are the same. -/
theorem eq_of_find?_eq {t u : Table κ α} (ht : (keys t).Nodup) (hk : keys t = keys u)
    (hf : ∀ k, find? t k = find? u k) : t = u := by
  induction t generalizing u with
  | nil => exact (List.map_eq_nil_iff.1 hk.symm).symm
  | cons e t ih =>
    obtain ⟨j, a⟩ := e
    cases u with
    | nil => cases hk
    | cons e u =>
      obtain ⟨i, b⟩ := e
      have hcons : j = i ∧ keys t = keys u := List.cons.inj hk
      obtain ⟨rfl, hkeys⟩ := hcons
      obtain ⟨hj, ht⟩ := List.nodup_cons.1 ht
      have hab : a = b := by simpa [find?_cons] using hf j
      have hju : j ∉ keys u := hkeys ▸ hj
      have htail : ∀ k, find? t k = find? u k := by
        intro k
        by_cases hjk : j = k
        · subst hjk
          rw [(find?_eq_none_iff t j).2 hj, (find?_eq_none_iff u j).2 hju]
        · simpa [find?_cons, hjk] using hf k
      rw [hab, ih ht hkeys htail]

section

variable (f : κ × β → Option α → α) {l : Table κ β} (hl : (keys l).Nodup) (t : Table κ α)

include hl

/-- Keys that are there keep their places, and new ones follow in their order. -/
theorem keys_foldl_upsert :
    keys (l.foldl (fun t e => upsert t e.1 (f e)) t) =
      keys t ++ (keys l).filter fun k => k ∉ keys t := by
  induction l generalizing t with
  | nil => simp [keys]
  | cons e l ih =>
    obtain ⟨he, hl⟩ := List.nodup_cons.1 hl
    have hcons : keys (e :: l) = e.1 :: keys l := rfl
    rw [List.foldl_cons, ih hl, keys_upsert, hcons]
    by_cases ht : e.1 ∈ keys t
    · rw [if_pos ht, List.filter_cons_of_neg (by simpa using ht)]
    · have hnew : (keys l).filter (fun k => k ∉ keys t ++ [e.1]) =
          (keys l).filter fun k => k ∉ keys t := by
        refine List.filter_congr fun k hk => ?_
        have hne : k ≠ e.1 := ne_of_mem_of_not_mem hk he
        simp [hne]
      rw [if_neg ht, hnew, List.filter_cons_of_pos (by simpa using ht), List.append_assoc]
      rfl

/-- Each key is changed once, and the others stay as they are. -/
theorem find?_foldl_upsert (k : κ) :
    find? (l.foldl (fun t e => upsert t e.1 (f e)) t) k =
      (find? l k).elim (find? t k) fun b => some (f (k, b) (find? t k)) := by
  induction l generalizing t with
  | nil => rfl
  | cons e l ih =>
    obtain ⟨j, b⟩ := e
    obtain ⟨hj, hl⟩ := List.nodup_cons.1 hl
    rw [List.foldl_cons, ih hl, find?_cons]
    by_cases hjk : j = k
    · subst hjk
      rw [if_pos rfl, (find?_eq_none_iff l j).2 hj]
      exact find?_upsert_self t j _
    · rw [if_neg hjk, find?_upsert_of_ne _ _ (Ne.symm hjk)]

end

theorem keys_setAll (t : Table κ α) {l : Table κ α} (hl : (keys l).Nodup) :
    keys (setAll t l) = keys t ++ (keys l).filter fun k => k ∉ keys t :=
  keys_foldl_upsert (fun e _ => e.2) hl t

/-- What was put last is found first. -/
theorem find?_setAll (t : Table κ α) {l : Table κ α} (hl : (keys l).Nodup) (k : κ) :
    find? (setAll t l) k = (find? l k).or (find? t k) := by
  refine (find?_foldl_upsert (fun e _ => e.2) hl t k).trans ?_
  cases find? l k <;> rfl

theorem setAll_nil_left {l : Table κ α} (hl : (keys l).Nodup) : setAll [] l = l := by
  have hkeys : keys (setAll [] l) = keys l := by
    rw [keys_setAll [] hl]
    simp [keys]
  refine eq_of_find?_eq (hkeys ▸ hl) hkeys fun k => ?_
  rw [find?_setAll [] hl, find?_nil, Option.or_none]

end Table

/-! ### Suites under their descriptions -/

/-- A suite as it stands under a description: it has that description, its specs belong to it, and
no hook has two bodies. -/
structure Suite.IsOf (d : String) (s : Suite) : Prop where
  description : s.description = d
  specs : ∀ x ∈ s.specs, x.suite = d
  hooks : (Table.keys s.hooks).Nodup

namespace Suite

variable {d : String} {s t : Suite}

theorem isOf_new (d : String) : IsOf d { description := d } :=
  ⟨rfl, by simp, List.nodup_nil⟩

theorem IsOf.addSpec (h : s.IsOf d) (x : Spec) : (s.addSpec x).IsOf d where
  description := h.description
  specs y hy := by
    rcases List.mem_append.1 hy with hy | hy
    · exact h.specs y hy
    · rw [List.mem_singleton.1 hy]
      exact h.description
  hooks := h.hooks

theorem IsOf.setHook (h : s.IsOf d) (hook : Hook) (body : String) : (s.setHook hook body).IsOf d :=
  ⟨h.description, h.specs, Table.keys_nodup_upsert h.hooks _ _⟩

theorem owned_eq_self {l : List Spec} (h : ∀ x ∈ l, x.suite = d) : owned d l = l := by
  refine (List.map_congr_left fun x hx => ?_).trans (List.map_id l)
  rw [← h x hx]
  rfl

/-- The specs of a suite with the same description are added as they are. -/
theorem IsOf.absorb_eq (hs : s.IsOf d) (ht : t.IsOf d) :
    s.absorb t =
      { s with specs := s.specs ++ t.specs, hooks := Table.setAll s.hooks t.hooks } := by
  rw [Suite.absorb_eq, hs.description, owned_eq_self ht.specs]

/-- Whatever suite is added, its specs belong to the suite to which it is added. -/
theorem IsOf.absorb (hs : s.IsOf d) (t : Suite) : (s.absorb t).IsOf d := by
  rw [Suite.absorb_eq]
  refine ⟨hs.description, fun x hx => ?_, Table.keys_nodup_setAll hs.hooks _⟩
  rcases List.mem_append.1 hx with hx | hx
  · exact hs.specs x hx
  · obtain ⟨y, -, rfl⟩ := List.mem_map.1 hx
    exact hs.description

/-- A suite added to a new one comes to itself as it was before it was run. -/
theorem IsOf.new_absorb (h : s.IsOf d) :
    ({ description := d } : Suite).absorb s = { s with ran := false } := by
  rw [(isOf_new d).absorb_eq h, Table.setAll_nil_left h.hooks, h.description]
  rfl

end Suite

namespace Catalogue

/-! ### Catalogues that can be built -/

/-- Catalogues in which no description stands twice, and each suite stands under its own. -/
structure Regular (c : Catalogue) : Prop where
  keys : (Table.keys c).Nodup
  suites : ∀ e ∈ c, e.2.IsOf e.1

/-- The catalogues that can be built.  A suite may be run at any time, and a spec may hold
assertions when it is added. -/
inductive Built : Catalogue → Prop
  | empty : Built []
  | insert {c : Catalogue} (h : Built c) (d : String) : Built (c.insert d)
  | addSpec {c : Catalogue} (h : Built c) (d : String) (x : Spec) :
      Built (c.update d fun s => s.addSpec x)
  | setHook {c : Catalogue} (h : Built c) (d : String) (hook : Hook) (body : String) :
      Built (c.update d fun s => s.setHook hook body)
  | run {c : Catalogue} (h : Built c) (d : String) :
      Built (c.update d fun s => { s with ran := true })
  | merge {a b : Catalogue} (ha : Built a) (hb : Built b) : Built (a.merge b)

theorem Regular.update {c : Catalogue} (hc : c.Regular) {d : String} {f : Suite → Suite}
    (hf : ∀ s : Suite, s.IsOf d → (f s).IsOf d) : (c.update d f).Regular :=
  ⟨Table.keys_nodup_upsert hc.keys _ _,
    forall_mem_update (P := Suite.IsOf) hf (Suite.isOf_new d) hc.suites⟩

theorem Regular.merge {a : Catalogue} (ha : a.Regular) (b : Catalogue) : (a.merge b).Regular :=
  ⟨keys_nodup_merge ha.keys b,
    forall_mem_merge (P := Suite.IsOf) Suite.isOf_new (fun e _ _ hs => hs.absorb e.2) ha.suites⟩

theorem Built.regular {c : Catalogue} (h : c.Built) : c.Regular := by
  induction h with
  | empty => exact ⟨List.nodup_nil, by simp⟩
  | insert _ d ih => exact ih.update fun _ hs => hs
  | addSpec _ d x ih => exact ih.update fun _ hs => hs.addSpec x
  | setHook _ d hook body ih => exact ih.update fun _ hs => hs.setHook hook body
  | run _ d ih => exact ih.update fun _ hs => ⟨hs.description, hs.specs, hs.hooks⟩
  | @merge a b _ _ iha _ => exact iha.merge b

theorem Regular.proper {c : Catalogue} (h : c.Regular) : c.Proper :=
  ⟨h.keys, fun e he => (h.suites e he).hooks⟩

theorem Regular.isOf {c : Catalogue} (h : c.Regular) {d : String} {s : Suite}
    (hs : c.suite? d = some s) : s.IsOf d :=
  h.suites (d, s) (Table.mem_of_find? hs)

/-! ### What a merge leaves under a description -/

/-- Whether the suite with a description was run. -/
def hasRun (c : Catalogue) (d : String) : Bool :=
  (c.suite? d).any Suite.ran

/-- The specs of the suite with a description. -/
def specsOf (c : Catalogue) (d : String) : List Spec :=
  (c.suite? d).elim [] Suite.specs

/-- The hook bodies of the suite with a description, in their order. -/
def hooksOf (c : Catalogue) (d : String) : Table Hook String :=
  (c.suite? d).elim [] Suite.hooks

section

variable {a b : Catalogue} (ha : a.Regular) (hb : b.Regular)

include hb

theorem keys_merge (a : Catalogue) :
    Table.keys (a.merge b) = Table.keys a ++ (Table.keys b).filter fun d => d ∉ Table.keys a :=
  Table.keys_foldl_upsert (fun e s? => (s?.getD { description := e.1 } : Suite).absorb e.2)
    hb.keys a

theorem suite?_merge (a : Catalogue) (d : String) :
    (a.merge b).suite? d =
      (b.suite? d).elim (a.suite? d) fun t =>
        some (((a.suite? d).getD { description := d }).absorb t) :=
  Table.find?_foldl_upsert (fun e s? => (s?.getD { description := e.1 } : Suite).absorb e.2)
    hb.keys a d

theorem keys_nodup_hooksOf (d : String) : (Table.keys (b.hooksOf d)).Nodup := by
  unfold hooksOf
  cases hs : b.suite? d with
  | none => exact List.nodup_nil
  | some s => exact (hb.isOf hs).hooks

include ha

/-- Under each description stands what stood there, with what is added behind it. -/
theorem exists_suite?_merge (d : String) :
    (a.merge b).hasRun d = a.hasRun d ∧
      (a.merge b).specsOf d = a.specsOf d ++ b.specsOf d ∧
      (a.merge b).hooksOf d = Table.setAll (a.hooksOf d) (b.hooksOf d) := by
  unfold hasRun specsOf hooksOf
  rw [suite?_merge hb]
  cases ht : b.suite? d with
  | none => simp
  | some t =>
    have hs : ((a.suite? d).getD { description := d }).IsOf d := by
      cases hs : a.suite? d with
      | none => exact Suite.isOf_new d
      | some s => exact ha.isOf hs
    rw [Option.elim_some, hs.absorb_eq (hb.isOf ht)]
    cases a.suite? d <;> exact ⟨rfl, rfl, rfl⟩

end

/-- Merged into the empty catalogue, suites are as they were before they were run. -/
theorem nil_merge_eq_self_iff {c : Catalogue} (hc : c.Regular) :
    Catalogue.merge [] c = c ↔ ∀ s ∈ c.suites, s.ran = false := by
  have hkeys : Table.keys (Catalogue.merge [] c) = Table.keys c := by
    rw [keys_merge hc]
    simp [Table.keys]
  have hsuite : ∀ d s, c.suite? d = some s →
      (Catalogue.merge [] c).suite? d = some { s with ran := false } := by
    intro d s hs
    rw [suite?_merge hc, hs, ← (hc.isOf hs).new_absorb]
    rfl
  constructor
  · intro heq s hs
    obtain ⟨e, he, rfl⟩ := List.mem_map.1 hs
    have hfind := Table.find?_of_mem hc.keys he
    have hran := hsuite e.1 e.2 hfind
    rw [heq, suite?, hfind] at hran
    exact congrArg Suite.ran (Option.some.inj hran)
  · intro hran
    refine Table.eq_of_find?_eq (hkeys ▸ hc.keys) hkeys fun d => ?_
    cases hs : Table.find? c d with
    | none =>
      rw [Table.find?_eq_none_iff, hkeys, ← Table.find?_eq_none_iff]
      exact hs
    | some s =>
      have hfalse := hran s (List.mem_map.2 ⟨_, Table.mem_of_find? hs, rfl⟩)
      refine (hsuite d s hs).trans ?_
      rw [← hfalse]

/-- **Merging loses nothing.**  In every catalogue that can be built no description stands twice,
each suite has the description under which it stands, and its specs belong to it.  Of such
catalogues it does not matter which two are merged first; the empty catalogue changes nothing behind
another one, and nothing in front of one if and only if none of its suites was run.  Merged, the
suites of the first catalogue stand where they stood, and those that only the second one has follow
in their order.  Under each description there are the specs of the first and behind them those of
the second, with their assertions; each hook has the body of the second if it has one there, and
else that of the first, in the same order as the suites; and the suite was run if the first one
was. -/
theorem merge_built :
    (∀ c : Catalogue, c.Built → (Table.keys c).Nodup ∧
      ∀ e ∈ c, e.2.description = e.1 ∧ ∀ x ∈ e.2.specs, x.suite = e.2.description) ∧
    (∀ a b c : Catalogue, a.Built → b.Built → c.Built →
      (a.merge b).merge c = a.merge (b.merge c)) ∧
    (∀ c : Catalogue, c.Built → c.merge [] = c ∧
      (Catalogue.merge [] c = c ↔ ∀ s ∈ c.suites, s.ran = false)) ∧
    ∀ a b : Catalogue, a.Built → b.Built →
      Table.keys (a.merge b) = Table.keys a ++ (Table.keys b).filter (fun d => d ∉ Table.keys a) ∧
      ∀ d, (a.merge b).hasRun d = a.hasRun d ∧
        (a.merge b).specsOf d = a.specsOf d ++ b.specsOf d ∧
        Table.keys ((a.merge b).hooksOf d) =
          Table.keys (a.hooksOf d) ++
            (Table.keys (b.hooksOf d)).filter (fun h => h ∉ Table.keys (a.hooksOf d)) ∧
        ∀ h, Table.find? ((a.merge b).hooksOf d) h =
          (Table.find? (b.hooksOf d) h).or (Table.find? (a.hooksOf d) h) := by
  refine ⟨fun c hc => ?_, fun a b c _ hb _ => ?_, fun c hc => ?_, fun a b ha hb => ?_⟩
  · refine ⟨hc.regular.keys, fun e he => ?_⟩
    have hs := hc.regular.suites e he
    exact ⟨hs.description, fun x hx => (hs.specs x hx).trans hs.description.symm⟩
  · exact (merge_assoc hb.regular.proper a c).symm
  · exact ⟨rfl, nil_merge_eq_self_iff hc.regular⟩
  · refine ⟨keys_merge hb.regular a, fun d => ?_⟩
    obtain ⟨hran, hspecs, hhooks⟩ := exists_suite?_merge ha.regular hb.regular d
    have hnodup := keys_nodup_hooksOf hb.regular d
    refine ⟨hran, hspecs, ?_, fun h => ?_⟩
    · rw [hhooks, Table.keys_setAll _ hnodup]
    · rw [hhooks, Table.find?_setAll _ hnodup]

/-- A suite that both have, which was run in the first one, and a suite that only the second one
has. -/
theorem merge_built_shared :
    let a := ((Catalogue.insert [] "list").update "list" fun s =>
      s.addSpec { description := "adds", body := "1" }).update "list" fun s =>
        { s with ran := true }
    let b := ((Catalogue.insert [] "text").update "list" fun s =>
      s.addSpec { description := "drops", body := "2", suite := "text" }).update "list" fun s =>
        s.setHook .before "let x = 1"
    a.Built ∧ b.Built ∧ Table.keys (a.merge b) = ["list", "text"] ∧
      (a.merge b).hasRun "list" = true ∧
      ((a.merge b).specsOf "list").map (fun x => (x.description, x.suite)) =
        [("adds", "list"), ("drops", "list")] ∧
      Table.find? ((a.merge b).hooksOf "list") .before = some "let x = 1" ∧
      (a.merge b).merge b = a.merge (b.merge b) := by
  intro a b
  have ha : a.Built := ((Built.empty.insert "list").addSpec "list" _).run "list"
  have hb : b.Built := ((Built.empty.insert "text").addSpec "list" _).setHook "list" .before _
  obtain ⟨-, hassoc, -, hmerge⟩ := merge_built
  obtain ⟨hkeys, hunder⟩ := hmerge a b ha hb
  obtain ⟨hran, hspecs, -, hhooks⟩ := hunder "list"
  refine ⟨ha, hb, hkeys.trans (by decide), hran.trans (by decide), ?_, (hhooks .before).trans rfl,
    hassoc a b b ha hb hb⟩
  rw [hspecs]
  rfl

end Catalogue

end SpecEngine
