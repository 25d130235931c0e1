/-!
# Lines

A line feed separates two lines, so a text has one line more than it has line feeds.

* `lines`, `unlines`: the lines of a text, and the text that they make; `mergeBreaks`: a text
  without the returns before its line feeds;
* `exists_line`, `lines_induction`: a text line by line;
* `lines_append_feed`, `unlines_append`, `mergeBreaks_append_feed`: what stands before a line feed
  and what stands behind it are seen by themselves.
-/

namespace SpecEngine.Text

/-- The lines of a text, without the line feeds between them. -/
def lines : List Char → List (List Char)
  | [] => [[]]
  | c :: s =>
    if c = '\n' then [] :: lines s
    else
      match lines s with
      | [] => [[c]]
      | l :: ls => (c :: l) :: ls

/-- Lines put together again. -/
def unlines : List (List Char) → List Char
  | [] => []
  | [l] => l
  | l :: ls => l ++ '\n' :: unlines ls

theorem lines_ne_nil (s : List Char) : lines s ≠ [] := by
  cases s with
  | nil => simp [lines]
  | cons c s =>
    unfold lines
    split
    · simp
    · split <;> simp

theorem unlines_cons {l : List Char} {ls : List (List Char)} (h : ls ≠ []) :
    unlines (l :: ls) = l ++ '\n' :: unlines ls := by
  cases ls with
  | nil => exact absurd rfl h
  | cons => rfl

@[simp] theorem unlines_lines (s : List Char) : unlines (lines s) = s := by
  induction s with
  | nil => rfl
  | cons c s ih =>
    by_cases hc : c = '\n'
    · rw [lines, if_pos hc, unlines_cons (lines_ne_nil s), ih, hc, List.nil_append]
    · rw [lines, if_neg hc]
      cases hl : lines s with
      | nil => exact absurd hl (lines_ne_nil s)
      | cons l ls =>
        rw [hl] at ih
        cases ls with
        | nil => simpa [unlines] using ih
        | cons m ms => simpa [unlines] using ih

/-- A line and what follows it. -/
theorem exists_line (s : List Char) :
    ∃ l t, s = l ++ t ∧ '\n' ∉ l ∧ (t = [] ∨ ∃ u, t = '\n' :: u) := by
  induction s with
  | nil => exact ⟨[], [], rfl, by simp, Or.inl rfl⟩
  | cons c s ih =>
    by_cases hc : c = '\n'
    · exact ⟨[], c :: s, rfl, by simp, Or.inr ⟨s, by rw [hc]⟩⟩
    · obtain ⟨l, t, rfl, hl, ht⟩ := ih
      exact ⟨c :: l, t, rfl, List.not_mem_cons_of_ne_of_not_mem (Ne.symm hc) hl, ht⟩

/-- What is shown for one line, and for a line in front of a text, holds for all texts. -/
theorem lines_induction {motive : List Char → Prop} (line : ∀ l, '\n' ∉ l → motive l)
    (feed : ∀ l s, '\n' ∉ l → motive s → motive (l ++ '\n' :: s)) (s : List Char) : motive s := by
  induction hn : s.length using Nat.strongRecOn generalizing s with
  | _ n ih =>
    subst hn
    obtain ⟨l, t, rfl, hl, rfl | ⟨u, rfl⟩⟩ := exists_line s
    · rw [List.append_nil]
      exact line l hl
    · refine feed l u hl (ih u.length ?_ u rfl)
      simp
      omega

theorem lines_of_notMem {l : List Char} (hl : '\n' ∉ l) : lines l = [l] := by
  induction l with
  | nil => rfl
  | cons c l ih =>
    rw [lines, if_neg fun h => hl (by simp [h]), ih fun h => hl (List.mem_cons_of_mem _ h)]

/-- The lines before a line feed, and those behind it. -/
theorem lines_append_feed (s t : List Char) : lines (s ++ '\n' :: t) = lines s ++ lines t := by
  induction s with
  | nil => rfl
  | cons c s ih =>
    rw [List.cons_append, lines, lines, ih]
    by_cases hc : c = '\n'
    · rw [if_pos hc, if_pos hc]
      rfl
    · rw [if_neg hc, if_neg hc]
      cases hl : lines s with
      | nil => exact absurd hl (lines_ne_nil s)
      | cons l ls => rfl

theorem unlines_append {ls ms : List (List Char)} (hl : ls ≠ []) (hm : ms ≠ []) :
    unlines (ls ++ ms) = unlines ls ++ '\n' :: unlines ms := by
  induction ls with
  | nil => exact absurd rfl hl
  | cons l ls ih =>
    cases ls with
    | nil => exact unlines_cons hm
    | cons m ls =>
      rw [List.cons_append, unlines_cons (by simp), ih (by simp),
        unlines_cons (List.cons_ne_nil m ls), List.append_assoc]
      rfl

/-- A carriage return before a line feed belongs to the line break. -/
def mergeBreaks : List Char → List Char
  | '\r' :: '\n' :: s => '\n' :: mergeBreaks s
  | c :: s => c :: mergeBreaks s
  | [] => []

/-- A line feed without a return before it is a line break by itself. -/
theorem mergeBreaks_append_feed {s : List Char} (h : s.getLast? ≠ some '\r') (t : List Char) :
    mergeBreaks (s ++ '\n' :: t) = mergeBreaks s ++ '\n' :: mergeBreaks t := by
  induction s using mergeBreaks.induct with
  | case1 s ih =>
    have hs : s.getLast? ≠ some '\r' := by
      intro hs
      exact h (by simp [List.getLast?_cons, hs])
    simp [mergeBreaks, ih hs]
  | case2 c s hc ih =>
    have hs : s.getLast? ≠ some '\r' := by
      intro hs
      exact h (by simp [List.getLast?_cons, hs])
    rw [List.cons_append, mergeBreaks, mergeBreaks, ih hs]
    · rfl
    · exact hc
    · rintro u rfl hu
      cases s with
      | nil => exact h rfl
      | cons d s => exact hc s rfl (by rw [(List.cons.inj hu).1])
  | case3 => simp [mergeBreaks]

/-- The first line of a text, without its line break. -/
def firstLine (s : List Char) : List Char :=
  (mergeBreaks s).takeWhile (· ≠ '\n')

end SpecEngine.Text
