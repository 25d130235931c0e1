import SpecEngine.Proofs.Cutting

/-!
# Bodies in front of a line

What is read of a body when another line follows it.  A statement that came to its end before the
line feed is cut off there, so it is read in front of the next line as it was; and what stands
behind the last statement is left out together with the line feed.

* `separators_append_feed`, `endsStatement_append_feed`: what stands between statements;
* `statements_append_line`, `statements_join`: the statements of two bodies on lines of their own.
-/

namespace SpecEngine

namespace Body

namespace View

variable {s r : List Char}

theorem dropWhile_append_feed {q : Char → Bool} (hq : q '\n' = false) (s y : List Char) :
    (s ++ '\n' :: y).dropWhile q = s.dropWhile q ++ '\n' :: y := by
  rw [List.dropWhile_append]
  split
  · next h =>
    rw [List.isEmpty_iff.1 h, List.dropWhile_cons_of_neg (by simp [hq])]
    rfl
  · rfl

theorem endsStatement_append_feed (s y : List Char) :
    endsStatement (s ++ '\n' :: y) = endsStatement s := by
  match s with
  | [] => rfl
  | [c] =>
    rw [List.cons_append, endsStatement_cons, endsStatement_cons]
    rfl
  | c :: d :: s => rw [List.cons_append, endsStatement_cons, endsStatement_cons, List.cons_append,
      List.head?_cons, List.head?_cons]

theorem comment_append_feed (h : comment s = some r) (y : List Char) :
    comment (s ++ '\n' :: y) = some (r ++ '\n' :: y) := by
  rw [comment_eq_some_iff] at h ⊢
  obtain ⟨rfl, hr⟩ := h
  refine ⟨dropWhile_append_feed (by decide) s y, fun t ht => ?_⟩
  cases hd : s.dropWhile fun c => c ≠ '\n' && c ≠ '\r' with
  | nil =>
    rw [hd] at ht
    cases ht
  | cons c u =>
    rw [hd] at ht
    obtain ⟨rfl, rfl⟩ := List.cons.inj ht
    obtain ⟨v, rfl⟩ := hr u hd
    exact ⟨_, rfl⟩

/-- Where nothing stands but what is left out between statements, it is left out with the line
feed. -/
theorem separators_append_feed (h : separators s = []) (y : List Char) :
    separators (s ++ '\n' :: y) = separators y := by
  induction s using separators_induction with
  | nil => exact separators_skip (by decide) y
  | skip c s hc ih =>
    rw [separators_skip hc] at h
    rw [List.cons_append, separators_skip hc, ih h]
  | comment s r hc ih =>
    rw [separators_comment hc] at h
    rw [List.cons_append, List.cons_append, separators_comment (comment_append_feed hc y), ih h]
  | stop c s hc hs =>
    rw [separators_stop hc hs] at h
    cases h

/-- The statements of a text that holds nothing else, and on with the next line. -/
theorem statements_append_line {s : List Char} (h : (View.statements s).2 = []) (y : List Char) :
    View.statements (s ++ '\n' :: y) =
      Prod.map ((View.statements s).1 ++ ·) id (View.statements y) := by
  induction hn : s.length using Nat.strong_induction_on generalizing s with
  | _ n ih =>
    subst hn
    have hle := length_separators_le s
    rw [statements_eq s] at h ⊢
    cases hx : statement (separators s) with
    | none =>
      rw [hx] at h
      exact statements_of_separators_eq (separators_append_feed h y)
    | some p =>
      obtain ⟨x, u⟩ := p
      have hlt := Parsed.length_lt_of_map_pair hx
      have hld := Text.length_dropWhile_le isSpace u
      rw [hx] at h
      cases hu : endsStatement (u.dropWhile isSpace) with
      | true =>
        simp only [hu, if_true] at h ⊢
        have hspace : (u ++ '\n' :: y).dropWhile isSpace = u.dropWhile isSpace ++ '\n' :: y :=
          dropWhile_append_feed rfl u y
        have hends : endsStatement ((u ++ '\n' :: y).dropWhile isSpace) = true := by
          rw [hspace, endsStatement_append_feed, hu]
        have hline := ih _ (by omega) h rfl
        obtain ⟨p, rfl, hcut⟩ := cut_first hx
        have hfirst : statement (separators (p ++ (u ++ '\n' :: y))) = some (x, u ++ '\n' :: y) :=
          hcut _ hends
        rw [List.append_assoc, statements_eq, hfirst]
        dsimp only
        rw [if_pos hends, hspace, hline]
        rfl
      | false =>
        simp only [hu, Bool.false_eq_true, if_false] at h
        rw [h] at hu
        cases hu

end View

/-- **Bodies that stand on lines of their own** are read one behind the other. -/
theorem statements_join {s t : List Char} {body rest : List Statement}
    (hs : statements s = .ok body) (ht : statements t = .ok rest) :
    statements (s ++ '\n' :: t) = .ok (body ++ rest) := by
  rw [statements_eq_ok_iff] at hs ht ⊢
  rw [View.statements_append_line (congrArg Prod.snd hs), hs, ht]
  rfl

end Body

end SpecEngine
