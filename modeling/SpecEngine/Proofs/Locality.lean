import SpecEngine.Proofs.Joining
import SpecEngine.Text.Lines

/-!
# Tokens line by line

The tokens of a line are the tokens of that line alone, at another place.

* `tokens_append_feed`: the tokens before a line feed and those behind it;
* `marks`: the tokens that are more than one character of a line; `marks_append_feed`: line breaks
  are never part of one;
* `marksOfLines`, `marks_eq`: the marks of a text are those of its lines, each cut by itself.
-/

namespace SpecEngine

/-! ### Shifted tokens -/

theorem Place.shift_shift (bytes lines bytes' lines' : Nat) (p : Place) :
    (p.shift bytes lines).shift bytes' lines' = p.shift (bytes + bytes') (lines + lines') := by
  simp [shift, Nat.add_assoc]

theorem Located.shift_shift (bytes lines bytes' lines' : Nat) (t : Located) :
    (t.shift bytes lines).shift bytes' lines' = t.shift (bytes + bytes') (lines + lines') :=
  congrArg (Located.mk t.token) (Place.shift_shift bytes lines bytes' lines' t.place)

theorem Located.stop_shift (bytes lines : Nat) (t : Located) :
    (t.shift bytes lines).stop = t.stop + bytes :=
  Nat.add_right_comm _ _ _

/-- A line feed that no return stands before is a token, and the texts on both sides of it are cut
by themselves. -/
theorem tokens_append_feed {s : List Char} (h : s.getLast? ≠ some '\r') (t : List Char) :
    tokens (s ++ '\n' :: t) =
      tokens s ++ ⟨.newline false, Place.first.after s⟩ ::
        (tokens t).map (.shift (Text.bytes s + 1) (s.count '\n' + 1)) := by
  rw [← tokensFrom_feed, tokens, tokensFrom_append (Text.atBreak_feed _) _ _ _ fun hr => h hr.1,
    tokensFrom_newline, Place.after_append, tokens]

/-! ### Marks -/

/-- Whether a token is a keyword, a literal or a comment marker. -/
def Token.isMark : Token → Bool
  | .keyword _ | .literal _ | .comment => true
  | .newline _ | .char _ => false

/-- The keywords, literals and comment markers of a text. -/
def marks (s : List Char) : List Located :=
  (tokens s).filter (·.token.isMark)

/-- No mark reaches over a line feed, not even where a return belongs to it. -/
theorem marks_append_feed (s t : List Char) :
    marks (s ++ '\n' :: t) =
      marks s ++ (marks t).map (.shift (Text.bytes s + 1) (s.count '\n' + 1)) := by
  obtain ⟨ts, carriage, p, hjoined, -, hs⟩ := tokensFrom_append_feed none Place.first s t
  have hmarks : marks s = ts.filter (·.token.isMark) := by
    rcases hs with hs | ⟨q, hs⟩
    · rw [marks, tokens, hs]
    · rw [marks, tokens, hs, List.filter_append]
      exact List.append_nil _
  rw [hmarks, marks, tokens, hjoined, tokensFrom_feed, List.filter_append,
    List.filter_cons_of_neg (by simp [Token.isMark]), List.filter_map]
  rfl

/-- The marks of lines, each cut by itself, behind `bytes` bytes and `n` lines. -/
def marksOfLines (bytes n : Nat) : List (List Char) → List Located
  | [] => []
  | l :: ls =>
    (marks l).map (.shift bytes n) ++ marksOfLines (bytes + Text.bytes l + 1) (n + 1) ls

theorem marks_shift (bytes n : Nat) (s : List Char) :
    (marks s).map (.shift bytes n) = marksOfLines bytes n (Text.lines s) := by
  induction s using Text.lines_induction generalizing bytes n with
  | line l hl => rw [Text.lines_of_notMem hl, marksOfLines, marksOfLines, List.append_nil]
  | feed l s hl ih =>
    rw [marks_append_feed, Text.lines_append_feed, Text.lines_of_notMem hl, List.singleton_append,
      marksOfLines, ← ih, List.map_append, List.map_map, List.count_eq_zero_of_not_mem hl]
    refine congrArg (_ ++ ·) (List.map_congr_left fun t _ => ?_)
    rw [Function.comp_apply, Located.shift_shift]
    congr 1 <;> omega

theorem marks_eq (s : List Char) : marks s = marksOfLines 0 0 (Text.lines s) := by
  rw [← marks_shift]
  exact (List.map_id' _).symm

/-- **Texts are cut line by line.**  Behind a text that does not end in a return, and a line feed,
the tokens of what follows are its own, further on by the bytes and the lines before it and in the
same columns.  The keywords, literals and comment markers of any text are those of its lines, each
cut by itself. -/
theorem tokens_by_lines :
    (∀ a b : List Char, a.getLast? ≠ some '\r' →
      tokens (a ++ '\n' :: b) =
          tokens a ++ ⟨.newline false, Place.first.after a⟩ ::
            (tokens b).map (fun t =>
              ⟨t.token, t.place.start + (Text.bytes a + 1), t.place.line + (a.count '\n' + 1),
                t.place.column⟩) ∧
        (tokens (a ++ '\n' :: b)).map Located.stop =
          (tokens a).map Located.stop ++ (Text.bytes a + 1) ::
            (tokens b).map (fun t => t.stop + (Text.bytes a + 1))) ∧
      ∀ s : List Char, marks s = marksOfLines 0 0 (Text.lines s) := by
  refine ⟨fun a b ha => ⟨tokens_append_feed ha b, ?_⟩, marks_eq⟩
  have hfeed : Located.stop ⟨.newline false, Place.first.after a⟩ = Text.bytes a + 1 := by
    rw [Located.stop, Place.start_after]
    exact congrArg (· + 1) (Nat.zero_add _)
  have hshift : ∀ t : Located,
      (t.shift (Text.bytes a + 1) (a.count '\n' + 1)).stop = t.stop + (Text.bytes a + 1) :=
    Located.stop_shift _ _
  rw [tokens_append_feed ha, List.map_append, List.map_cons, hfeed, List.map_map]
  exact congrArg (_ ++ _ :: ·) (List.map_congr_left fun t _ => hshift t)

/-- A quote that is not closed on its line, and one on the next line. -/
theorem tokens_by_lines_open_quote :
    let a := "'é".toList
    let b := "x' end".toList
    a.getLast? ≠ some '\r' ∧
      tokens (a ++ '\n' :: b) =
        tokens a ++ ⟨.newline false, 3, 1, 3⟩ ::
          (tokens b).map (fun t =>
            ⟨t.token, t.place.start + 4, t.place.line + 1, t.place.column⟩) ∧
      marks (a ++ '\n' :: b) = [⟨.keyword .close, 7, 2, 4⟩] := by
  intro a b
  have ha : a.getLast? ≠ some '\r' := by decide
  have hm : marksOfLines 0 0 (Text.lines (a ++ '\n' :: b)) = [⟨.keyword .close, 7, 2, 4⟩] := by
    decide +kernel
  exact ⟨ha, (tokens_by_lines.1 a b ha).1, (tokens_by_lines.2 _).trans hm⟩

end SpecEngine
