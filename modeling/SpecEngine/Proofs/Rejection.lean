import Mathlib.Data.List.Forall2
import SpecEngine.Body.Evaluation
import SpecEngine.Proofs.Cutting
import SpecEngine.Proofs.Expansion

/-!
# Where bodies are rejected

A text that is no body is rejected at the place where it stops being one: what stands before that
place is a body by itself, and no statement is read on from there.  The line of the place is counted
in the bracketed form, and it is the line of the body as it was written, since bringing a body to
the bracketed form changes each line by itself.

* `Text.length_lines`, `Text.getElem?_lines_append`: lines, and the line of a place;
* `Shorthand.Becomes`, `forall₂_lines_expand`: a body in the bracketed form, line by line;
* `exists_separators`, `exists_statements`: what stands before the place where reading stops;
* `statements_rejected`: what is said of a text that is no body.
-/

namespace SpecEngine

/-! ### Lines -/

namespace Text

/-- A text has one line more than it has line feeds. -/
theorem length_lines (s : List Char) : (lines s).length = s.count '\n' + 1 := by
  induction s using lines_induction with
  | line l hl =>
    rw [lines_of_notMem hl, List.count_eq_zero_of_not_mem hl]
    rfl
  | feed l s hl ih =>
    rw [lines_append_feed, lines_of_notMem hl, List.length_append, ih, List.count_append,
      List.count_eq_zero_of_not_mem hl, List.count_cons_self]
    simp
    omega

theorem takeWhile_ne_feed {l t : List Char} (hl : '\n' ∉ l) (ht : t = [] ∨ ∃ u, t = '\n' :: u) :
    (l ++ t).takeWhile (· ≠ '\n') = l := by
  have hne : ∀ c ∈ l, decide (c ≠ '\n') = true := fun c hc =>
    decide_eq_true (ne_of_mem_of_not_mem hc hl)
  rw [List.takeWhile_append_of_pos hne]
  rcases ht with rfl | ⟨u, rfl⟩
  · simp
  · simp

/-- The line in which a place lies: the text behind the last line feed before the place, and the
text up to the next one. -/
theorem getElem?_lines_append (a b : List Char) :
    ∃ p, p <:+ a ∧ '\n' ∉ p ∧
      (lines (a ++ b))[a.count '\n']? = some (p ++ b.takeWhile (· ≠ '\n')) := by
  induction a using lines_induction with
  | line p hp =>
    refine ⟨p, List.suffix_rfl, hp, ?_⟩
    obtain ⟨l, t, rfl, hl, ht⟩ := exists_line b
    have hpl : '\n' ∉ p ++ l := by simp [hp, hl]
    rw [takeWhile_ne_feed hl ht, List.count_eq_zero_of_not_mem hp, ← List.append_assoc]
    rcases ht with rfl | ⟨u, rfl⟩
    · rw [List.append_nil, lines_of_notMem hpl]
      rfl
    · rw [lines_append_feed, lines_of_notMem hpl]
      rfl
  | feed l s hl ih =>
    obtain ⟨p, hs, hp, h⟩ := ih
    refine ⟨p, hs.trans ⟨l ++ ['\n'], by simp⟩, hp, ?_⟩
    rw [List.append_assoc, List.cons_append, lines_append_feed, lines_of_notMem hl,
      List.count_append, List.count_eq_zero_of_not_mem hl, List.count_cons_self, Nat.zero_add]
    exact h

/-- Only returns in front of line feeds are taken out. -/
theorem mergeBreaks_append {l t : List Char} (hl : '\n' ∉ l) (ht : t.head? ≠ some '\n') :
    mergeBreaks (l ++ t) = l ++ mergeBreaks t := by
  induction l with
  | nil => rfl
  | cons c l ih =>
    rw [List.cons_append, mergeBreaks, ih fun h => hl (List.mem_cons_of_mem _ h)]
    · rfl
    · rintro u rfl hu
      cases l with
      | nil => exact ht (congrArg List.head? hu)
      | cons d l => exact hl (by simp [(List.cons.inj hu).1])

end Text

namespace Shorthand

/-- What a line becomes in the bracketed form.  A return at its end may belong to the line break. -/
def Becomes (written line : List Char) : Prop :=
  ∃ l, (written = l ∨ written = l ++ ['\r']) ∧ line = expandLine l

theorem notMem_expandLine {l : List Char} (hl : '\n' ∉ l) : '\n' ∉ expandLine l := by
  intro h
  rcases mem_of_mem_expandLine h with h | h | h
  · exact hl h
  · cases h
  · cases h

theorem expand_of_notMem {l : List Char} (hl : '\n' ∉ l) : expand l = expandLine l := by
  have hm : Text.mergeBreaks l = l := by
    have h := Text.mergeBreaks_append hl (t := []) (by simp)
    rwa [Text.mergeBreaks, List.append_nil] at h
  rw [expand, hm]
  exact expandLines_of_notMem hl

/-- A line with its line break, in front of the other lines of a body. -/
theorem exists_expand_feed {l : List Char} (hl : '\n' ∉ l) (s : List Char) :
    ∃ m, (l = m ∨ l = m ++ ['\r']) ∧ '\n' ∉ m ∧
      expand (l ++ '\n' :: s) = expandLine m ++ '\n' :: expand s := by
  by_cases hr : l.getLast? = some '\r'
  · obtain ⟨m, rfl⟩ := List.getLast?_eq_some_iff.1 hr
    have hm : '\n' ∉ m := fun h => hl (List.mem_append_left _ h)
    refine ⟨m, .inr rfl, hm, ?_⟩
    rw [List.append_assoc, expand, Text.mergeBreaks_append hm (by simp), ← expandLines_of_notMem hm]
    exact expandLines_append_feed m _
  · refine ⟨l, .inl rfl, hl, ?_⟩
    rw [expand_append_feed hr, expand_of_notMem hl]

/-- A body is brought to the bracketed form line by line, so no line is added or lost. -/
theorem forall₂_lines_expand (s : List Char) :
    List.Forall₂ Becomes (Text.lines s) (Text.lines (expand s)) := by
  induction s using Text.lines_induction with
  | line l hl =>
    rw [expand_of_notMem hl, Text.lines_of_notMem hl, Text.lines_of_notMem (notMem_expandLine hl)]
    exact .cons ⟨l, .inl rfl, rfl⟩ .nil
  | feed l s hl ih =>
    obtain ⟨m, hwritten, hm, hs⟩ := exists_expand_feed hl s
    rw [hs, Text.lines_append_feed, Text.lines_append_feed, Text.lines_of_notMem hl,
      Text.lines_of_notMem (notMem_expandLine hm)]
    exact .cons ⟨m, hwritten, rfl⟩ ih

end Shorthand

namespace Body

/-! ### What stands before the place -/

namespace View

variable {s r : List Char}

/-- What is left out between statements is left out by itself. -/
theorem exists_separators (s : List Char) : ∃ p, s = p ++ separators s ∧ separators p = [] := by
  induction s using separators_induction with
  | nil => exact ⟨[], separators_nil.symm, separators_nil⟩
  | skip c s hc ih =>
    obtain ⟨p, hp, hs⟩ := ih
    refine ⟨c :: p, ?_, ?_⟩
    · rw [separators_skip hc, List.cons_append, ← hp]
    · rw [separators_skip hc, hs]
  | comment s r hr ih =>
    rw [separators_comment hr]
    obtain ⟨p, hp, hs⟩ := ih
    cases h : separators r with
    | nil => exact ⟨'/' :: '/' :: s, by simp, by rw [separators_comment hr, h]⟩
    | cons c u =>
      rw [h] at hp
      obtain ⟨a, rfl, ha⟩ := cut_comment (isSpacing_of_separators h) (hp ▸ hr)
      have hcut := ha []
      rw [List.append_nil] at hcut
      exact ⟨'/' :: '/' :: (a ++ p), by simp, by rw [separators_comment hcut, hs]⟩
  | stop c s hc hs => exact ⟨[], (separators_stop hc hs).symm, separators_nil⟩

theorem statements_of_separators (h : separators s = []) : statements s = ([], []) :=
  (statements_of_separators_eq (h.trans separators_nil.symm)).trans (statements_closes (.inl rfl))

theorem dropWhile_of_append {q : Char → Bool} (h : (s ++ r).dropWhile q = s ++ r) :
    s.dropWhile q = s := by
  cases s with
  | nil => rfl
  | cons c s =>
    rw [List.dropWhile_eq_self_iff] at h ⊢
    exact fun _ => h (Nat.zero_lt_succ _)

/-- A body that ends a statement in front of another text ends it by itself as well. -/
theorem endsStatement_of_append {body : List Statement} (hs : statements s = (body, []))
    (h : endsStatement (s ++ r) = true) : endsStatement s = true := by
  match s with
  | [] => rfl
  | [c] =>
    rw [List.cons_append, endsStatement_cons] at h
    rw [endsStatement_cons]
    by_cases hc : c = '/'
    · -- one slash alone begins no comment, so it would be left
      subst hc
      rw [statements_eq, separators_stop rfl rfl, statement_barren (by decide)] at hs
      cases hs
    · simpa [hc] using h
  | c :: d :: s =>
    rw [List.cons_append, endsStatement_cons] at h
    rwa [endsStatement_cons]

/-- What stands before the place where reading stops is a body by itself. -/
theorem exists_statements {s r : List Char} {body : List Statement}
    (h : statements s = (body, r)) : ∃ p, s = p ++ r ∧ statements p = (body, []) := by
  have hle := length_separators_le s
  rw [statements_eq] at h
  cases hx : statement (separators s) with
  | none =>
    rw [hx] at h
    cases h
    obtain ⟨p, hp, hs⟩ := exists_separators s
    exact ⟨p, hp, statements_of_separators hs⟩
  | some q =>
    obtain ⟨x, u⟩ := q
    have hlt := Parsed.length_lt_of_map_pair hx
    have hld := Text.length_dropWhile_le isSpace u
    rw [hx] at h
    obtain ⟨a, hs, hcut⟩ := cut_first hx
    obtain ⟨b, hspace, hb, -⟩ := exists_dropWhile isSpace u
    cases hu : endsStatement (u.dropWhile isSpace) with
    | true =>
      simp only [hu, if_true] at h
      cases h
      obtain ⟨d, hd, hread⟩ := exists_statements (Prod.eta (statements (u.dropWhile isSpace))).symm
      have hdrop : (b ++ d).dropWhile isSpace = d := by
        rw [List.dropWhile_append_of_pos hspace]
        exact dropWhile_of_append (hd ▸ List.dropWhile_idempotent isSpace u)
      have hends : endsStatement ((b ++ d).dropWhile isSpace) = true := by
        rw [hdrop]
        exact endsStatement_of_append hread (hd ▸ hu)
      refine ⟨a ++ (b ++ d), ?_, ?_⟩
      · change s = a ++ (b ++ d) ++ (statements (u.dropWhile isSpace)).2
        rw [List.append_assoc, List.append_assoc, ← hd, ← hb, hs]
      · rw [statements_eq, show statement (separators (a ++ (b ++ d))) = some (x, b ++ d) from
          hcut _ hends]
        dsimp only
        rw [if_pos hends, hdrop, hread]
        rfl
    | false =>
      simp only [hu, Bool.false_eq_true, if_false] at h
      cases h
      have hdrop : b.dropWhile isSpace = [] := List.dropWhile_eq_nil_iff.2 hspace
      have hends : endsStatement (b.dropWhile isSpace) = true := by
        rw [hdrop]
        rfl
      refine ⟨a ++ b, ?_, ?_⟩
      · rw [List.append_assoc, ← hb, hs]
      · rw [statements_eq, show statement (separators (a ++ b)) = some (x, b) from hcut _ hends]
        dsimp only
        rw [if_pos hends, hdrop, statements_of_separators separators_nil]
        rfl
termination_by s.length

end View

/-- A text is rejected for what is left of it. -/
theorem statements_eq_error_iff {s : List Char} {m : Malformed} :
    statements s = .error m ↔ (View.statements s).2 ≠ [] ∧ m = .left s (View.statements s).2 := by
  unfold statements View.statements
  obtain ⟨b, r, h⟩ := readStatements s
  cases r <;> simp [Parsed.pair, eq_comm]

/-- **A text that is no body is rejected at the place where it stops being one.**  The place lies
before the end of the text: up to it the text is a body, with the statements that were read, and
there reading stopped.  The fault is the line of the place, which is one of the lines of the text,
and the beginning of what is left of that line.  If the text is the bracketed form of a body as it
was written, that body changes nothing and fails with the fault; it has as many lines, and the line
of the place is what its line of the same number becomes. -/
theorem statements_rejected {s : List Char} {m : Malformed} (h : statements s = .error m) :
    ∃ before after, s = before ++ after ∧ after ≠ [] ∧
      (readStatements s).rest = after ∧ statements before = .ok (readStatements s).value ∧
      m.line = before.count '\n' + 1 ∧ m.line ≤ (Text.lines s).length ∧
      m.excerpt = Text.trimmed (String.ofList ((Text.firstLine after).take 40)) ∧
      (BodyError.malformed m).message =
        "syntax error on line " ++ toString m.line ++ ": unexpected input '" ++ m.excerpt ++ "'" ∧
      ∀ text : String, Shorthand.expand text.toList = s →
        (∀ judge env, run judge text env =
          { environment := env, failure? := some (.malformed m) }) ∧
        (Text.lines text.toList).length = (Text.lines s).length ∧
        ∃ written start, (Text.lines text.toList)[before.count '\n']? = some written ∧
          start <:+ before ∧ '\n' ∉ start ∧
          Shorthand.Becomes written (start ++ after.takeWhile (· ≠ '\n')) := by
  obtain ⟨hne, rfl⟩ := statements_eq_error_iff.1 h
  obtain ⟨before, hs, hbefore⟩ := View.exists_statements (Prod.eta (View.statements s)).symm
  generalize hafter : (View.statements s).2 = after at *
  have hline : (Malformed.left s after).line = before.count '\n' + 1 := by
    rw [Malformed.left, hs, consumed_append]
  refine ⟨before, after, hs, hne, hafter, statements_eq_ok_iff.2 hbefore, hline, ?_, ?_, rfl, ?_⟩
  · rw [hline, Text.length_lines, hs, List.count_append]
    omega
  · simp only [Malformed.left, Text.trimmed, String.toList_ofList]
  · intro text htext
    have hlines := Shorthand.forall₂_lines_expand text.toList
    rw [htext] at hlines
    obtain ⟨start, hstart, hnew, hat⟩ := Text.getElem?_lines_append before after
    rw [← hs] at hat
    refine ⟨fun judge env => ?_, hlines.length_eq, ?_⟩
    · rw [run, htext, h]
    · obtain ⟨hlt, hget⟩ := List.getElem?_eq_some_iff.1 hat
      have hlt' : before.count '\n' < (Text.lines text.toList).length := hlines.length_eq ▸ hlt
      refine ⟨_, start, List.getElem?_eq_getElem hlt', hstart, hnew, ?_⟩
      rw [← hget]
      exact hlines.get hlt' hlt

/-- A binding whose value is no expression, on the third line of a body with returns and a short
form: its word is still read, as a name. -/
theorem statements_rejected_binding :
    let text := "1.should_eql 1  \r\n// one\r\n\tlet y = (1 2)\r\n"
    let m : Malformed := ⟨3, "y = (1 2)"⟩
    let one : Expr := .number ⟨none, ['1'], none, none⟩
    statements (Shorthand.expand text.toList) = .error m ∧
      ∃ before after, Shorthand.expand text.toList = before ++ after ∧
        statements before =
          .ok [.expr (.assertion one "eql" false (some one)), .expr (.name "let")] ∧
        m.line = before.count '\n' + 1 ∧
        ∃ written start, (Text.lines text.toList)[before.count '\n']? = some written ∧
          start <:+ before ∧ Shorthand.Becomes written (start ++ after.takeWhile (· ≠ '\n')) := by
  intro text m one
  have h : statements (Shorthand.expand text.toList) = .error m := by decide +kernel
  have hread : (readStatements (Shorthand.expand text.toList)).value =
      [.expr (.assertion one "eql" false (some one)), .expr (.name "let")] := by decide +kernel
  obtain ⟨before, after, hs, -, -, hbefore, hline, -, -, -, hwritten⟩ := statements_rejected h
  obtain ⟨-, -, written, start, hget, hstart, -, hbecomes⟩ := hwritten text rfl
  exact ⟨h, before, after, hs, hread ▸ hbefore, hline, written, start, hget, hstart, hbecomes⟩

end Body

end SpecEngine
