import SpecEngine.Proofs.Cutting
import SpecEngine.Proofs.Depth

/-!
# Callables as slices of their text

A callable keeps its own text.  The callables that are read of a text stand in it, in the order in
which they are read, each with the text that it keeps and the ones inside it within that text; and
this text alone is read as the same callable.

* `Expr.callables`, `Statement.callables`: the callables in an expression and in a statement;
* `View.Holds`: a text up to another one, with the callables that stand between;
* `View.holds_expr`, `View.holds_statements`: what is read of a text is held by it;
* `readExpr_of_consumed`: reading an expression depends on what it takes, and comes to an end.
-/

namespace SpecEngine

mutual

/-- The callables in an expression, in the order in which they are written, the ones inside a
callable behind it. -/
def Expr.callables : Expr → List (String × List Statement)
  | .list items => Expr.callablesOfItems items
  | .object fields => Expr.callablesOfFields fields
  | .boxed inner => inner.callables
  | .callable source body => (source, body) :: Statement.callablesOfAll body
  | .property target _ => target.callables
  | .call target => target.callables
  | .assertion actual _ _ expected => actual.callables ++ Expr.callablesOfExpected expected
  | .undefined | .null | .bool _ | .number _ | .string _ | .name _ => []

/-- The callables in an expected value, which may be missing. -/
def Expr.callablesOfExpected : Option Expr → List (String × List Statement)
  | none => []
  | some e => e.callables

/-- The callables in the items of a list. -/
def Expr.callablesOfItems : List Expr → List (String × List Statement)
  | [] => []
  | e :: es => e.callables ++ Expr.callablesOfItems es

/-- The callables in the fields of an object. -/
def Expr.callablesOfFields : List (String × Expr) → List (String × List Statement)
  | [] => []
  | (_, e) :: fs => e.callables ++ Expr.callablesOfFields fs

/-- The callables in a statement. -/
def Statement.callables : Statement → List (String × List Statement)
  | .bind _ e => e.callables
  | .raise e => e.callables
  | .expr e => e.callables

/-- The callables in a row of statements. -/
def Statement.callablesOfAll : List Statement → List (String × List Statement)
  | [] => []
  | s :: ss => s.callables ++ Statement.callablesOfAll ss

end

namespace Body

theorem callables_wordExpr (w : String) : (wordExpr w).callables = [] := by
  unfold wordExpr
  repeat' split
  all_goals rfl

theorem callables_leading (e : Expr) (l : StatementLead) :
    (View.leading e l).callables = e.callables := by
  cases l <;> rfl

namespace View

/-- The text goes up to `r`, and these callables stand in between: each is read where its source
stands, and the callables inside it stand in its source. -/
inductive Holds : List (String × List Statement) → List Char → List Char → Prop
  | nil (s : List Char) : Holds [] s s
  | skip {cs : List (String × List Statement)} {s r : List Char} (c : Char) (h : Holds cs s r) :
    Holds cs (c :: s) r
  | callable {cs : List (String × List Statement)} {body : List Statement} {p u r : List Char}
      (hread : primary (p ++ u) = some (.callable (String.ofList p) body, u))
      (hbody : Holds (Statement.callablesOfAll body) (p ++ u) u) (h : Holds cs u r) :
    Holds ((String.ofList p, body) :: (Statement.callablesOfAll body ++ cs)) (p ++ u) r

variable {cs ds : List (String × List Statement)} {s r u : List Char}

namespace Holds

theorem trans (h : Holds cs s u) (h' : Holds ds u r) : Holds (cs ++ ds) s r := by
  induction h with
  | nil s => exact h'
  | skip c _ ih => exact .skip c (ih h')
  | callable hread hbody _ _ ih =>
    rw [List.cons_append, List.append_assoc]
    exact .callable hread hbody (ih h')

theorem of_suffix (h : r <:+ s) : Holds [] s r := by
  obtain ⟨p, rfl⟩ := h
  induction p with
  | nil => exact .nil r
  | cons c p ih => exact .skip c ih

/-- Characters may be left out in front. -/
theorem after (h : u <:+ s) (h' : Holds cs u r) : Holds cs s r :=
  (of_suffix h).trans h'

/-- Characters may be left out behind. -/
theorem before (h : Holds cs s u) (h' : r <:+ u) : Holds cs s r := by
  have ht := h.trans (of_suffix h')
  rwa [List.append_nil] at ht

end Holds

theorem separators_suffix (s : List Char) : separators s <:+ s := by
  induction s using separators_induction with
  | nil => simp only [separators_nil, List.suffix_rfl]
  | skip c s hc ih =>
    rw [separators_skip hc]
    exact ih.trans (List.suffix_cons c s)
  | comment s r hc ih =>
    rw [separators_comment hc]
    obtain ⟨rfl, -⟩ := comment_eq_some_iff.1 hc
    exact (ih.trans (List.dropWhile_suffix _)).trans ⟨['/', '/'], rfl⟩
  | stop c s hc hs => simp only [separators_stop hc hs, List.suffix_rfl]

/-- Each callable that stands in a text is read of its source alone. -/
theorem Holds.expr_eq (h : Holds cs s r) : ∀ c ∈ cs,
    expr c.1.toList = some (.callable c.1 c.2, []) := by
  induction h with
  | nil s => exact nofun
  | skip c _ ih => exact ih
  | @callable cs body p u r hread _ _ ihbody ih =>
    intro c hc
    rcases List.mem_cons.1 hc with rfl | hc
    · obtain ⟨q, hq, hcut⟩ := cut_primary hread
      obtain rfl := List.append_cancel_right hq
      have halone := hcut [] over_nil.follows
      rw [List.append_nil] at halone
      rw [String.toList_ofList, expr_of_primary halone, over_nil.suffixes_eq]
    · exact (List.mem_append.1 hc).elim (ihbody c) (ih c)

/-! ### What is read of a text -/

mutual

theorem holds_group {s r : List Char} {e : Expr} (h : group s = some (e, r)) :
    Holds e.callables s r := by
  rw [group_eq] at h
  obtain ⟨u, hu, h⟩ := Option.bind_eq_some_iff.1 h
  obtain ⟨⟨e', v⟩, hv, h⟩ := Option.bind_eq_some_iff.1 h
  obtain ⟨w, hw, heq⟩ := Option.map_eq_some_iff.1 h
  cases heq
  have hlt := Parsed.length_lt_of_map_rest hu
  exact ((holds_expr hv).after (cut_opening hu).suffix).before
    (cut_signAfter (by decide) hw).suffix
termination_by 5 * s.length

theorem holds_primary {s r : List Char} {e : Expr} (h : primary s = some (e, r)) :
    Holds e.callables s r := by
  have hread := h
  rw [primary_eq] at h
  obtain ⟨⟨l, u⟩, hl, h⟩ := Option.bind_eq_some_iff.1 h
  have hlt := Parsed.length_lt_of_map_pair hl
  have hlead := (cut_lead hl).suffix
  cases l with
  | number n =>
    cases h
    exact .of_suffix hlead
  | string t =>
    cases h
    exact .of_suffix hlead
  | word w =>
    have hword : Holds (wordExpr w).callables s u := by
      rw [callables_wordExpr]
      exact .of_suffix hlead
    rw [primaryAfter] at h
    split at h
    · have hle := Text.length_dropWhile_le isSpace u
      rcases Option.or_eq_some_iff.1 h with h | ⟨-, h⟩
      · obtain ⟨⟨e', v⟩, hg, heq⟩ := Option.map_eq_some_iff.1 h
        cases heq
        exact (holds_group hg).after ((List.dropWhile_suffix _).trans hlead)
      · cases h
        exact hword
    · cases h
      exact hword
  | callable =>
    obtain ⟨v, hv, heq⟩ := Option.map_eq_some_iff.1 h
    cases heq
    have hbody := ((holds_statements (Prod.eta _).symm).after hlead).before
      (cut_signAfter (by decide) hv).suffix
    obtain ⟨p, rfl, -⟩ := cut_primary hread
    rw [consumed_append] at hread ⊢
    have hheld := Holds.callable hread hbody (.nil r)
    rwa [List.append_nil] at hheld
  | list =>
    obtain ⟨v, hv, heq⟩ := Option.map_eq_some_iff.1 h
    cases heq
    have hclose := (cut_closing (Or.inl rfl) hv).suffix
    exact ((holds_items (Prod.eta _).symm).after hlead).before hclose
  | object =>
    obtain ⟨v, hv, heq⟩ := Option.map_eq_some_iff.1 h
    cases heq
    have hclose := (cut_closing (Or.inr rfl) hv).suffix
    exact ((holds_fields (Prod.eta _).symm).after hlead).before hclose
  | group => exact holds_group h
termination_by 5 * s.length + 1

theorem holds_expr {s r : List Char} {e : Expr} (h : expr s = some (e, r)) :
    Holds e.callables s r := by
  rw [expr_eq] at h
  obtain ⟨⟨e', u⟩, hu, hs⟩ := Option.map_eq_some_iff.1 h
  have hlt := Parsed.length_lt_of_map_pair hu
  obtain ⟨cs, hcs, hrest⟩ := holds_suffixes hs
  rw [hcs]
  exact (holds_primary hu).trans hrest
termination_by 5 * s.length + 2

/-- What goes on with an expression has its callables behind those of the expression. -/
theorem holds_suffixes {s r : List Char} {e e' : Expr} (h : suffixes e s = (e', r)) :
    ∃ cs, e'.callables = e.callables ++ cs ∧ Holds cs s r := by
  rw [suffixes_eq] at h
  cases hs : suffix s with
  | none =>
    rw [hs] at h
    cases h
    exact ⟨[], (List.append_nil _).symm, .nil s⟩
  | some p =>
    obtain ⟨l, u⟩ := p
    have hlt := Parsed.length_lt_of_map_pair hs
    have hsuffix := (cut_suffix hs).suffix
    rw [hs] at h
    cases l with
    | property n =>
      obtain ⟨cs, hcs, hrest⟩ := holds_suffixes (e := .property e n) h
      exact ⟨cs, hcs, hrest.after hsuffix⟩
    | call =>
      obtain ⟨cs, hcs, hrest⟩ := holds_suffixes (e := .call e) h
      exact ⟨cs, hcs, hrest.after hsuffix⟩
    | assertion negate m =>
      cases hx : argument u with
      | none =>
        simp only [hx] at h
        cases h
        exact ⟨[], (List.append_nil _).symm, .nil s⟩
      | some q =>
        obtain ⟨x, v⟩ := q
        have hlt₁ := Parsed.length_lt_of_map_pair hx
        simp only [hx] at h
        obtain ⟨cs, hcs, hrest⟩ := holds_suffixes (e := .assertion e m negate x) h
        refine ⟨Expr.callablesOfExpected x ++ cs, ?_, ?_⟩
        · rw [hcs, Expr.callables, List.append_assoc]
        · exact ((holds_argument hx).trans hrest).after hsuffix
termination_by 5 * s.length

theorem holds_argument {s r : List Char} {x : Option Expr} (h : argument s = some (x, r)) :
    Holds (Expr.callablesOfExpected x) s r := by
  rw [argument_eq] at h
  cases he : expr s with
  | none =>
    simp only [he] at h
    obtain ⟨u, hu, heq⟩ := Option.map_eq_some_iff.1 h
    cases heq
    exact .of_suffix (cut_signAfter (by decide) hu).suffix
  | some p =>
    simp only [he] at h
    obtain ⟨u, hu, heq⟩ := Option.map_eq_some_iff.1 h
    cases heq
    exact (holds_expr he).before (cut_signAfter (by decide) hu).suffix
termination_by 5 * s.length + 3

theorem holds_items {s r : List Char} {es : List Expr} (h : items s = (es, r)) :
    Holds (Expr.callablesOfItems es) s r := by
  rw [items_eq] at h
  cases he : expr s with
  | none =>
    rw [he] at h
    cases h
    exact .nil s
  | some p =>
    have hlt := Parsed.length_lt_of_map_pair (r := p.2) he
    rw [he] at h
    cases h
    exact (holds_expr he).trans (holds_moreItems (Prod.eta _).symm)
termination_by 5 * s.length + 3

theorem holds_moreItems {s r : List Char} {es : List Expr} (h : moreItems s = (es, r)) :
    Holds (Expr.callablesOfItems es) s r := by
  rw [moreItems_eq] at h
  cases he : (comma s).bind expr with
  | none =>
    rw [he] at h
    cases h
    exact .nil s
  | some p =>
    obtain ⟨u, hu, he'⟩ := Option.bind_eq_some_iff.1 he
    have hlt := Parsed.length_lt_of_map_rest hu
    have hlt₁ := Parsed.length_lt_of_map_pair (r := p.2) he'
    rw [he] at h
    cases h
    exact ((holds_expr he').trans (holds_moreItems (Prod.eta _).symm)).after (cut_comma hu).suffix
termination_by 5 * s.length

theorem holds_field {s r : List Char} {f : String × Expr} (h : field s = some (f, r)) :
    Holds f.2.callables s r := by
  rw [field_eq] at h
  obtain ⟨⟨k, u⟩, hu, h⟩ := Option.bind_eq_some_iff.1 h
  obtain ⟨⟨e, v⟩, hv, heq⟩ := Option.map_eq_some_iff.1 h
  cases heq
  have hlt := Parsed.length_lt_of_map_pair hu
  exact (holds_expr hv).after (cut_key hu).suffix
termination_by 5 * s.length

theorem holds_fields {s r : List Char} {fs : List (String × Expr)} (h : fields s = (fs, r)) :
    Holds (Expr.callablesOfFields fs) s r := by
  rw [fields_eq] at h
  cases hf : field s with
  | none =>
    rw [hf] at h
    cases h
    exact .nil s
  | some p =>
    have hlt := Parsed.length_lt_of_map_pair (r := p.2) hf
    rw [hf] at h
    cases h
    exact (holds_field hf).trans (holds_moreFields (Prod.eta _).symm)
termination_by 5 * s.length + 1

theorem holds_moreFields {s r : List Char} {fs : List (String × Expr)}
    (h : moreFields s = (fs, r)) : Holds (Expr.callablesOfFields fs) s r := by
  rw [moreFields_eq] at h
  cases hf : (comma s).bind field with
  | none =>
    rw [hf] at h
    cases h
    exact .nil s
  | some p =>
    obtain ⟨u, hu, hf'⟩ := Option.bind_eq_some_iff.1 hf
    have hlt := Parsed.length_lt_of_map_rest hu
    have hlt₁ := Parsed.length_lt_of_map_pair (r := p.2) hf'
    rw [hf] at h
    cases h
    exact ((holds_field hf').trans (holds_moreFields (Prod.eta _).symm)).after
      (cut_comma hu).suffix
termination_by 5 * s.length

theorem holds_statement {s r : List Char} {x : Statement} (h : statement s = some (x, r)) :
    Holds x.callables s r := by
  rw [statement_eq] at h
  rcases Option.or_eq_some_iff.1 h with h | ⟨-, h⟩
  · obtain ⟨⟨l, u⟩, hl, h⟩ := Option.bind_eq_some_iff.1 h
    obtain ⟨⟨e, v⟩, hv, heq⟩ := Option.map_eq_some_iff.1 h
    cases heq
    have hlt := Parsed.length_lt_of_map_pair hl
    have he := (holds_expr hv).after (cut_statementLead hl).suffix
    rwa [← callables_leading e l] at he
  · obtain ⟨⟨e, v⟩, hv, heq⟩ := Option.map_eq_some_iff.1 h
    cases heq
    exact holds_expr hv
termination_by 5 * s.length + 3

theorem holds_statements {s r : List Char} {body : List Statement}
    (h : View.statements s = (body, r)) : Holds (Statement.callablesOfAll body) s r := by
  have hle := length_separators_le s
  have hsep := separators_suffix s
  rw [statements_eq] at h
  cases hx : statement (separators s) with
  | none =>
    rw [hx] at h
    cases h
    exact .of_suffix hsep
  | some p =>
    have hlt := Parsed.length_lt_of_map_pair (r := p.2) hx
    have hld := Text.length_dropWhile_le isSpace p.2
    have hfirst := ((holds_statement hx).before (List.dropWhile_suffix isSpace)).after hsep
    rw [hx] at h
    dsimp only at h
    split at h
    · cases h
      exact hfirst.trans (holds_statements (Prod.eta _).symm)
    · cases h
      rw [Statement.callablesOfAll, Statement.callablesOfAll, List.append_nil]
      exact hfirst
termination_by 5 * s.length + 4

end

end View

theorem View.expr_eq_some_iff {s r : List Char} {e : Expr} :
    View.expr s = some (e, r) ↔ ∃ h, readExpr s = some ⟨e, r, h⟩ := by
  rw [View.expr, Option.map_eq_some_iff]
  constructor
  · rintro ⟨⟨e', r', h⟩, hp, heq⟩
    cases heq
    exact ⟨h, hp⟩
  · rintro ⟨h, hp⟩
    exact ⟨_, hp, rfl⟩

/-- **Reading depends on what it takes, and comes to an end.**  Of an expression that is read in
front of `rest`, the text in front of `rest` alone is read, with nothing left.  Every callable that
is read of a text, within an expression or a statement, stands there with the source that it keeps,
and this source alone is read as the same callable.  Whatever the text, the rules of the grammar
come to what is read within an allowance that is linear in its length. -/
theorem read_of_consumed (s : List Char) :
    (∀ e rest h, readExpr s = some ⟨e, rest, h⟩ →
      (∃ p, p ≠ [] ∧ s = p ++ rest ∧ ∃ h, readExpr p = some ⟨e, [], h⟩) ∧
      View.Holds e.callables s rest ∧
      ∀ c ∈ e.callables, ∃ h, readExpr c.1.toList = some ⟨.callable c.1 c.2, [], h⟩) ∧
    (View.Holds (Statement.callablesOfAll (readStatements s).value) s (readStatements s).rest ∧
      ∀ c ∈ Statement.callablesOfAll (readStatements s).value,
        ∃ h, readExpr c.1.toList = some ⟨.callable c.1 c.2, [], h⟩) ∧
    ∀ n, 5 * s.length + 5 ≤ n →
      View.expr? n s = some ((readExpr s).map Parsed.pair) ∧
      View.statements? n s = some (readStatements s).pair := by
  refine ⟨fun e rest h hread => ?_, ?_, fun n hn => ?_⟩
  · have hs := View.expr_eq_some_iff.2 ⟨h, hread⟩
    obtain ⟨p, hp, hcut⟩ := View.cut_expr hs
    have hne : p ≠ [] := by
      rintro rfl
      rw [hp] at h
      exact Nat.lt_irrefl _ h
    have halone := hcut [] View.over_nil
    rw [List.append_nil] at halone
    have hheld := View.holds_expr hs
    exact ⟨⟨p, hne, hp, View.expr_eq_some_iff.1 halone⟩, hheld, fun c hc =>
      View.expr_eq_some_iff.1 (hheld.expr_eq c hc)⟩
  · have hheld := View.holds_statements (s := s) (Prod.eta _).symm
    exact ⟨hheld, fun c hc => View.expr_eq_some_iff.1 (hheld.expr_eq c hc)⟩
  · exact ⟨View.expr?_of_lt (by omega), View.statements?_of_lt (by omega)⟩

/-- A callable with another one in it, in front of an assertion that is never closed. -/
theorem read_of_consumed_unclosed :
    let source := "-> \x7b let f = -> \x7b 1 \x7d // ' \x7d\n \x7d"
    let rest := ".should_eql([-> \x7b 2 \x7d, 'x".toList
    let one : List Statement := [.expr (.number ⟨none, ['1'], none, none⟩)]
    let e : Expr := .callable source [.bind "f" (.callable "-> \x7b 1 \x7d" one)]
    (∃ h, readExpr (source.toList ++ rest) = some ⟨e, rest, h⟩) ∧
      (∃ p, p ≠ [] ∧ source.toList ++ rest = p ++ rest ∧ ∃ h, readExpr p = some ⟨e, [], h⟩) ∧
      ∃ h, readExpr "-> \x7b 1 \x7d".toList = some ⟨.callable "-> \x7b 1 \x7d" one, [], h⟩ := by
  intro source rest one e
  obtain ⟨hexpr, -⟩ := (read_of_consumed (source.toList ++ rest)).2.2 400 (by decide)
  have hs : View.expr (source.toList ++ rest) = some (e, rest) :=
    Option.some.inj (hexpr.symm.trans (by decide +kernel))
  obtain ⟨h, hread⟩ := View.expr_eq_some_iff.1 hs
  obtain ⟨hcut, -, halone⟩ := (read_of_consumed (source.toList ++ rest)).1 e rest h hread
  have hone : ("-> \x7b 1 \x7d", one) ∈ e.callables := List.mem_cons_of_mem _ List.mem_cons_self
  exact ⟨⟨h, hread⟩, hcut, halone _ hone⟩

end Body

end SpecEngine
