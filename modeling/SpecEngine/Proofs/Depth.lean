import SpecEngine.Proofs.Reading

/-!
# Reading comes to an end

The rules of the grammar of bodies, followed as they stand with an allowance of nested rules.
Nothing in them says that a rule is followed on a shorter text, so reading that went on for ever
would use up every allowance.  None does: rules nest five deep, and a little more, for each
character.

* `expr?`, `statements?` and the rules between them: reading with an allowance, which gives nothing
  if the allowance was used up;
* `expr?_of_lt`, `statements?_of_lt`: a larger allowance suffices, on every text.
-/

namespace SpecEngine

namespace Body

namespace View

/-- What a rule gives with an allowance: nothing if that was used up. -/
abbrev Trial (α : Type) := Option α

mutual

/-- `group` with an allowance. -/
def group? : Nat → List Char → Trial (Option (Expr × List Char))
  | 0, _ => none
  | n + 1, s =>
    match opening '(' s with
    | none => some none
    | some r =>
      (expr? n r).map fun x => x.bind fun p => (signAfter isSpacing ')' p.2).map fun r₁ => (p.1, r₁)

/-- `primary` with an allowance. -/
def primary? : Nat → List Char → Trial (Option (Expr × List Char))
  | 0, _ => none
  | n + 1, s =>
    match lead s with
    | none => some none
    | some (.number m, r) => some (some (.number m, r))
    | some (.string t, r) => some (some (.string t, r))
    | some (.word w, r) =>
      if w = "box" then
        (group? n (r.dropWhile isSpace)).map fun x =>
          (x.map (Prod.map .boxed id)).or (some (wordExpr w, r))
      else some (some (wordExpr w, r))
    | some (.callable, r) =>
      (statements? n r).map fun p =>
        (signAfter isSpacing '\x7d' p.2).map fun r₁ =>
          (.callable (String.ofList (consumed s r₁)) p.1, r₁)
    | some (.list, r) =>
      (items? n r).map fun p => (closing ']' p.2).map fun r₁ => (.list p.1, r₁)
    | some (.object, r) =>
      (fields? n r).map fun p => (closing '\x7d' p.2).map fun r₁ => (.object p.1, r₁)
    | some (.group, _) => group? n s

/-- `expr` with an allowance. -/
def expr? : Nat → List Char → Trial (Option (Expr × List Char))
  | 0, _ => none
  | n + 1, s =>
    (primary? n s).bind fun x =>
      match x with
      | none => some none
      | some (e, r) => (suffixes? n e r).map some

/-- `suffixes` with an allowance. -/
def suffixes? : Nat → Expr → List Char → Trial (Expr × List Char)
  | 0, _, _ => none
  | n + 1, e, s =>
    match suffix s with
    | none => some (e, s)
    | some (.property m, r) => suffixes? n (.property e m) r
    | some (.call, r) => suffixes? n (.call e) r
    | some (.assertion negate m, r) =>
      (argument? n r).bind fun x =>
        match x with
        | none => some (e, s)
        | some (x, r₁) => suffixes? n (.assertion e m negate x) r₁

/-- `argument` with an allowance. -/
def argument? : Nat → List Char → Trial (Option (Option Expr × List Char))
  | 0, _ => none
  | n + 1, s =>
    (expr? n s).map fun x =>
      match x with
      | none => (signAfter isSpacing ')' s).map fun r => (none, r)
      | some (e, r) => (signAfter isSpacing ')' r).map fun r₁ => (some e, r₁)

/-- `items` with an allowance. -/
def items? : Nat → List Char → Trial (List Expr × List Char)
  | 0, _ => none
  | n + 1, s =>
    (expr? n s).bind fun x =>
      match x with
      | none => some ([], s)
      | some (e, r) => (moreItems? n r).map (Prod.map (e :: ·) id)

/-- `moreItems` with an allowance. -/
def moreItems? : Nat → List Char → Trial (List Expr × List Char)
  | 0, _ => none
  | n + 1, s =>
    match comma s with
    | none => some ([], s)
    | some r =>
      (expr? n r).bind fun x =>
        match x with
        | none => some ([], s)
        | some (e, r₁) => (moreItems? n r₁).map (Prod.map (e :: ·) id)

/-- `field` with an allowance. -/
def field? : Nat → List Char → Trial (Option ((String × Expr) × List Char))
  | 0, _ => none
  | n + 1, s =>
    match key s with
    | none => some none
    | some (k, r) => (expr? n r).map fun x => x.map (Prod.map (fun e => (k, e)) id)

/-- `fields` with an allowance. -/
def fields? : Nat → List Char → Trial (List (String × Expr) × List Char)
  | 0, _ => none
  | n + 1, s =>
    (field? n s).bind fun x =>
      match x with
      | none => some ([], s)
      | some (f, r) => (moreFields? n r).map (Prod.map (f :: ·) id)

/-- `moreFields` with an allowance. -/
def moreFields? : Nat → List Char → Trial (List (String × Expr) × List Char)
  | 0, _ => none
  | n + 1, s =>
    match comma s with
    | none => some ([], s)
    | some r =>
      (field? n r).bind fun x =>
        match x with
        | none => some ([], s)
        | some (f, r₁) => (moreFields? n r₁).map (Prod.map (f :: ·) id)

/-- `statement` with an allowance. -/
def statement? : Nat → List Char → Trial (Option (Statement × List Char))
  | 0, _ => none
  | n + 1, s =>
    match statementLead s with
    | none => (expr? n s).map fun x => x.map (Prod.map .expr id)
    | some (l, r) =>
      (expr? n r).bind fun x =>
        match x with
        | none => (expr? n s).map fun x => x.map (Prod.map .expr id)
        | some (e, r₁) => some (some (leading e l, r₁))

/-- `statements` with an allowance. -/
def statements? : Nat → List Char → Trial (List Statement × List Char)
  | 0, _ => none
  | n + 1, s =>
    (statement? n (separators s)).bind fun x =>
      match x with
      | none => some ([], separators s)
      | some (st, r) =>
        if endsStatement (r.dropWhile isSpace) then
          (statements? n (r.dropWhile isSpace)).map (Prod.map (st :: ·) id)
        else some ([st], r.dropWhile isSpace)

end

/-! ### Allowances that suffice -/

-- By induction on the allowance: a rule that is followed on a shorter text needs five less, one
-- that is followed on the same text is one of at most five that do that one after the other.
mutual

theorem group?_of_lt : ∀ {n : Nat} {s : List Char}, 5 * s.length < n →
    group? n s = some (group s)
  | 0, _, h => absurd h (Nat.not_lt_zero _)
  | n + 1, s, h => by
    rw [group?, group_eq]
    cases hr : opening '(' s with
    | none => rfl
    | some r =>
      have hlt := Parsed.length_lt_of_map_rest hr
      dsimp only
      rw [expr?_of_lt (by omega)]
      rfl

theorem primary?_of_lt : ∀ {n : Nat} {s : List Char}, 5 * s.length + 1 < n →
    primary? n s = some (primary s)
  | 0, _, h => absurd h (Nat.not_lt_zero _)
  | n + 1, s, h => by
    rw [primary?, primary_eq]
    cases hl : lead s with
    | none => rfl
    | some p =>
      obtain ⟨l, r⟩ := p
      have hlt := Parsed.length_lt_of_map_pair hl
      cases l with
      | number m => rfl
      | string t => rfl
      | word w =>
        have hle := Text.length_dropWhile_le isSpace r
        rw [Option.bind_some, primaryAfter]
        dsimp only
        rw [group?_of_lt (by omega)]
        split <;> rfl
      | callable =>
        dsimp only
        rw [statements?_of_lt (by omega)]
        rfl
      | list =>
        dsimp only
        rw [items?_of_lt (by omega)]
        rfl
      | object =>
        dsimp only
        rw [fields?_of_lt (by omega)]
        rfl
      | group =>
        dsimp only
        rw [group?_of_lt (by omega)]
        rfl

theorem expr?_of_lt : ∀ {n : Nat} {s : List Char}, 5 * s.length + 2 < n →
    expr? n s = some (expr s)
  | 0, _, h => absurd h (Nat.not_lt_zero _)
  | n + 1, s, h => by
    rw [expr?, expr_eq, primary?_of_lt (by omega), Option.bind_some]
    cases hp : primary s with
    | none => rfl
    | some p =>
      have hlt := Parsed.length_lt_of_map_pair (r := p.2) hp
      dsimp only
      rw [suffixes?_of_lt (by omega)]
      rfl

theorem suffixes?_of_lt : ∀ {n : Nat} {e : Expr} {s : List Char}, 5 * s.length < n →
    suffixes? n e s = some (suffixes e s)
  | 0, _, _, h => absurd h (Nat.not_lt_zero _)
  | n + 1, e, s, h => by
    rw [suffixes?, suffixes_eq]
    cases hs : suffix s with
    | none => rfl
    | some p =>
      obtain ⟨l, r⟩ := p
      have hlt := Parsed.length_lt_of_map_pair hs
      cases l with
      | property m => exact suffixes?_of_lt (by omega)
      | call => exact suffixes?_of_lt (by omega)
      | assertion negate m =>
        dsimp only
        rw [argument?_of_lt (by omega), Option.bind_some]
        cases hx : argument r with
        | none => rfl
        | some q =>
          have hlt₁ := Parsed.length_lt_of_map_pair (r := q.2) hx
          exact suffixes?_of_lt (by omega)

theorem argument?_of_lt : ∀ {n : Nat} {s : List Char}, 5 * s.length + 3 < n →
    argument? n s = some (argument s)
  | 0, _, h => absurd h (Nat.not_lt_zero _)
  | n + 1, s, h => by
    rw [argument?, argument_eq, expr?_of_lt (by omega)]
    rfl

theorem items?_of_lt : ∀ {n : Nat} {s : List Char}, 5 * s.length + 3 < n →
    items? n s = some (items s)
  | 0, _, h => absurd h (Nat.not_lt_zero _)
  | n + 1, s, h => by
    rw [items?, items_eq, expr?_of_lt (by omega), Option.bind_some]
    cases hp : expr s with
    | none => rfl
    | some p =>
      have hlt := Parsed.length_lt_of_map_pair (r := p.2) hp
      dsimp only
      rw [moreItems?_of_lt (by omega)]
      rfl

theorem moreItems?_of_lt : ∀ {n : Nat} {s : List Char}, 5 * s.length < n →
    moreItems? n s = some (moreItems s)
  | 0, _, h => absurd h (Nat.not_lt_zero _)
  | n + 1, s, h => by
    rw [moreItems?, moreItems_eq]
    cases hc : comma s with
    | none => rfl
    | some r =>
      have hlt := Parsed.length_lt_of_map_rest hc
      dsimp only
      rw [expr?_of_lt (by omega), Option.bind_some, Option.bind_some]
      cases hp : expr r with
      | none => rfl
      | some p =>
        have hlt₁ := Parsed.length_lt_of_map_pair (r := p.2) hp
        dsimp only
        rw [moreItems?_of_lt (by omega)]
        rfl

theorem field?_of_lt : ∀ {n : Nat} {s : List Char}, 5 * s.length < n →
    field? n s = some (field s)
  | 0, _, h => absurd h (Nat.not_lt_zero _)
  | n + 1, s, h => by
    rw [field?, field_eq]
    cases hk : key s with
    | none => rfl
    | some p =>
      have hlt := Parsed.length_lt_of_map_pair (r := p.2) hk
      dsimp only
      rw [expr?_of_lt (by omega)]
      rfl

theorem fields?_of_lt : ∀ {n : Nat} {s : List Char}, 5 * s.length + 1 < n →
    fields? n s = some (fields s)
  | 0, _, h => absurd h (Nat.not_lt_zero _)
  | n + 1, s, h => by
    rw [fields?, fields_eq, field?_of_lt (by omega), Option.bind_some]
    cases hp : field s with
    | none => rfl
    | some p =>
      have hlt := Parsed.length_lt_of_map_pair (r := p.2) hp
      dsimp only
      rw [moreFields?_of_lt (by omega)]
      rfl

theorem moreFields?_of_lt : ∀ {n : Nat} {s : List Char}, 5 * s.length < n →
    moreFields? n s = some (moreFields s)
  | 0, _, h => absurd h (Nat.not_lt_zero _)
  | n + 1, s, h => by
    rw [moreFields?, moreFields_eq]
    cases hc : comma s with
    | none => rfl
    | some r =>
      have hlt := Parsed.length_lt_of_map_rest hc
      dsimp only
      rw [field?_of_lt (by omega), Option.bind_some, Option.bind_some]
      cases hp : field r with
      | none => rfl
      | some p =>
        have hlt₁ := Parsed.length_lt_of_map_pair (r := p.2) hp
        dsimp only
        rw [moreFields?_of_lt (by omega)]
        rfl

theorem statement?_of_lt : ∀ {n : Nat} {s : List Char}, 5 * s.length + 3 < n →
    statement? n s = some (statement s)
  | 0, _, h => absurd h (Nat.not_lt_zero _)
  | n + 1, s, h => by
    rw [statement?, statement_eq, expr?_of_lt (n := n) (s := s) (by omega)]
    cases hl : statementLead s with
    | none => rfl
    | some p =>
      have hlt := Parsed.length_lt_of_map_pair (r := p.2) hl
      dsimp only
      rw [expr?_of_lt (by omega), Option.bind_some, Option.bind_some]
      cases expr p.2 <;> rfl

theorem statements?_of_lt : ∀ {n : Nat} {s : List Char}, 5 * s.length + 4 < n →
    statements? n s = some (View.statements s)
  | 0, _, h => absurd h (Nat.not_lt_zero _)
  | n + 1, s, h => by
    have hle := length_separators_le s
    rw [statements?, statements_eq, statement?_of_lt (by omega), Option.bind_some]
    cases hx : statement (separators s) with
    | none => rfl
    | some p =>
      have hlt := Parsed.length_lt_of_map_pair (r := p.2) hx
      have hld := Text.length_dropWhile_le isSpace p.2
      dsimp only
      rw [statements?_of_lt (by omega)]
      split <;> rfl

end

end View

end Body

end SpecEngine
