import Mathlib.Data.List.TakeWhile
import SpecEngine.Body.Reader

/-!
# The grammar of bodies

What the readers of bodies take from a text, without the bounds that make them end.  Each reader
is seen as a function to a value and the text behind it, and has the equation of its rule.

* `View.sign`, `View.name`, `View.string`, `View.numeral`: the smallest parts;
* `View.lead`, `View.suffix`, `View.key`, `View.statementLead`: how larger parts begin;
* `View.expr`, `View.statements` and the rules between them (`expr_eq`, `statements_eq`);
* `statements_eq_ok_iff`: a body is read when nothing of it is left.
-/

namespace SpecEngine

namespace Parsed

variable {α : Type} {n : Nat}

theorem length_lt_of_map_pair {o : Option (Parsed α n)} {v : α} {r : List Char}
    (h : o.map pair = some (v, r)) : r.length < n := by
  obtain ⟨p, -, hp⟩ := Option.map_eq_some_iff.1 h
  cases hp
  exact p.shorter

theorem length_lt_of_map_rest {o : Option (Parsed α n)} {r : List Char}
    (h : o.map rest = some r) : r.length < n := by
  obtain ⟨p, -, rfl⟩ := Option.map_eq_some_iff.1 h
  exact p.shorter

end Parsed

namespace Body

namespace View

/-! ### Signs -/

/-- Takes the character `c`. -/
def sign (c : Char) (s : List Char) : Option (List Char) :=
  (Text.sign c s).map Parsed.rest

@[simp] theorem sign_nil (c : Char) : sign c [] = none := rfl

theorem sign_cons (c d : Char) (s : List Char) :
    sign c (d :: s) = if d = c then some s else none :=
  apply_ite (Option.map Parsed.rest) _ _ _

theorem sign_eq_some_iff {c : Char} {s r : List Char} : sign c s = some r ↔ s = c :: r := by
  cases s with
  | nil => simp
  | cons d s =>
    rw [sign_cons]
    split
    · next h => simp [h]
    · next h => simp [h]

theorem sign_eq_none {c : Char} {s : List Char} (h : ∀ t, s ≠ c :: t) : sign c s = none :=
  Option.eq_none_iff_forall_ne_some.2 fun r hr => h r (sign_eq_some_iff.1 hr)

/-- Takes the character `c` and the characters of a kind before it. -/
def signAfter (p : Char → Bool) (c : Char) (s : List Char) : Option (List Char) :=
  (Text.signAfter p c s).map Parsed.rest

theorem signAfter_eq (p : Char → Bool) (c : Char) (s : List Char) :
    signAfter p c s = sign c (s.dropWhile p) := by
  rw [signAfter, Text.signAfter, Option.map_map]
  rfl

/-- Takes an opening bracket and the spacing behind it. -/
def opening (c : Char) (s : List Char) : Option (List Char) :=
  (readOpening c s).map Parsed.rest

theorem opening_eq (c : Char) (s : List Char) :
    opening c s = (sign c s).map (List.dropWhile isSpacing) := by
  rw [opening, readOpening, sign, Option.map_map, Option.map_map]
  rfl

/-- Takes a closing bracket, before which a comma may stand. -/
def closing (c : Char) (s : List Char) : Option (List Char) :=
  (readClosing c s).map Parsed.rest

theorem closing_eq (c : Char) (s : List Char) :
    closing c s = signAfter isSpacing c ((signAfter isSpacing ',' s).getD s) := by
  rw [closing, readClosing, signAfter, signAfter]
  cases Text.signAfter isSpacing ',' s with
  | none => rfl
  | some p => exact Option.map_map ..

/-- Takes a comma between spacing. -/
def comma (s : List Char) : Option (List Char) :=
  (readComma s).map Parsed.rest

theorem comma_eq (s : List Char) :
    comma s = (signAfter isSpacing ',' s).map (List.dropWhile isSpacing) := by
  rw [comma, readComma, signAfter, Option.map_map, Option.map_map]
  rfl

/-- Takes the arrow of a callable and the brace behind it. -/
def arrow (s : List Char) : Option (List Char) :=
  (readArrow s).map Parsed.rest

theorem arrow_eq (s : List Char) :
    arrow s = (Text.after? "->".toList s).bind (signAfter isSpace '\x7b') := by
  unfold arrow readArrow
  split
  · next h =>
    simp only [h, Option.bind_none]
    rfl
  · next r h =>
    simp only [h, Option.bind_some, Option.map_map, signAfter]
    rfl

/-! ### Names and texts -/

/-- Takes a name. -/
def name (s : List Char) : Option (String × List Char) :=
  (readName s).map Parsed.pair

theorem name_cons (c : Char) (s : List Char) :
    name (c :: s) =
      if isNameStart c then
        some (String.ofList (c :: s.takeWhile isNameChar), s.dropWhile isNameChar)
      else none :=
  apply_ite (Option.map Parsed.pair) _ _ _

/-- Takes the rest of a text between quotes `q`, and the closing one. -/
def quoted (q : Char) (s : List Char) : Option (List Char × List Char) :=
  (readQuoted q s).map Parsed.pair

theorem quoted_cons (q c : Char) (s : List Char) :
    quoted q (c :: s) =
      if c = q then some ([], s) else if c = '\n' then none
      else (quoted q s).map (Prod.map (c :: ·) id) := by
  rw [quoted, readQuoted, apply_ite (Option.map Parsed.pair), apply_ite (Option.map Parsed.pair),
    Option.map_map, quoted, Option.map_map]
  rfl

/-- A text has no quote of its kind and no line feed in it. -/
theorem eq_append_of_quoted {q : Char} {s t r : List Char} (h : quoted q s = some (t, r)) :
    s = t ++ q :: r ∧ q ∉ t ∧ '\n' ∉ t := by
  induction s generalizing t with
  | nil => cases h
  | cons c s ih =>
    rw [quoted_cons] at h
    split at h
    · next hc =>
      cases h
      simp [hc]
    · next hc =>
      split at h
      · cases h
      · next hn =>
        obtain ⟨⟨t, r⟩, hp, heq⟩ := Option.map_eq_some_iff.1 h
        cases heq
        obtain ⟨rfl, hq, hf⟩ := ih hp
        exact ⟨rfl, List.not_mem_cons_of_ne_of_not_mem (Ne.symm hc) hq,
          List.not_mem_cons_of_ne_of_not_mem (Ne.symm hn) hf⟩

theorem quoted_append {q : Char} {t : List Char} (ht : q ∉ t ∧ '\n' ∉ t) (s : List Char) :
    quoted q (t ++ q :: s) = some (t, s) := by
  induction t with
  | nil => rw [List.nil_append, quoted_cons, if_pos rfl]
  | cons c t ih =>
    have hq : c ≠ q := fun h => ht.1 (by simp [h])
    have hn : c ≠ '\n' := fun h => ht.2 (by simp [h])
    rw [List.cons_append, quoted_cons, if_neg hq, if_neg hn,
      ih ⟨fun h => ht.1 (List.mem_cons_of_mem _ h), fun h => ht.2 (List.mem_cons_of_mem _ h)⟩]
    rfl

/-- Takes a text between quotes of one of the two kinds. -/
def string (s : List Char) : Option (String × List Char) :=
  (readString s).map Parsed.pair

theorem string_cons (c : Char) (s : List Char) :
    string (c :: s) =
      if c = '\'' || c = '"' then (quoted c s).map (Prod.map String.ofList id) else none := by
  rw [string, readString, apply_ite (Option.map Parsed.pair), Option.map_map, quoted,
    Option.map_map]
  rfl

/-! ### Numerals -/

/-- Takes digits, at least one. -/
def digits (s : List Char) : Option (List Char × List Char) :=
  (Numeral.digits s).map Parsed.pair

theorem digits_cons (c : Char) (s : List Char) :
    digits (c :: s) =
      if Char.isDigit c then some (c :: s.takeWhile Char.isDigit, s.dropWhile Char.isDigit)
      else none :=
  apply_ite (Option.map Parsed.pair) _ _ _

/-- Takes a sign that `p` admits, if there is one. -/
def numeralSign (p : Char → Bool) (s : List Char) : Option Char × List Char :=
  (Numeral.readSign p s).pair

theorem numeralSign_cons (p : Char → Bool) (c : Char) (s : List Char) :
    numeralSign p (c :: s) = if p c then (some c, s) else (none, c :: s) :=
  apply_ite Parsed.pair _ _ _

/-- Takes a point with digits behind it, if both are there. -/
def fraction (s : List Char) : Option (List Char) × List Char :=
  (Numeral.readFraction s).pair

theorem fraction_eq (s : List Char) :
    fraction s =
      match (sign '.' s).bind digits with
      | some (ds, r) => (some ds, r)
      | none => (none, s) := by
  unfold fraction Numeral.readFraction
  split
  · next t =>
    rw [sign_cons, if_pos rfl, Option.bind_some, digits]
    cases Numeral.digits t <;> rfl
  · next hs =>
    rw [sign_eq_none hs]
    rfl

/-- Takes the mark of an exponent and the sign behind it, if there is one. -/
def mark (s : List Char) : Option ((Char × Option Char) × List Char) :=
  (Numeral.readMark s).map Parsed.pair

theorem mark_cons (c : Char) (s : List Char) :
    mark (c :: s) =
      if c = 'e' || c = 'E' then some (Prod.map (fun sign => (c, sign)) id
        (numeralSign Numeral.isSign s))
      else none :=
  apply_ite (Option.map Parsed.pair) _ _ _

/-- Takes an exponent, if a whole one is there. -/
def exponent (s : List Char) : Option Exponent × List Char :=
  (Numeral.readExponent s).pair

theorem exponent_eq (s : List Char) :
    exponent s =
      match mark s with
      | none => (none, s)
      | some (m, r) =>
        match digits r with
        | none => (none, s)
        | some (ds, t) => (some ⟨m.1, m.2, ds⟩, t) := by
  unfold exponent Numeral.readExponent mark
  cases hm : Numeral.readMark s with
  | none => rfl
  | some p =>
    obtain ⟨⟨m, sign⟩, r, h⟩ := p
    simp only [Option.map_some, Parsed.pair, digits]
    cases Numeral.digits r <;> rfl

/-- Takes a numeral. -/
def numeral (s : List Char) : Option (Numeral × List Char) :=
  (Numeral.read s).map Parsed.pair

theorem numeral_eq (s : List Char) :
    numeral s =
      (digits (numeralSign (· = '-') s).2).map fun (whole, r) =>
        (⟨(numeralSign (· = '-') s).1, whole, (fraction r).1, (exponent (fraction r).2).1⟩,
          (exponent (fraction r).2).2) := by
  unfold numeral Numeral.read numeralSign
  obtain ⟨sign, r, h⟩ := Numeral.readSign (· = '-') s
  simp only [Parsed.pair, digits]
  cases Numeral.digits r <;> rfl

/-! ### How larger parts begin -/

/-- Takes what begins an expression that nothing precedes. -/
def lead (s : List Char) : Option (Lead × List Char) :=
  (readLead s).map Parsed.pair

theorem lead_eq (s : List Char) :
    lead s =
      ((arrow s).map fun r => (.callable, r)).or
        (((numeral s).map (Prod.map .number id)).or
          (((string s).map (Prod.map .string id)).or
            (((opening '[' s).map fun r => (.list, r)).or
              (((opening '\x7b' s).map fun r => (.object, r)).or
                (((name s).map (Prod.map .word id)).or
                  ((opening '(' s).map fun r => (.group, r))))))) := by
  unfold lead readLead arrow numeral string opening name
  cases readArrow s <;> cases Numeral.read s <;> cases readString s <;>
    cases readOpening '[' s <;> cases readOpening '\x7b' s <;> cases readName s <;>
    cases readOpening '(' s <;> rfl

/-- Takes `not_`, if it is there. -/
def not (s : List Char) : Bool × List Char :=
  (readNot s).pair

theorem not_eq (s : List Char) :
    not s = ((Text.after? "not_".toList s).map fun r => (true, r)).getD (false, s) := by
  unfold not readNot
  split
  · next h =>
    simp only [h]
    rfl
  · next r h =>
    simp only [h]
    rfl

/-- Takes the name of a matcher, `not_` before it, and the bracket behind it. -/
def matcher (s : List Char) : Option ((Bool × String) × List Char) :=
  (readMatcher s).map Parsed.pair

theorem matcher_eq (s : List Char) :
    matcher s =
      (name (not s).2).bind fun p =>
        (opening '(' p.2).map fun r => (((not s).1, p.1), r) := by
  unfold matcher readMatcher not
  obtain ⟨negate, r, h⟩ := readNot s
  simp only [Parsed.pair, name]
  cases readName r with
  | none => rfl
  | some p =>
    simp only [Option.map_some, Option.bind_some, opening, Option.map_map]
    rfl

/-- Takes what goes on with an expression, one step of it. -/
def suffix (s : List Char) : Option (Suffix × List Char) :=
  (readSuffix s).map Parsed.pair

theorem suffix_eq (s : List Char) :
    suffix s =
      match Text.after? ".should_".toList s with
      | some r => (matcher r).map fun p => (.assertion p.1.1 p.1.2, p.2)
      | none =>
        match sign '.' s with
        | some r => (name r).map (Prod.map .property id)
        | none => ((opening '(' s).bind (sign ')')).map fun r => (.call, r) := by
  unfold suffix readSuffix
  split
  · next r h =>
    simp only [h, matcher, Option.map_map]
    rfl
  · next h =>
    simp only [h, sign]
    cases Text.sign '.' s with
    | some p =>
      simp only [Option.map_some, name, Option.map_map]
      rfl
    | none =>
      simp only [Option.map_none, opening]
      cases readOpening '(' s with
      | none => rfl
      | some p =>
        simp only [Option.map_some, Option.bind_some, sign, Option.map_map]
        rfl

/-- Takes the key of a field and the colon behind it. -/
def key (s : List Char) : Option (String × List Char) :=
  (readKey s).map Parsed.pair

theorem key_eq (s : List Char) :
    key s =
      ((name s).or (string s)).bind fun p =>
        (signAfter isSpace ':' p.2).map fun r => (p.1, r.dropWhile isSpacing) := by
  unfold key readKey name string
  cases readName s with
  | some p =>
    simp only [Option.some_or, Option.map_some, Option.bind_some, signAfter, Option.map_map]
    rfl
  | none =>
    simp only [Option.none_or, Option.map_none]
    cases readString s with
    | none => rfl
    | some p =>
      simp only [Option.map_some, Option.bind_some, signAfter, Option.map_map]
      rfl

/-- Takes a given word and the blanks behind it. -/
def word (w : String) (s : List Char) : Option (List Char) :=
  (readWord w s).map Parsed.rest

theorem word_eq (w : String) (s : List Char) :
    word w s =
      (name s).bind fun p => if p.1 = w then some (p.2.dropWhile isSpace) else none := by
  unfold word readWord name
  cases readName s with
  | none => rfl
  | some p => exact apply_ite (Option.map Parsed.rest) _ _ _

/-- Takes the beginning of a binding up to its value. -/
def binding (s : List Char) : Option (String × List Char) :=
  (readBinding s).map Parsed.pair

theorem binding_eq (s : List Char) :
    binding s =
      (word "let" s).bind fun r =>
        (name r).bind fun p =>
          if p.1 ∈ reservedWords then none
          else (signAfter isSpace '=' p.2).map fun r₁ => (p.1, r₁.dropWhile isSpace) := by
  unfold binding readBinding word
  cases readWord "let" s with
  | none => rfl
  | some p =>
    simp only [Option.map_some, Option.bind_some, name]
    cases readName p.rest with
    | none => rfl
    | some q =>
      simp only [Option.map_some, Option.bind_some, signAfter, Parsed.pair, apply_ite
        (Option.map Parsed.pair), Option.map_none, Option.map_map]
      rfl

/-- Takes what begins a statement that is more than an expression. -/
def statementLead (s : List Char) : Option (StatementLead × List Char) :=
  (readStatementLead s).map Parsed.pair

theorem statementLead_eq (s : List Char) :
    statementLead s =
      ((binding s).map (Prod.map .bind id)).or ((word "raise" s).map fun r => (.raise, r)) := by
  unfold statementLead readStatementLead binding word
  cases readBinding s <;> cases readWord "raise" s <;> rfl

/-- Takes what stands behind the slashes of a comment, up to the end of its line. -/
def comment (s : List Char) : Option (List Char) :=
  (skipComment s).map Parsed.rest

/-- A comment ends with its line, unless a return is in it that is not part of a line break. -/
theorem comment_eq_some_iff {s r : List Char} :
    comment s = some r ↔
      s.dropWhile (fun c => c ≠ '\n' && c ≠ '\r') = r ∧
        ∀ t, r = '\r' :: t → ∃ u, t = '\n' :: u := by
  change ((skipComment s).map Parsed.rest) = some r ↔
    (Text.skip (fun c => c ≠ '\n' && c ≠ '\r') s).rest = r ∧ _
  unfold skipComment
  generalize Text.skip (fun c => c ≠ '\n' && c ≠ '\r') s = p
  obtain ⟨_, v, h⟩ := p
  dsimp only
  split
  · next t _ =>
    rw [Option.map_some, Option.some.injEq]
    constructor
    · rintro rfl
      exact ⟨rfl, fun u hu => ⟨t, (List.cons.inj hu).2.symm⟩⟩
    · exact And.left
  · next t _ hn =>
    constructor
    · intro h
      cases h
    · rintro ⟨rfl, hr⟩
      obtain ⟨u, rfl⟩ := hr t rfl
      exact (hn u _ HEq.rfl rfl).elim
  · next hn =>
    rw [Option.map_some, Option.some.injEq]
    constructor
    · rintro rfl
      refine ⟨rfl, fun t ht => ?_⟩
      dsimp only at ht
      subst ht
      exact (hn t h rfl HEq.rfl).elim
    · exact And.left

theorem comment_append {l s : List Char} (hl : '\n' ∉ l ∧ '\r' ∉ l)
    (hs : s = [] ∨ ∃ u, s = '\n' :: u) : comment (l ++ s) = some s := by
  have hd : ∀ c ∈ l, (c ≠ '\n' && c ≠ '\r') = true := fun c hc => by
    simpa using ⟨ne_of_mem_of_not_mem hc hl.1, ne_of_mem_of_not_mem hc hl.2⟩
  rw [comment_eq_some_iff, List.dropWhile_append_of_pos hd]
  rcases hs with rfl | ⟨u, rfl⟩
  · exact ⟨rfl, fun t ht => nomatch ht⟩
  · exact ⟨rfl, fun t ht => nomatch ht⟩

/-- Takes spacing, semicolons and comments. -/
def separators (s : List Char) : List Char :=
  (skipSeparators s).rest

theorem length_separators_le (s : List Char) : (separators s).length ≤ s.length :=
  Nat.le_of_lt_succ (skipSeparators s).shorter

@[simp] theorem separators_nil : separators [] = [] := by
  rw [separators, skipSeparators]

theorem separators_cons (c : Char) (s : List Char) :
    separators (c :: s) =
      if isSpacing c || c = ';' then separators s
      else
        match (Text.after? "//".toList (c :: s)).bind comment with
        | none => c :: s
        | some r => separators r := by
  rw [separators, skipSeparators]
  split
  · rfl
  · split
    · next h =>
      simp only [h]
      rfl
    · next r h =>
      simp only [h, Option.bind_some, comment]
      cases skipComment r <;> rfl

theorem separators_skip {c : Char} (h : (isSpacing c || c = ';') = true) (s : List Char) :
    separators (c :: s) = separators s := by
  rw [separators_cons, if_pos h]

theorem separators_comment {s r : List Char} (h : comment s = some r) :
    separators ('/' :: '/' :: s) = separators r := by
  have ha : Text.after? "//".toList ('/' :: '/' :: s) = some s := Text.after?_append "//".toList s
  rw [separators_cons, if_neg (by decide), ha, Option.bind_some, h]

theorem separators_stop {c : Char} {s : List Char} (h : (isSpacing c || c = ';') = false)
    (hs : (Text.after? "//".toList (c :: s)).bind comment = none) :
    separators (c :: s) = c :: s := by
  rw [separators_cons, if_neg (by simp [h]), hs]

/-- Induction along what stands between statements. -/
theorem separators_induction {P : List Char → Prop} (nil : P [])
    (skip : ∀ c s, (isSpacing c || c = ';') = true → P s → P (c :: s))
    (comment : ∀ s r, comment s = some r → P r → P ('/' :: '/' :: s))
    (stop : ∀ c s, (isSpacing c || c = ';') = false →
      (Text.after? "//".toList (c :: s)).bind View.comment = none → P (c :: s))
    (s : List Char) : P s := by
  induction hn : s.length using Nat.strong_induction_on generalizing s with
  | _ n ih =>
    subst hn
    cases s with
    | nil => exact nil
    | cons c s =>
      cases hc : (isSpacing c || c = ';' : Bool) with
      | true => exact skip c s hc (ih s.length (by simp) s rfl)
      | false =>
        cases hs : (Text.after? "//".toList (c :: s)).bind View.comment with
        | none => exact stop c s hc hs
        | some r =>
          obtain ⟨t, ht, hr⟩ := Option.bind_eq_some_iff.1 hs
          have heq : c :: s = '/' :: '/' :: t := Text.eq_append_of_after? ht
          have hle := Text.length_dropWhile_le (fun c => c ≠ '\n' && c ≠ '\r') t
          rw [(comment_eq_some_iff.1 hr).1] at hle
          rw [heq] at ih ⊢
          refine comment t r hr (ih r.length ?_ r rfl)
          simp only [List.length_cons]
          omega

/-! ### Expressions and statements -/

/-- Takes an expression between round brackets. -/
def group (s : List Char) : Option (Expr × List Char) :=
  (readGroup s).map Parsed.pair

/-- Takes an expression without what goes on with it. -/
def primary (s : List Char) : Option (Expr × List Char) :=
  (readPrimary s).map Parsed.pair

/-- Takes an expression. -/
def expr (s : List Char) : Option (Expr × List Char) :=
  (readExpr s).map Parsed.pair

/-- Takes all that goes on with the expression `e`. -/
def suffixes (e : Expr) (s : List Char) : Expr × List Char :=
  (readSuffixes e s).pair

/-- Takes the expected value of an assertion, which may be missing, and the closing bracket. -/
def argument (s : List Char) : Option (Option Expr × List Char) :=
  (readArgument s).map Parsed.pair

/-- Takes the items of a list. -/
def items (s : List Char) : List Expr × List Char :=
  (readItems s).pair

/-- Takes items, each behind a comma. -/
def moreItems (s : List Char) : List Expr × List Char :=
  (readMoreItems s).pair

/-- Takes a key and its value. -/
def field (s : List Char) : Option ((String × Expr) × List Char) :=
  (readField s).map Parsed.pair

/-- Takes the fields of an object. -/
def fields (s : List Char) : List (String × Expr) × List Char :=
  (readFields s).pair

/-- Takes fields, each behind a comma. -/
def moreFields (s : List Char) : List (String × Expr) × List Char :=
  (readMoreFields s).pair

/-- Takes a statement. -/
def statement (s : List Char) : Option (Statement × List Char) :=
  (readStatement s).map Parsed.pair

/-- Takes statements and what stands between them. -/
def statements (s : List Char) : List Statement × List Char :=
  (readStatements s).pair

theorem group_eq (s : List Char) :
    group s =
      (opening '(' s).bind fun r =>
        (expr r).bind fun p => (signAfter isSpacing ')' p.2).map fun r₁ => (p.1, r₁) := by
  rw [group, readGroup, opening]
  cases readOpening '(' s with
  | none => rfl
  | some p =>
    simp only [Option.map_some, Option.bind_some, expr]
    cases readExpr p.rest with
    | none => rfl
    | some q =>
      simp only [Option.map_some, Option.bind_some, signAfter, Option.map_map]
      rfl

/-- What follows the beginning of an expression. -/
def primaryAfter (s : List Char) : Lead × List Char → Option (Expr × List Char)
  | (.number n, r) => some (.number n, r)
  | (.string t, r) => some (.string t, r)
  | (.word w, r) =>
    if w = "box" then
      ((group (r.dropWhile isSpace)).map (Prod.map .boxed id)).or (some (wordExpr w, r))
    else some (wordExpr w, r)
  | (.callable, r) =>
    (signAfter isSpacing '\x7d' (statements r).2).map fun r₁ =>
      (.callable (String.ofList (consumed s r₁)) (statements r).1, r₁)
  | (.list, r) => (closing ']' (items r).2).map fun r₁ => (.list (items r).1, r₁)
  | (.object, r) => (closing '\x7d' (fields r).2).map fun r₁ => (.object (fields r).1, r₁)
  | (.group, _) => group s

theorem primary_eq (s : List Char) : primary s = (lead s).bind (primaryAfter s) := by
  rw [primary, readPrimary, lead]
  cases readLead s with
  | none => rfl
  | some p =>
    obtain ⟨l, r, h⟩ := p
    simp only [Option.map_some, Option.bind_some, Parsed.pair]
    cases l with
    | number n => rfl
    | string t => rfl
    | word w =>
      simp only [primaryAfter, group]
      split
      · cases readGroup (r.dropWhile isSpace) <;> rfl
      · rfl
    | callable =>
      simp only [primaryAfter, statements, Parsed.pair, signAfter]
      cases Text.signAfter isSpacing '\x7d' (readStatements r).rest <;> rfl
    | list =>
      simp only [primaryAfter, items, Parsed.pair, closing, Option.map_map]
      rfl
    | object =>
      simp only [primaryAfter, fields, Parsed.pair, closing, Option.map_map]
      rfl
    | group => rfl

theorem expr_eq (s : List Char) :
    expr s = (primary s).map fun p => suffixes p.1 p.2 := by
  rw [expr, readExpr, primary]
  cases readPrimary s <;> rfl

theorem suffixes_eq (e : Expr) (s : List Char) :
    suffixes e s =
      match suffix s with
      | none => (e, s)
      | some (.property n, r) => suffixes (.property e n) r
      | some (.call, r) => suffixes (.call e) r
      | some (.assertion negate m, r) =>
        match argument r with
        | none => (e, s)
        | some (x, r₁) => suffixes (.assertion e m negate x) r₁ := by
  rw [suffixes, readSuffixes, suffix]
  cases readSuffix s with
  | none => rfl
  | some p =>
    obtain ⟨l, r, h⟩ := p
    cases l with
    | property n => rfl
    | call => rfl
    | assertion negate m =>
      simp only [Option.map_some, Parsed.pair, argument]
      cases readArgument r <;> rfl

theorem argument_eq (s : List Char) :
    argument s =
      match expr s with
      | none => (signAfter isSpacing ')' s).map fun r => (none, r)
      | some (e, r) => (signAfter isSpacing ')' r).map fun r₁ => (some e, r₁) := by
  rw [argument, readArgument, expr]
  cases readExpr s with
  | none =>
    simp only [Option.map_none, signAfter, Option.map_map]
    rfl
  | some p =>
    simp only [Option.map_some, Parsed.pair, signAfter, Option.map_map]
    rfl

theorem items_eq (s : List Char) :
    items s =
      match expr s with
      | none => ([], s)
      | some (e, r) => Prod.map (e :: ·) id (moreItems r) := by
  rw [items, readItems, expr]
  cases readExpr s <;> rfl

theorem moreItems_eq (s : List Char) :
    moreItems s =
      match (comma s).bind expr with
      | none => ([], s)
      | some (e, r) => Prod.map (e :: ·) id (moreItems r) := by
  rw [moreItems, readMoreItems, comma]
  cases readComma s with
  | none => rfl
  | some p =>
    simp only [Option.map_some, Option.bind_some, expr]
    cases readExpr p.rest <;> rfl

theorem field_eq (s : List Char) :
    field s = (key s).bind fun p => (expr p.2).map (Prod.map (fun e => (p.1, e)) id) := by
  rw [field, readField, key]
  cases readKey s with
  | none => rfl
  | some p =>
    simp only [Option.map_some, Option.bind_some, expr, Parsed.pair]
    cases readExpr p.rest <;> rfl

theorem fields_eq (s : List Char) :
    fields s =
      match field s with
      | none => ([], s)
      | some (f, r) => Prod.map (f :: ·) id (moreFields r) := by
  rw [fields, readFields, field]
  cases readField s <;> rfl

theorem moreFields_eq (s : List Char) :
    moreFields s =
      match (comma s).bind field with
      | none => ([], s)
      | some (f, r) => Prod.map (f :: ·) id (moreFields r) := by
  rw [moreFields, readMoreFields, comma]
  cases readComma s with
  | none => rfl
  | some p =>
    simp only [Option.map_some, Option.bind_some, field]
    cases readField p.rest <;> rfl

/-- The statement that begins with a binding or with the word of a failure. -/
def leading (e : Expr) : StatementLead → Statement
  | .bind n => .bind n e
  | .raise => .raise e

theorem statement_eq (s : List Char) :
    statement s =
      ((statementLead s).bind fun p => (expr p.2).map (Prod.map (leading · p.1) id)).or
        ((expr s).map (Prod.map .expr id)) := by
  simp only [statement, statementLead, expr]
  rw [readStatement]
  cases readStatementLead s with
  | none =>
    simp only [Option.map_none, Option.bind_none, Option.none_or, Option.map_map]
    rfl
  | some p =>
    obtain ⟨l, r, h⟩ := p
    simp only [Option.map_some, Option.bind_some, Parsed.pair]
    cases readExpr r with
    | none =>
      simp only [Option.map_none, Option.none_or, Option.map_map]
      rfl
    | some q => cases l <;> rfl

theorem statements_eq (s : List Char) :
    statements s =
      match statement (separators s) with
      | none => ([], separators s)
      | some (st, r) =>
        if endsStatement (r.dropWhile isSpace) then
          Prod.map (st :: ·) id (statements (r.dropWhile isSpace))
        else ([st], r.dropWhile isSpace) := by
  rw [statements, readStatements, separators, statement]
  obtain ⟨_, r, h⟩ := skipSeparators s
  dsimp only
  cases readStatement r with
  | none => rfl
  | some p => exact apply_ite Parsed.pair _ _ _

end View

theorem consumed_append (p r : List Char) : consumed (p ++ r) r = p := by
  simp [consumed]

/-- A body is read when nothing of it is left. -/
theorem statements_eq_ok_iff {s : List Char} {body : List Statement} :
    statements s = .ok body ↔ View.statements s = (body, []) := by
  unfold statements View.statements
  obtain ⟨b, r, h⟩ := readStatements s
  cases r <;> simp [Parsed.pair]

end Body

end SpecEngine
