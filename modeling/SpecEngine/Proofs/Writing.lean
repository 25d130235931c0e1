import SpecEngine.Proofs.Lexemes

/-!
# Written bodies

Expressions and statements written out as text, and read back.  Nothing is ever put between round
brackets: what goes on with an expression stands right behind it, and binds tighter than all that
can stand around it.

* `Style`: the choices that a written body leaves open;
* `Expr.print`, `Statement.print`: the text of an expression and of a statement;
* `Expr.isWritable`, `Statement.isWritable`: parts that have a text of their own;
* `ExprEnds`: texts that go on with no expression;
* `View.expr_print`: an expression is read up to its end, and on with what follows it;
* `statements_print`: the statements of a written body.
-/

namespace SpecEngine

open Body

/-- The choices that a written body leaves open: between which quotes a text stands, whether a key
stands without quotes, and the spacing behind a comma or a colon. -/
structure Style where
  quote : String → Char
  bare : String → Bool
  gap : List Char
  quote_eq : ∀ t, quote t = '\'' ∨ quote t = '"'
  quote_notMem : ∀ t : String, '\'' ∉ t.toList ∨ '"' ∉ t.toList → quote t ∉ t.toList
  isName_of_bare : ∀ k, bare k = true → isName k = true
  isSpacing_of_mem : ∀ c ∈ gap, isSpacing c = true

/-- Single quotes where they can be, quotes around no key that is a name, one blank. -/
def Style.plain : Style where
  quote t := if '\'' ∈ t.toList then '"' else '\''
  bare := isName
  gap := [' ']
  quote_eq t := by split <;> simp
  quote_notMem t h := by
    split
    · next hs => exact h.resolve_left (not_not_intro hs)
    · next hs => exact hs
  isName_of_bare _ h := h
  isSpacing_of_mem := List.forall_mem_singleton.2 rfl

/-! ### Texts of expressions and statements -/

/-- The characters of a fixed word. -/
@[irreducible]
def spelled (w : String) : List Char :=
  w.toList

theorem spelled_eq (w : String) : spelled w = w.toList := by
  rw [spelled]

section

variable (st : Style)

theorem Style.quote_mem_signs (t : String) : st.quote t ∈ signs := by
  rcases st.quote_eq t with h | h <;> rw [h] <;> decide

/-- A text between the quotes of the style. -/
def Style.text (t : String) : List Char :=
  quoted (st.quote t) t

/-- A key, bare where the style leaves it so. -/
def Style.key (k : String) : List Char :=
  if st.bare k then k.toList else st.text k

mutual

/-- The text of an expression. -/
def Expr.print : Expr → List Char
  | .undefined => spelled "undefined"
  | .null => spelled "null"
  | .bool true => spelled "true"
  | .bool false => spelled "false"
  | .number n => n.text
  | .string t => st.text t
  | .list items => '[' :: (Expr.printItems items ++ [']'])
  | .object fields => '\x7b' :: (Expr.printFields fields ++ ['\x7d'])
  | .boxed inner => spelled "box(" ++ inner.print ++ [')']
  | .name n => n.toList
  | .callable _ body =>
    spelled "-> \x7b " ++ Statement.printAll (spelled "; ") body ++ spelled " \x7d"
  | .property target n => target.print ++ '.' :: n.toList
  | .call target => target.print ++ ['(', ')']
  | .assertion actual matcher negate expected =>
    actual.print ++ spelled ".should_" ++ (if negate then spelled "not_" else []) ++
      matcher.toList ++ '(' :: (Expr.printExpected expected ++ [')'])

/-- An expected value as it is written; nothing if it is missing. -/
def Expr.printExpected : Option Expr → List Char
  | none => []
  | some e => e.print

/-- The items of a list as they are written. -/
def Expr.printItems : List Expr → List Char
  | [] => []
  | e :: es => e.print ++ Expr.printMoreItems es

/-- The text of items, each behind a comma. -/
def Expr.printMoreItems : List Expr → List Char
  | [] => []
  | e :: es => ',' :: (st.gap ++ e.print ++ Expr.printMoreItems es)

/-- The fields of an object as they are written. -/
def Expr.printFields : List (String × Expr) → List Char
  | [] => []
  | (k, e) :: fs => st.key k ++ ':' :: (st.gap ++ e.print) ++ Expr.printMoreFields fs

/-- The text of fields, each behind a comma. -/
def Expr.printMoreFields : List (String × Expr) → List Char
  | [] => []
  | (k, e) :: fs =>
    ',' :: (st.gap ++ st.key k ++ ':' :: (st.gap ++ e.print) ++ Expr.printMoreFields fs)

/-- The text of a statement. -/
def Statement.print : Statement → List Char
  | .bind n e => spelled "let " ++ n.toList ++ spelled " = " ++ e.print
  | .raise e => spelled "raise " ++ e.print
  | .expr e => e.print

/-- The text of statements with `sep` between them. -/
def Statement.printAll (sep : List Char) : List Statement → List Char
  | [] => []
  | s :: ss => s.print ++ Statement.printMore sep ss

/-- The text of statements, each behind `sep`. -/
def Statement.printMore (sep : List Char) : List Statement → List Char
  | [] => []
  | s :: ss => sep ++ s.print ++ Statement.printMore sep ss

end

/-! ### Parts that can be written -/

/-- Whether a text can name a binding. -/
def isBindable (n : String) : Bool :=
  isName n && n ∉ reservedWords

/-- Whether a text can name a property. -/
def isProperty (n : String) : Bool :=
  isName n && !"should_".toList.isPrefixOf n.toList

/-- Whether a text can name the matcher of an assertion. -/
def isMatcher (negate : Bool) (m : String) : Bool :=
  isName m && (negate || !"not_".toList.isPrefixOf m.toList)

mutual

/-- Whether an expression has a text: its numerals are decimal, its texts and keys can be quoted,
its names can be what they name, and each callable keeps the text that is written for it. -/
def Expr.isWritable : Expr → Bool
  | .undefined | .null | .bool _ => true
  | .number n => n.isDecimal
  | .string t => isQuotable t
  | .list items => Expr.isWritableItems items
  | .object fields => Expr.isWritableFields fields
  | .boxed inner => inner.isWritable
  | .name n => isBindable n
  | .callable source body =>
    source.toList = (Expr.callable source body).print st && Statement.isWritableAll body
  | .property target n => target.isWritable && isProperty n
  | .call target => target.isWritable
  | .assertion actual matcher negate expected =>
    actual.isWritable && isMatcher negate matcher && Expr.isWritableExpected expected

/-- Whether an expected value can be written, or is missing. -/
def Expr.isWritableExpected : Option Expr → Bool
  | none => true
  | some e => e.isWritable

/-- Whether all items of a list can be written. -/
def Expr.isWritableItems : List Expr → Bool
  | [] => true
  | e :: es => e.isWritable && Expr.isWritableItems es

/-- Whether all fields of an object can be written, with their keys. -/
def Expr.isWritableFields : List (String × Expr) → Bool
  | [] => true
  | (k, e) :: fs => (st.bare k || isQuotable k) && e.isWritable && Expr.isWritableFields fs

/-- Whether a statement can be written. -/
def Statement.isWritable : Statement → Bool
  | .bind n e => isBindable n && e.isWritable
  | .raise e => e.isWritable
  | .expr e => e.isWritable

/-- Whether all statements of a row can be written. -/
def Statement.isWritableAll : List Statement → Bool
  | [] => true
  | s :: ss => s.isWritable && Statement.isWritableAll ss

end

end

namespace Body

/-! ### Where parts begin and end -/

/-- Nothing goes on with an expression into the text. -/
def ExprEnds (s : List Char) : Prop :=
  ∀ c ∈ s.head?, isNameChar c = false ∧ c ≠ '.' ∧ c ≠ '('

/-- The text begins with something that is left out nowhere. -/
def Solid (s : List Char) : Prop :=
  ∃ c t, s = c :: t ∧ isSpacing c = false ∧ c ≠ ';' ∧ c ≠ '/'

/-- What stands between two statements. -/
def IsBreak (sep : List Char) : Prop :=
  ∃ c g, sep = c :: g ∧ (c = '\n' ∨ c = ';') ∧ ∀ d ∈ g, isSpacing d = true

/-- The text closes a list of statements: it is at its end, or a brace follows. -/
def Closes (s : List Char) : Prop :=
  s = [] ∨ ∃ t, s = ' ' :: '\x7d' :: t

variable {s : List Char}

theorem exprEnds_sign {c : Char} (h : c ∈ signs ∧ c ≠ '.' ∧ c ≠ '(') (s : List Char) :
    ExprEnds (c :: s) := by
  rintro _ ⟨⟩
  exact ⟨isNameChar_of_mem_signs h.1, h.2⟩

theorem ExprEnds.numeralEnds (h : ExprEnds s) : NumeralEnds s := by
  refine ⟨fun c hc => (h c hc).1, ?_⟩
  cases s with
  | nil => rfl
  | cons c s => rw [View.sign_cons, if_neg (h c rfl).2.1, Option.bind_none]

/-- A point in front of a name belongs to no numeral. -/
theorem numeralEnds_point {n : String} (hn : isName n = true) (s : List Char) :
    NumeralEnds ('.' :: (n.toList ++ s)) := by
  obtain ⟨c, t, hc, h, -⟩ := exists_of_isName hn
  refine ⟨nameEnds_sign (by decide) _, ?_⟩
  rw [hc, View.sign_cons, if_pos rfl, Option.bind_some, List.cons_append,
    View.digits_cons_of_not (isDigit_of_isNameStart h)]

theorem numeralEnds_should (s : List Char) : NumeralEnds (".should_".toList ++ s) :=
  ⟨nameEnds_sign (by decide) _, rfl⟩

theorem isSpace_of_isSpacing {c : Char} (h : isSpacing c = false) : isSpace c = false := by
  simp only [isSpacing, Bool.or_eq_false_iff] at h
  rw [isSpace, h.1.1.1, h.1.1.2]
  rfl

theorem solid_cons {c : Char} (h : isSpacing c = false ∧ c ≠ ';' ∧ c ≠ '/')
    (s : List Char) : Solid (c :: s) := ⟨c, s, rfl, h⟩

theorem Solid.append (h : Solid s) (t : List Char) : Solid (s ++ t) := by
  obtain ⟨c, u, rfl, hc⟩ := h
  exact ⟨c, u ++ t, rfl, hc⟩

theorem Solid.dropWhile_spacing (h : Solid s) {g : List Char}
    (hg : ∀ c ∈ g, isSpacing c = true) : (g ++ s).dropWhile isSpacing = s := by
  obtain ⟨c, t, rfl, hc, -⟩ := h
  rw [List.dropWhile_append_of_pos hg, List.dropWhile_cons_of_neg (by simp [hc])]

theorem Solid.dropWhile_spacing_self (h : Solid s) : s.dropWhile isSpacing = s :=
  h.dropWhile_spacing (List.forall_mem_nil _)

theorem Solid.dropWhile_space (h : Solid s) : (' ' :: s).dropWhile isSpace = s := by
  obtain ⟨c, t, rfl, hc, -⟩ := h
  rw [List.dropWhile_cons_of_pos (by decide),
    List.dropWhile_cons_of_neg (by simp [isSpace_of_isSpacing hc])]

theorem Solid.separators_eq (h : Solid s) : View.separators s = s := by
  obtain ⟨c, t, rfl, hc, hs, hl⟩ := h
  have ha : Text.after? "//".toList (c :: t) = none := Text.after?_cons_of_ne hl.symm ['/'] t
  rw [View.separators_cons, hc, if_neg (by simpa using hs), ha]
  rfl

theorem View.separators_spacing {g : List Char} (hg : ∀ c ∈ g, isSpacing c = true)
    (s : List Char) : separators (g ++ s) = separators s := by
  induction g with
  | nil => rfl
  | cons c g ih =>
    rw [List.cons_append, separators_cons, hg c List.mem_cons_self, Bool.true_or, if_pos rfl]
    exact ih fun d hd => hg d (List.mem_cons_of_mem _ hd)

theorem IsBreak.separators_eq {sep : List Char} (h : IsBreak sep) (hs : Solid s) :
    View.separators (sep ++ s) = s := by
  obtain ⟨c, g, rfl, hc, hg⟩ := h
  have hb : (isSpacing c || c = ';') = true := by
    rcases hc with rfl | rfl <;> decide
  rw [List.cons_append, View.separators_cons, hb, if_pos rfl, View.separators_spacing hg,
    hs.separators_eq]

/-- Characters of a class that holds no spacing and no sign between statements are solid. -/
theorem solid_of_class {p : Char → Bool}
    (hp : [' ', '\t', '\r', '\n', ';', '/'].all (fun d => !p d) = true) {c : Char} (hc : p c = true)
    (s : List Char) : Solid (c :: s) := by
  have hn : ∀ d ∈ [' ', '\t', '\r', '\n', ';', '/'], c ≠ d := fun d hd =>
    ne_of_class (by simpa using List.all_eq_true.1 hp d hd) hc
  simp only [List.forall_mem_cons] at hn
  exact solid_cons (by simp [isSpacing, hn]) s

theorem solid_name {n : String} (h : isName n = true) : Solid n.toList := by
  obtain ⟨c, t, hn, hc, -⟩ := exists_of_isName h
  rw [hn]
  exact solid_of_class (by decide +kernel) hc t

/-! ### How written parts begin -/

namespace View

theorem arrow_cons_of_ne {c : Char} (h : c ≠ '-') (s : List Char) : arrow (c :: s) = none := by
  have ha : Text.after? "->".toList (c :: s) = none := Text.after?_cons_of_ne h.symm ['>'] s
  rw [arrow_eq, ha]
  rfl

theorem numeral_cons_of_not {c : Char} (h : c ≠ '-' ∧ c.isDigit = false) (s : List Char) :
    numeral (c :: s) = none := by
  rw [numeral_eq, numeralSign_cons, if_neg (by simpa using h.1), digits_cons_of_not h.2]
  rfl

theorem lead_numeral {n : Numeral} (hn : n.isDecimal = true) (hs : NumeralEnds s) :
    lead (n.text ++ s) = some (.number n, s) := by
  have ha : arrow (n.text ++ s) = none := by
    obtain ⟨c, t, hc, ht | ht⟩ := exists_text_eq hn <;> rw [ht]
    · exact arrow_cons_of_ne (ne_of_class (by decide) hc) _
    · have hne : c ≠ '>' := ne_of_class (by decide) hc
      have ha : Text.after? "->".toList ('-' :: c :: t ++ s) = none :=
        Text.after?_cons_of_ne hne.symm [] (t ++ s)
      rw [arrow_eq, ha]
      rfl
  rw [lead_eq, ha, numeral_append hn hs]
  rfl

theorem lead_quoted {q : Char} (hq : q = '\'' ∨ q = '"') {t : String}
    (ht : q ∉ t.toList ∧ '\n' ∉ t.toList) (s : List Char) :
    lead (Body.quoted q t ++ s) = some (.string t, s) := by
  have hne : q ≠ '-' ∧ q.isDigit = false := by
    rcases hq with rfl | rfl <;> decide
  rw [lead_eq, string_append hq ht, Body.quoted, List.cons_append, arrow_cons_of_ne hne.1,
    numeral_cons_of_not hne]
  rfl

theorem lead_list (s : List Char) : lead ('[' :: s) = some (.list, s.dropWhile isSpacing) := by
  rw [lead_eq, arrow_cons_of_ne (by decide), numeral_cons_of_not (by decide),
    string_cons_of_not (by decide), opening_cons]
  rfl

theorem lead_object (s : List Char) :
    lead ('\x7b' :: s) = some (.object, s.dropWhile isSpacing) := by
  rw [lead_eq, arrow_cons_of_ne (by decide), numeral_cons_of_not (by decide),
    string_cons_of_not (by decide), opening_cons_of_ne (by decide), opening_cons]
  rfl

theorem lead_callable (s : List Char) :
    lead ("-> \x7b ".toList ++ s) = some (.callable, ' ' :: s) := by
  have ha : arrow ("-> \x7b ".toList ++ s) = some (' ' :: s) := by
    rw [arrow_eq]
    rfl
  rw [lead_eq, ha]
  rfl

theorem lead_of_name {n : String} {r : List Char} (h : name s = some (n, r)) :
    lead s = some (.word n, r) := by
  cases s with
  | nil => cases h
  | cons c s =>
    have hc : isNameStart c = true := by
      by_contra hc
      rw [name_cons_of_not (Bool.not_eq_true _ ▸ hc)] at h
      cases h
    have hne : ∀ {d}, d ∈ signs → c ≠ d := ne_of_isNameStart hc
    rw [lead_eq, h, arrow_cons_of_ne (hne (by decide)),
      numeral_cons_of_not ⟨hne (by decide), isDigit_of_isNameStart hc⟩,
      string_cons_of_not ⟨hne (by decide), hne (by decide)⟩,
      opening_cons_of_ne (hne (by decide)), opening_cons_of_ne (hne (by decide))]
    rfl

theorem lead_name {n : String} (hn : isName n = true) (hs : NameEnds s) :
    lead (n.toList ++ s) = some (.word n, s) :=
  lead_of_name (name_append hn hs)

theorem lead_group (s : List Char) : lead ('(' :: s) = some (.group, s.dropWhile isSpacing) := by
  rw [lead_eq, arrow_cons_of_ne (by decide), numeral_cons_of_not (by decide),
    string_cons_of_not (by decide), opening_cons_of_ne (by decide), opening_cons_of_ne (by decide),
    name_cons_of_not (isNameStart_of_mem_signs (by decide)), opening_cons]
  rfl

/-- Signs with which neither an expression nor a statement begins. -/
def barren : List Char :=
  [' ', '\t', '\r', '\n', ')', ']', '\x7d', '.', ',', ':', ';', '/', '=']

theorem class_of_mem_barren : ∀ c ∈ barren,
    c ∈ signs ∧ (c ≠ '-' ∧ c.isDigit = false) ∧ (c ≠ '\'' ∧ c ≠ '"') ∧ c ≠ '[' ∧ c ≠ '\x7b' ∧
      c ≠ '(' := by
  have h : barren.all (fun c => c ∈ signs ∧ (c ≠ '-' ∧ c.isDigit = false) ∧
      (c ≠ '\'' ∧ c ≠ '"') ∧ c ≠ '[' ∧ c ≠ '\x7b' ∧ c ≠ '(') = true := by decide
  simpa only [List.all_eq_true, decide_eq_true_eq] using h

theorem expr_barren {c : Char} (hc : c ∈ barren) (s : List Char) : expr (c :: s) = none := by
  obtain ⟨hs, hn, hq, hl, ho, hg⟩ := class_of_mem_barren c hc
  rw [expr_eq, primary_eq, lead_eq, arrow_cons_of_ne hn.1, numeral_cons_of_not hn,
    string_cons_of_not hq, opening_cons_of_ne hl, opening_cons_of_ne ho,
    name_cons_of_not (isNameStart_of_mem_signs hs), opening_cons_of_ne hg]
  rfl

/-! ### What goes on with an expression -/

theorem suffix_cons_of_not {c : Char} (h : c ≠ '.' ∧ c ≠ '(') (s : List Char) :
    suffix (c :: s) = none := by
  have ha : Text.after? ".should_".toList (c :: s) = none :=
    Text.after?_cons_of_ne h.1.symm "should_".toList s
  rw [suffix_eq, ha, sign_cons, if_neg h.1, opening_cons_of_ne h.2]
  rfl

theorem suffixes_of_exprEnds (hs : ExprEnds s) (e : Expr) : suffixes e s = (e, s) := by
  have : suffix s = none := by
    cases s with
    | nil => rfl
    | cons c s => exact suffix_cons_of_not (hs c rfl).2 s
  rw [suffixes_eq, this]

theorem isNameChar_of_mem_should : ∀ c ∈ "should_".toList, isNameChar c = true :=
  List.all_eq_true.1 (by decide +kernel)

theorem isNameChar_of_mem_not : ∀ c ∈ "not_".toList, isNameChar c = true :=
  List.all_eq_true.1 (by decide +kernel)

theorem suffix_property {n : String} (hn : isProperty n = true) (hs : NameEnds s) :
    suffix ('.' :: (n.toList ++ s)) = some (.property n, s) := by
  rw [isProperty, Bool.and_eq_true, Bool.not_eq_true', ← Bool.not_eq_true,
    List.isPrefixOf_iff_prefix] at hn
  have ha : Text.after? ".should_".toList ('.' :: (n.toList ++ s)) = none := by
    change Text.after? "should_".toList (n.toList ++ s) = none
    rw [after?_append_of_nameEnds isNameChar_of_mem_should _ hs, Text.after?_eq_none_iff.2 hn.2,
      Option.map_none]
  simp only [suffix_eq, ha, sign_cons, if_true, name_append hn.1 hs]
  rfl

theorem suffixes_property {n : String} (hn : isProperty n = true) (hs : NameEnds s) (e : Expr) :
    suffixes e ('.' :: (n.toList ++ s)) = suffixes (.property e n) s := by
  rw [suffixes_eq, suffix_property hn hs]

theorem suffixes_call (e : Expr) (s : List Char) :
    suffixes e ('(' :: ')' :: s) = suffixes (.call e) s := by
  have h : suffix ('(' :: ')' :: s) = some (.call, s) := by
    rw [suffix_eq, sign_cons, if_neg (by decide), opening_cons]
    rfl
  rw [suffixes_eq, h]

theorem matcher_append {negate : Bool} {m : String} (hm : isMatcher negate m = true)
    (s : List Char) :
    matcher ((if negate then "not_".toList else []) ++ m.toList ++ '(' :: s) =
      some ((negate, m), s.dropWhile isSpacing) := by
  have ho : NameEnds ('(' :: s) := nameEnds_sign (by decide) s
  rw [isMatcher, Bool.and_eq_true] at hm
  have hn : View.not ((if negate then "not_".toList else []) ++ m.toList ++ '(' :: s) =
      (negate, m.toList ++ '(' :: s) := by
    rw [not_eq]
    cases negate with
    | true =>
      rw [if_pos rfl, List.append_assoc, Text.after?_append]
      rfl
    | false =>
      rw [Bool.false_or, Bool.not_eq_true', ← Bool.not_eq_true, List.isPrefixOf_iff_prefix] at hm
      rw [if_neg (by decide), List.nil_append, after?_append_of_nameEnds isNameChar_of_mem_not _ ho,
        Text.after?_eq_none_iff.2 hm.2]
      rfl
  rw [matcher_eq, hn, name_append hm.1 ho]
  simp only [Option.bind_some, opening_cons, Option.map_some]

theorem suffix_assertion {negate : Bool} {m : String} (hm : isMatcher negate m = true)
    (s : List Char) :
    suffix (".should_".toList ++ ((if negate then "not_".toList else []) ++ m.toList ++
      '(' :: s)) = some (.assertion negate m, s.dropWhile isSpacing) := by
  simp only [suffix_eq, Text.after?_append, matcher_append hm, Option.map_some]

theorem suffixes_assertion {negate : Bool} {m : String} (hm : isMatcher negate m = true)
    {x : Option Expr} {s t : List Char} (ht : argument (s.dropWhile isSpacing) = some (x, t))
    (e : Expr) :
    suffixes e (".should_".toList ++ ((if negate then "not_".toList else []) ++ m.toList ++
      '(' :: s)) = suffixes (.assertion e m negate x) t := by
  rw [suffixes_eq, suffix_assertion hm]
  simp only [ht]

theorem primary_name {n : String} (hn : isName n = true) (hb : n ≠ "box") (hs : NameEnds s) :
    primary (n.toList ++ s) = some (wordExpr n, s) := by
  rw [primary_eq, lead_name hn hs, Option.bind_some, primaryAfter, if_neg hb]

theorem expr_of_primary {t : List Char} {e : Expr} (h : primary t = some (e, s)) :
    expr t = some (suffixes e s) := by
  rw [expr_eq, h, Option.map_some]

end View

/-! ### Beginnings of written parts -/

variable {st : Style}

theorem quote_notMem_of_isQuotable {t : String} (h : isQuotable t = true) :
    st.quote t ∉ t.toList ∧ '\n' ∉ t.toList := by
  simp only [isQuotable, Bool.and_eq_true, Bool.or_eq_true, decide_eq_true_eq] at h
  exact ⟨st.quote_notMem t h.2, h.1⟩

theorem solid_text (st : Style) (t : String) (s : List Char) : Solid (st.text t ++ s) := by
  refine solid_cons ?_ _
  rcases st.quote_eq t with h | h <;> rw [h] <;> decide

theorem solid_key (k : String) (s : List Char) : Solid (st.key k ++ s) := by
  rw [Style.key]
  split
  · next h => exact (solid_name (st.isName_of_bare k h)).append s
  · exact solid_text st k s

theorem isName_of_isProperty {n : String} (h : isProperty n = true) : isName n = true := by
  rw [isProperty, Bool.and_eq_true] at h
  exact h.1

theorem isName_of_isBindable {n : String} (h : isBindable n = true) :
    isName n = true ∧ n ∉ reservedWords := by
  simpa only [isBindable, Bool.and_eq_true, decide_eq_true_eq] using h

theorem solid_spelled {w : String} (h : isName w = true) : Solid (spelled w) := by
  rw [spelled_eq]
  exact solid_name h

theorem solid_print : ∀ e : Expr, e.isWritable st = true → Solid (e.print st)
  | .undefined, _ | .null, _ | .bool true, _ | .bool false, _ => 
    solid_spelled (isName_reserved (by decide))
  | .number n, h => by
    rw [Expr.isWritable] at h
    obtain ⟨c, t, hc, ht | ht⟩ := View.exists_text_eq h <;> rw [Expr.print, ht]
    · exact solid_of_class (by decide) hc t
    · exact solid_cons (by decide) _
  | .string t, _ => by simpa [Expr.print] using solid_text st t []
  | .list _, _ => solid_cons (by decide) _
  | .object _, _ => solid_cons (by decide) _
  | .boxed _, _ => by
    rw [Expr.print, spelled_eq]
    exact solid_cons (by decide) _
  | .name _, h => by
    rw [Expr.isWritable] at h
    exact solid_name (isName_of_isBindable h).1
  | .callable _ _, _ => by
    rw [Expr.print, spelled_eq]
    exact solid_cons (by decide) _
  | .property target _, h => by
    rw [Expr.isWritable, Bool.and_eq_true] at h
    exact (solid_print target h.1).append _
  | .call target, h => by
    rw [Expr.isWritable] at h
    exact (solid_print target h).append _
  | .assertion actual _ _ _, h => by
    rw [Expr.isWritable, Bool.and_eq_true, Bool.and_eq_true] at h
    rw [Expr.print, List.append_assoc, List.append_assoc, List.append_assoc]
    exact (solid_print actual h.1.1).append _

theorem solid_printExpected (x : Option Expr) (h : Expr.isWritableExpected st x = true)
    (s : List Char) : Solid (Expr.printExpected st x ++ ')' :: s) := by
  cases x with
  | none => exact solid_cons (by decide) s
  | some e => exact (solid_print e h).append _

theorem solid_printItems (es : List Expr) (h : Expr.isWritableItems st es = true) (s : List Char) :
    Solid (Expr.printItems st es ++ ']' :: s) := by
  cases es with
  | nil => exact solid_cons (by decide) s
  | cons e es =>
    rw [Expr.isWritableItems, Bool.and_eq_true] at h
    exact ((solid_print e h.1).append _).append _

theorem solid_printFields (fs : List (String × Expr)) (s : List Char) :
    Solid (Expr.printFields st fs ++ '\x7d' :: s) := by
  cases fs with
  | nil => exact solid_cons (by decide) s
  | cons f fs =>
    rw [Expr.printFields, List.append_assoc, List.append_assoc]
    exact solid_key _ _

theorem solid_printStatement : ∀ x : Statement, x.isWritable st = true → Solid (x.print st)
  | .bind _ _, _ => by
    rw [Statement.print, spelled_eq]
    exact solid_cons (by decide) _
  | .raise _, _ => by
    rw [Statement.print, spelled_eq]
    exact solid_cons (by decide) _
  | .expr e, h => by
    rw [Statement.isWritable] at h
    exact solid_print e h

namespace View

theorem key_print {k : String} (hk : (st.bare k || isQuotable k) = true) (hs : Solid s) :
    key (st.key k ++ ':' :: (st.gap ++ s)) = some (k, s) := by
  have hd : (st.gap ++ s).dropWhile isSpacing = s := hs.dropWhile_spacing st.isSpacing_of_mem
  have hn : (name (st.key k ++ ':' :: (st.gap ++ s))).or
      (string (st.key k ++ ':' :: (st.gap ++ s))) = some (k, ':' :: (st.gap ++ s)) := by
    rw [Style.key]
    split
    · next h =>
      rw [name_append (st.isName_of_bare k h) (nameEnds_sign (by decide) _), Option.some_or]
    · next h =>
      rw [Bool.not_eq_true] at h
      rw [h, Bool.false_or] at hk
      have hq : isNameStart (st.quote k) = false :=
        isNameStart_of_mem_signs (st.quote_mem_signs k)
      rw [Style.text, string_append (st.quote_eq k) (quote_notMem_of_isQuotable hk), Body.quoted,
        List.cons_append, name_cons_of_not hq, Option.none_or]
  rw [key_eq, hn, Option.bind_some, signAfter_cons (by decide), Option.map_some, hd]

/-- A field is read if its expression is read up to its end. -/
theorem field_print {k : String} (hk : (st.bare k || isQuotable k) = true) {e : Expr}
    {t : List Char} (ht : Solid t) (hs : ExprEnds s) (he : expr (t ++ s) = some (suffixes e s)) :
    field (st.key k ++ ':' :: (st.gap ++ (t ++ s))) = some ((k, e), s) := by
  rw [field_eq, key_print hk (ht.append s), Option.bind_some, he, suffixes_of_exprEnds hs]
  rfl

/-! ### Statements do not begin like expressions -/

theorem word_of_ne {n w : String} (hn : isName n = true) (hs : NameEnds s) (h : n ≠ w) :
    word w (n.toList ++ s) = none := by
  rw [word_eq, name_append hn hs, Option.bind_some, if_neg h]

theorem word_cons_of_not {c : Char} (h : isNameStart c = false) (w : String) (s : List Char) :
    word w (c :: s) = none := by
  rw [word_eq, name_cons_of_not h, Option.bind_none]

theorem word_print {w : String} (hw : w = "let" ∨ w = "raise") : ∀ {e : Expr} {s : List Char},
    e.isWritable st = true → NameEnds s → word w (e.print st ++ s) = none
  | .undefined, s, _, hs | .null, s, _, hs | .bool true, s, _, hs | .bool false, s, _, hs => by
    rw [Expr.print, spelled_eq]
    exact word_of_ne (isName_reserved (by decide)) hs (by rcases hw with rfl | rfl <;> decide)
  | .number n, s, h, _ => by
    rw [Expr.isWritable] at h
    obtain ⟨c, t, hc, ht | ht⟩ := exists_text_eq h <;> rw [Expr.print, ht]
    · exact word_cons_of_not (class_of_isDigit hc).2 w _
    · exact word_cons_of_not (isNameStart_of_mem_signs (by decide)) w _
  | .string t, s, _, _ => by
    rw [Expr.print]
    refine word_cons_of_not ?_ w _
    exact isNameStart_of_mem_signs (st.quote_mem_signs t)
  | .list _, s, _, _ => word_cons_of_not (isNameStart_of_mem_signs (by decide)) w _
  | .object _, s, _, _ => word_cons_of_not (isNameStart_of_mem_signs (by decide)) w _
  | .boxed _, s, _, _ => by
    rw [Expr.print, spelled_eq, List.append_assoc]
    exact word_of_ne (n := "box") (isName_reserved (by decide)) (nameEnds_sign (by decide) _)
      (by rcases hw with rfl | rfl <;> decide)
  | .name n, s, h, hs => by
    rw [Expr.isWritable] at h
    obtain ⟨hn, hr⟩ := isName_of_isBindable h
    refine word_of_ne hn hs ?_
    rintro rfl
    rcases hw with rfl | rfl <;> exact hr (by decide)
  | .callable _ _, s, _, _ => by
    rw [Expr.print, spelled_eq]
    exact word_cons_of_not (isNameStart_of_mem_signs (by decide)) w _
  | .property target n, s, h, _ => by
    rw [Expr.isWritable, Bool.and_eq_true] at h
    rw [Expr.print, List.append_assoc]
    exact word_print hw h.1 (nameEnds_sign (by decide) _)
  | .call target, s, h, _ => by
    rw [Expr.isWritable] at h
    rw [Expr.print, List.append_assoc]
    exact word_print hw h (nameEnds_sign (by decide) _)
  | .assertion actual m negate x, s, h, _ => by
    rw [Expr.isWritable, Bool.and_eq_true, Bool.and_eq_true] at h
    simp only [Expr.print, spelled_eq, List.append_assoc]
    exact word_print hw h.1.1 (nameEnds_sign (by decide) _)

theorem statementLead_print {e : Expr} (h : e.isWritable st = true) (hs : NameEnds s) :
    statementLead (e.print st ++ s) = none := by
  rw [statementLead_eq, binding_eq, word_print (Or.inl rfl) h hs, word_print (Or.inr rfl) h hs]
  rfl

theorem word_spelled {w : String} (hw : isName w = true) (hs : Solid s) :
    word w (w.toList ++ ' ' :: s) = some s := by
  rw [word_eq, name_append hw (nameEnds_sign (by decide) _), Option.bind_some, if_pos rfl,
    hs.dropWhile_space]

theorem statementLead_raise (hs : Solid s) :
    statementLead ("raise ".toList ++ s) = some (.raise, s) := by
  have hn : NameEnds (' ' :: s) := nameEnds_sign (by decide) s
  have hr : word "raise" ("raise ".toList ++ s) = some s :=
    word_spelled (isName_reserved (by decide)) hs
  have hl : word "let" ("raise ".toList ++ s) = none :=
    word_of_ne (n := "raise") (isName_reserved (by decide)) hn (by decide)
  rw [statementLead_eq, binding_eq, hl, hr]
  rfl

theorem statementLead_bind {n : String} (hn : isBindable n = true) (hs : Solid s) :
    statementLead ("let ".toList ++ (n.toList ++ (" = ".toList ++ s))) = some (.bind n, s) := by
  obtain ⟨hname, hr⟩ := isName_of_isBindable hn
  have hl : word "let" ("let ".toList ++ (n.toList ++ (" = ".toList ++ s))) =
      some (n.toList ++ (" = ".toList ++ s)) :=
    word_spelled (isName_reserved (by decide)) ((solid_name hname).append _)
  have he : signAfter isSpace '=' (" = ".toList ++ s) = some (' ' :: s) := by
    rw [signAfter_eq]
    rfl
  have hs' : NameEnds (" = ".toList ++ s) := nameEnds_sign (by decide) _
  rw [statementLead_eq, binding_eq, hl, Option.bind_some, name_append hname hs', Option.bind_some,
    if_neg hr, he, Option.map_some, hs.dropWhile_space]
  rfl

end View

/-! ### Reading back -/

theorem exprEnds_printMoreItems (st : Style) (es : List Expr) (s : List Char) :
    ExprEnds (Expr.printMoreItems st es ++ ']' :: s) := by
  cases es <;> exact exprEnds_sign (by decide) _

theorem exprEnds_printMoreFields (st : Style) (fs : List (String × Expr)) (s : List Char) :
    ExprEnds (Expr.printMoreFields st fs ++ '\x7d' :: s) := by
  cases fs <;> exact exprEnds_sign (by decide) _

theorem exprEnds_printMore {sep : List Char} (hsep : IsBreak sep) (ss : List Statement)
    (hs : Closes s) : ExprEnds (Statement.printMore st sep ss ++ s) := by
  cases ss with
  | nil =>
    rcases hs with rfl | ⟨t, rfl⟩
    · rintro _ ⟨⟩
    · exact exprEnds_sign (by decide) _
  | cons x ss =>
    obtain ⟨c, g, rfl, rfl | rfl, -⟩ := hsep <;> exact exprEnds_sign (by decide) _

/-- After a statement comes the end of the list of statements, or another one. -/
theorem endsStatement_printMore {sep : List Char} (hsep : IsBreak sep) (ss : List Statement)
    (hs : Closes s) :
    endsStatement ((Statement.printMore st sep ss ++ s).dropWhile isSpace) = true := by
  cases ss with
  | nil => rcases hs with rfl | ⟨t, rfl⟩ <;> rfl
  | cons x ss => obtain ⟨c, g, rfl, rfl | rfl, -⟩ := hsep <;> rfl

namespace View

theorem statements_of_separators_eq {t : List Char} (h : separators s = separators t) :
    statements s = statements t := by
  rw [statements_eq, statements_eq t, h]

theorem statements_cons_space (s : List Char) : statements (' ' :: s) = statements s :=
  statements_of_separators_eq (separators_spacing (g := [' ']) (List.forall_mem_singleton.2 rfl) s)

theorem statements_dropWhile (s : List Char) : statements (s.dropWhile isSpace) = statements s := by
  induction s with
  | nil => rfl
  | cons c s ih =>
    rw [List.dropWhile_cons]
    split
    · next h =>
      have hc : isSpacing c = true := by
        rw [← Bool.not_eq_false]
        exact fun hc => by simp [isSpace_of_isSpacing hc] at h
      rw [ih]
      exact statements_of_separators_eq
        (separators_spacing (g := [c]) (List.forall_mem_singleton.2 hc) s).symm
    · rfl

/-- What parts two statements is left out in front of the next one. -/
theorem statements_printMore {sep : List Char} (hsep : IsBreak sep) (ss : List Statement)
    (h : Statement.isWritableAll st ss = true) (s : List Char) :
    statements (Statement.printMore st sep ss ++ s) =
      statements (Statement.printAll st sep ss ++ s) := by
  cases ss with
  | nil => rfl
  | cons x ss =>
    rw [Statement.isWritableAll, Bool.and_eq_true] at h
    have hx : Solid (x.print st ++ (Statement.printMore st sep ss ++ s)) :=
      (solid_printStatement x h.1).append _
    rw [Statement.printMore, Statement.printAll, List.append_assoc, List.append_assoc,
      List.append_assoc]
    exact statements_of_separators_eq ((hsep.separators_eq hx).trans hx.separators_eq.symm)

theorem statement_barren {c : Char} (hc : c ∈ barren) (s : List Char) :
    statement (c :: s) = none := by
  have hw : ∀ w, word w (c :: s) = none := fun w =>
    word_cons_of_not (isNameStart_of_mem_signs (class_of_mem_barren c hc).1) w s
  rw [statement_eq, statementLead_eq, binding_eq, hw, hw, expr_barren hc]
  rfl

theorem statements_closes (hs : Closes s) :
    statements (s.dropWhile isSpace) = ([], s.dropWhile isSpace) := by
  rcases hs with rfl | ⟨t, rfl⟩
  · have : statement [] = none := by
      rw [statement_eq, expr_eq, primary_eq]
      rfl
    rw [List.dropWhile_nil, statements_eq, separators_nil, this]
  · have hd : (' ' :: '\x7d' :: t).dropWhile isSpace = '\x7d' :: t :=
      (solid_cons (by decide) t).dropWhile_space
    rw [hd, statements_eq, (solid_cons (by decide) t).separators_eq,
      statement_barren (by decide)]

theorem wordExpr_of_notMem {n : String} (h : n ∉ reservedWords) : wordExpr n = .name n := by
  simp only [reservedWords, List.mem_cons, not_or] at h
  simp only [wordExpr, h, if_false]

theorem closing_bracket {c : Char} (hc : isSpacing c = false ∧ c ≠ ',') (s : List Char) :
    closing c (c :: s) = some s := by
  rw [closing_eq, signAfter_cons_of_ne hc.1 hc.2, Option.getD_none, signAfter_cons hc.1]

theorem comma_cons_of_not {c : Char} (hc : isSpacing c = false ∧ c ≠ ',') (s : List Char) :
    comma (c :: s) = none := by
  rw [comma_eq, signAfter_cons_of_ne hc.1 hc.2, Option.map_none]

theorem comma_gap (hs : Solid s) : comma (',' :: (st.gap ++ s)) = some s := by
  rw [comma_eq, signAfter_cons (by decide), Option.map_some,
    hs.dropWhile_spacing st.isSpacing_of_mem]

mutual

/-- An expression is read up to its end, and on with what follows it. -/
theorem expr_print : ∀ (e : Expr) {s : List Char}, e.isWritable st = true → NumeralEnds s →
    expr (e.print st ++ s) = some (suffixes e s)
  | .undefined, s, _, hs | .null, s, _, hs | .bool true, s, _, hs | .bool false, s, _, hs => by
    rw [Expr.print, spelled_eq]
    exact expr_of_primary (primary_name (isName_reserved (by decide)) (by decide) hs.1)
  | .number n, s, h, hs => by
    rw [Expr.isWritable] at h
    refine expr_of_primary ?_
    rw [Expr.print, primary_eq, lead_numeral h hs]
    rfl
  | .string t, s, h, _ => by
    rw [Expr.isWritable] at h
    refine expr_of_primary ?_
    rw [Expr.print, Style.text, primary_eq,
      lead_quoted (st.quote_eq t) (quote_notMem_of_isQuotable h)]
    rfl
  | .list es, s, h, _ => by
    rw [Expr.isWritable] at h
    refine expr_of_primary ?_
    rw [Expr.print, List.cons_append, List.append_assoc, primary_eq, lead_list, Option.bind_some,
      primaryAfter, List.singleton_append, (solid_printItems es h s).dropWhile_spacing_self,
      items_print es s h, closing_bracket (by decide)]
    rfl
  | .object fs, s, h, _ => by
    rw [Expr.isWritable] at h
    refine expr_of_primary ?_
    rw [Expr.print, List.cons_append, List.append_assoc, primary_eq, lead_object, Option.bind_some,
      primaryAfter, List.singleton_append, (solid_printFields fs s).dropWhile_spacing_self,
      fields_print fs s h, closing_bracket (by decide)]
    rfl
  | .boxed e, s, h, _ => by
    rw [Expr.isWritable] at h
    have hs : ExprEnds (')' :: s) := exprEnds_sign (by decide) s
    have hg : group ('(' :: (e.print st ++ ')' :: s)) = some (e, s) := by
      rw [group_eq, opening_cons, ((solid_print e h).append _).dropWhile_spacing_self,
        Option.bind_some, expr_print e h hs.numeralEnds, suffixes_of_exprEnds hs, Option.bind_some,
        signAfter_cons (by decide)]
      rfl
    have hl : lead ("box".toList ++ '(' :: (e.print st ++ ')' :: s)) = _ :=
      lead_name (isName_reserved (by decide)) (nameEnds_sign (by decide) _)
    refine expr_of_primary ?_
    rw [Expr.print, spelled_eq, List.append_assoc, List.append_assoc]
    change primary ("box".toList ++ '(' :: (e.print st ++ ')' :: s)) = _
    rw [primary_eq, hl, Option.bind_some, primaryAfter, if_pos rfl,
      List.dropWhile_cons_of_neg (by decide), hg]
    rfl
  | .name n, s, h, hs => by
    rw [Expr.isWritable] at h
    obtain ⟨hn, hr⟩ := isName_of_isBindable h
    have hb : n ≠ "box" := fun hb => hr (hb ▸ by decide)
    refine expr_of_primary ?_
    rw [Expr.print, primary_name hn hb hs.1, wordExpr_of_notMem hr]
  | .callable source body, s, h, _ => by
    rw [Expr.isWritable, Bool.and_eq_true, decide_eq_true_eq] at h
    obtain ⟨hsource, hbody⟩ := h
    have hc : Closes (' ' :: '\x7d' :: s) := Or.inr ⟨s, rfl⟩
    have hd : (' ' :: '\x7d' :: s).dropWhile isSpace = '\x7d' :: s :=
      (solid_cons (by decide) s).dropWhile_space
    have hsep : IsBreak "; ".toList :=
      ⟨';', [' '], rfl, Or.inr rfl, List.forall_mem_singleton.2 rfl⟩
    have hb : statements (' ' :: (Statement.printAll st "; ".toList body ++ ' ' :: '\x7d' :: s)) =
        (body, '\x7d' :: s) := by
      rw [statements_cons_space, ← hd]
      exact statements_printAll hsep body hbody hc
    have hp : (Expr.callable source body).print st ++ s = "-> \x7b ".toList ++
        (Statement.printAll st "; ".toList body ++ ' ' :: '\x7d' :: s) := by
      rw [Expr.print, spelled_eq, spelled_eq, spelled_eq, List.append_assoc, List.append_assoc]
      rfl
    have hl : lead ((Expr.callable source body).print st ++ s) = some (.callable,
        ' ' :: (Statement.printAll st "; ".toList body ++ ' ' :: '\x7d' :: s)) := by
      rw [hp, lead_callable]
    refine expr_of_primary ?_
    rw [primary_eq, hl, Option.bind_some, primaryAfter, hb, signAfter_cons (by decide),
      Option.map_some, consumed_append, ← hsource, String.ofList_toList]
  | .property e n, s, h, hs => by
    rw [Expr.isWritable, Bool.and_eq_true] at h
    rw [Expr.print, List.append_assoc, List.cons_append,
      expr_print e h.1 (numeralEnds_point (isName_of_isProperty h.2) s),
      suffixes_property h.2 hs.1]
  | .call e, s, h, _ => by
    rw [Expr.isWritable] at h
    rw [Expr.print, List.append_assoc]
    change expr (e.print st ++ '(' :: ')' :: s) = _
    rw [expr_print e h ⟨nameEnds_sign (by decide) _, rfl⟩, suffixes_call]
  | .assertion e m negate x, s, h, _ => by
    rw [Expr.isWritable, Bool.and_eq_true, Bool.and_eq_true] at h
    have hx : argument ((Expr.printExpected st x ++ ')' :: s).dropWhile isSpacing) =
        some (x, s) := by
      rw [(solid_printExpected x h.2 s).dropWhile_spacing_self, argument_print x s h.2]
    have hp : (Expr.assertion e m negate x).print st ++ s = e.print st ++ (".should_".toList ++
        ((if negate then "not_".toList else []) ++ m.toList ++
          '(' :: (Expr.printExpected st x ++ ')' :: s))) := by
      simp only [Expr.print, spelled_eq, List.append_assoc, List.cons_append, List.nil_append]
    rw [hp, expr_print e h.1.1 (numeralEnds_should _), suffixes_assertion h.1.2 hx]

theorem argument_print : ∀ (x : Option Expr) (s : List Char),
    Expr.isWritableExpected st x = true →
    argument (Expr.printExpected st x ++ ')' :: s) = some (x, s)
  | none, s, _ => by
    rw [Expr.printExpected, List.nil_append, argument_eq, expr_barren (by decide),
      signAfter_cons (by decide)]
    rfl
  | some e, s, h => by
    rw [Expr.isWritableExpected] at h
    have hs : ExprEnds (')' :: s) := exprEnds_sign (by decide) s
    rw [Expr.printExpected, argument_eq, expr_print e h hs.numeralEnds, suffixes_of_exprEnds hs]
    dsimp only
    rw [signAfter_cons (by decide)]
    rfl

theorem items_print : ∀ (es : List Expr) (s : List Char), Expr.isWritableItems st es = true →
    items (Expr.printItems st es ++ ']' :: s) = (es, ']' :: s)
  | [], s, _ => by
    rw [Expr.printItems, List.nil_append, items_eq, expr_barren (by decide)]
  | e :: es, s, h => by
    rw [Expr.isWritableItems, Bool.and_eq_true] at h
    have hs := exprEnds_printMoreItems st es s
    rw [Expr.printItems, List.append_assoc, items_eq, expr_print e h.1 hs.numeralEnds,
      suffixes_of_exprEnds hs]
    dsimp only
    rw [moreItems_print es s h.2]
    rfl

theorem moreItems_print : ∀ (es : List Expr) (s : List Char),
    Expr.isWritableItems st es = true →
    moreItems (Expr.printMoreItems st es ++ ']' :: s) = (es, ']' :: s)
  | [], s, _ => by
    rw [Expr.printMoreItems, List.nil_append, moreItems_eq, comma_cons_of_not (by decide)]
    rfl
  | e :: es, s, h => by
    rw [Expr.isWritableItems, Bool.and_eq_true] at h
    have hs := exprEnds_printMoreItems st es s
    rw [Expr.printMoreItems, List.cons_append, List.append_assoc, List.append_assoc, moreItems_eq,
      comma_gap ((solid_print e h.1).append _), Option.bind_some, expr_print e h.1 hs.numeralEnds,
      suffixes_of_exprEnds hs]
    dsimp only
    rw [moreItems_print es s h.2]
    rfl

theorem fields_print : ∀ (fs : List (String × Expr)) (s : List Char),
    Expr.isWritableFields st fs = true →
    fields (Expr.printFields st fs ++ '\x7d' :: s) = (fs, '\x7d' :: s)
  | [], s, _ => by
    have hk : key ('\x7d' :: s) = none := by
      rw [key_eq, name_cons_of_not (isNameStart_of_mem_signs (by decide)),
        string_cons_of_not (by decide)]
      rfl
    rw [Expr.printFields, List.nil_append, fields_eq, field_eq, hk]
    rfl
  | (k, e) :: fs, s, h => by
    rw [Expr.isWritableFields, Bool.and_eq_true, Bool.and_eq_true] at h
    have hs := exprEnds_printMoreFields st fs s
    have hf := field_print h.1.1 (solid_print e h.1.2) hs (expr_print e h.1.2 hs.numeralEnds)
    simp only [Expr.printFields, List.append_assoc, List.cons_append, fields_eq, hf,
      moreFields_print fs s h.2]
    rfl

theorem moreFields_print : ∀ (fs : List (String × Expr)) (s : List Char),
    Expr.isWritableFields st fs = true →
    moreFields (Expr.printMoreFields st fs ++ '\x7d' :: s) = (fs, '\x7d' :: s)
  | [], s, _ => by
    rw [Expr.printMoreFields, List.nil_append, moreFields_eq, comma_cons_of_not (by decide)]
    rfl
  | (k, e) :: fs, s, h => by
    rw [Expr.isWritableFields, Bool.and_eq_true, Bool.and_eq_true] at h
    have hs := exprEnds_printMoreFields st fs s
    have hf := field_print h.1.1 (solid_print e h.1.2) hs (expr_print e h.1.2 hs.numeralEnds)
    have hp : Expr.printMoreFields st ((k, e) :: fs) ++ '\x7d' :: s = ',' :: (st.gap ++ (st.key k ++
        ':' :: (st.gap ++ (e.print st ++ (Expr.printMoreFields st fs ++ '\x7d' :: s))))) := by
      simp only [Expr.printMoreFields, List.append_assoc, List.cons_append]
    rw [hp, moreFields_eq, comma_gap (solid_key k _), Option.bind_some, hf]
    dsimp only
    rw [moreFields_print fs s h.2]
    rfl

theorem statement_print : ∀ (x : Statement) {s : List Char},
    x.isWritable st = true → ExprEnds s →
    statement (x.print st ++ s) = some (x, s)
  | .bind n e, s, h, hs => by
    rw [Statement.isWritable, Bool.and_eq_true] at h
    rw [Statement.print, spelled_eq, spelled_eq, List.append_assoc, List.append_assoc,
      List.append_assoc, statement_eq, statementLead_bind h.1 ((solid_print e h.2).append s),
      Option.bind_some, expr_print e h.2 hs.numeralEnds, suffixes_of_exprEnds hs]
    rfl
  | .raise e, s, h, hs => by
    rw [Statement.isWritable] at h
    rw [Statement.print, spelled_eq, List.append_assoc, statement_eq,
      statementLead_raise ((solid_print e h).append s), Option.bind_some,
      expr_print e h hs.numeralEnds, suffixes_of_exprEnds hs]
    rfl
  | .expr e, s, h, hs => by
    rw [Statement.isWritable] at h
    rw [Statement.print, statement_eq, statementLead_print h hs.numeralEnds.1, Option.bind_none,
      Option.none_or, expr_print e h hs.numeralEnds, suffixes_of_exprEnds hs]
    rfl

/-- Statements are read up to where their list is closed. -/
theorem statements_printAll {sep : List Char} (hsep : IsBreak sep) : ∀ (ss : List Statement)
    {s : List Char}, Statement.isWritableAll st ss = true → Closes s →
    statements (Statement.printAll st sep ss ++ s) = (ss, s.dropWhile isSpace)
  | [], s, _, hs => by
    rw [Statement.printAll, List.nil_append, ← statements_dropWhile, statements_closes hs]
  | x :: ss, s, h, hs => by
    have hrest : statements ((Statement.printMore st sep ss ++ s).dropWhile isSpace) =
        (ss, s.dropWhile isSpace) := by
      rw [Statement.isWritableAll, Bool.and_eq_true] at h
      rw [statements_dropWhile, statements_printMore hsep ss h.2,
        statements_printAll hsep ss h.2 hs]
    rw [Statement.isWritableAll, Bool.and_eq_true] at h
    rw [Statement.printAll, List.append_assoc, statements_eq,
      ((solid_printStatement x h.1).append _).separators_eq,
      statement_print x h.1 (exprEnds_printMore hsep ss hs)]
    dsimp only
    rw [if_pos (endsStatement_printMore hsep ss hs), hrest]
    rfl

end

end View

/-- **A written body is read back.**  Statements that stand on a line each are read as they were
written. -/
theorem statements_print (st : Style) (body : List Statement)
    (h : Statement.isWritableAll st body = true) :
    statements (Statement.printAll st ['\n'] body) = .ok body := by
  have hs : IsBreak ['\n'] := ⟨'\n', [], rfl, Or.inl rfl, List.forall_mem_nil _⟩
  rw [statements_eq_ok_iff, ← List.append_nil (Statement.printAll st ['\n'] body),
    View.statements_printAll hs body h (Or.inl rfl)]
  rfl

/-- A callable and a box in a list, an object with keys of both kinds, assertions of both kinds,
and a text that takes double quotes. -/
theorem statements_print_nested :
    let inner : List Statement :=
      [.bind "n" (.number ⟨some '-', ['1'], some ['5'], some ⟨'e', some '+', ['2']⟩⟩),
        .raise (.string "it's")]
    let body : List Statement :=
      [.bind "lets" (.list [.callable "-> \x7b let n = -1.5e+2; raise \"it's\" \x7d" inner,
          .boxed .null, .object [("a", .bool true), ("b c", .undefined)]]),
        .expr (.assertion (.property (.call (.name "lets")) "raise") "not_be" true
          (some (.list []))),
        .expr (.assertion (.number ⟨none, ['7'], none, none⟩) "be" false none)]
    Statement.isWritableAll .plain body = true ∧
      Statement.printAll .plain ['\n'] body =
        ("let lets = [-> \x7b let n = -1.5e+2; raise \"it's\" \x7d, box(null), " ++
          "\x7ba: true, 'b c': undefined\x7d]\n" ++
          "lets().raise.should_not_not_be([])\n7.should_be()").toList ∧
      statements (Statement.printAll .plain ['\n'] body) = .ok body := by
  intro inner body
  have h : Statement.isWritableAll .plain body = true := by decide +kernel
  exact ⟨h, by decide +kernel, statements_print .plain body h⟩

end Body

end SpecEngine
