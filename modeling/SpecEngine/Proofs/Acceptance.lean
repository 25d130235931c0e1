import SpecEngine.Matcher.Definition
import SpecEngine.Proofs.Sentences

/-!
# Texts of matcher definitions

Which texts are accepted as the definition of a matcher, and as which one.  Blanks at the two ends
aside, an operator and a formula are the whole text.  An alias is not: behind the name of the other
matcher any text may follow that does not go on with the name, and nothing looks at it.

* `Definition.Writes s d rest`: the text `s` is the definition `d` up to its rest, which is ignored;
* `head?_trim`, `getLast?_trim`: a trimmed text has no blanks at its ends;
* `not_takes_alias`, `not_spells_alias`: no sentence begins like an alias;
* `read_accepts`: the texts that are accepted; `read_accepts_alias`, `not_writes_of_alias`: an alias
  that is accepted as a whole and one that is not.
-/

namespace SpecEngine

namespace Text

/-! ### Trimmed texts -/

theorem getLast?_trimEnd (s : List Char) : ∀ c ∈ (trimEnd s).getLast?, isBlank c = false := by
  induction s with
  | nil => exact nofun
  | cons d s ih =>
    rw [trimEnd]
    split
    · split
      · exact nofun
      · next hd =>
        rintro _ ⟨⟩
        simpa using hd
    · next e t h =>
      rw [List.getLast?_cons_cons, ← h]
      exact ih

theorem getLast?_trim (s : List Char) : ∀ c ∈ (trim s).getLast?, isBlank c = false :=
  getLast?_trimEnd _

theorem head?_trimEnd (s : List Char) : ∀ c ∈ (trimEnd s).head?, s.head? = some c := by
  cases s with
  | nil => exact nofun
  | cons d s =>
    rw [trimEnd]
    split
    · split
      · exact nofun
      · rintro _ ⟨⟩
        rfl
    · rintro _ ⟨⟩
      rfl

theorem head?_trim (s : List Char) : ∀ c ∈ (trim s).head?, isBlank c = false := by
  intro c hc
  exact Body.View.head?_dropWhile isBlank s c (head?_trimEnd _ c hc)

theorem isBlank_of_isSpacing {c : Char} (h : Body.isSpacing c = true) : isBlank c = true := by
  simp only [Body.isSpacing, Bool.or_eq_true, decide_eq_true_eq] at h
  rcases h with ((rfl | rfl) | rfl) | rfl <;> decide +kernel

end Text

namespace Formula

open Body (isSpacing NameEnds)
open Body.View (sign opening name string)
open View

/-- A trimmed text is read as the formula that it is a sentence for, all of it. -/
theorem readAll_trim_eq_ok_iff {source : List Char} {f : Formula} :
    readAll (Text.trim source) = .ok f ↔ Spells 0 f (Text.trim source) := by
  rw [readAll_eq_ok_iff]
  constructor
  · rintro ⟨a, t, b, ha, hb, hs, ht⟩
    have hfront : a = [] := by
      cases a with
      | nil => rfl
      | cons c a =>
        have hc := Text.head?_trim source c (by rw [hs]; rfl)
        rw [Text.isBlank_of_isSpacing (ha c List.mem_cons_self)] at hc
        cases hc
    have hback : b = [] := by
      rcases List.eq_nil_or_concat b with hb' | ⟨b', c, rfl⟩
      · exact hb'
      · have hc := Text.getLast?_trim source c (by rw [hs]; simp)
        rw [Text.isBlank_of_isSpacing (hb c (by simp))] at hc
        cases hc
    rw [hs, hfront, hback, List.append_nil]
    exact ht
  · intro h
    exact ⟨[], _, [], blank_nil, blank_nil, (List.append_nil _).symm, h⟩

/-- A formula begins with one that has no operators. -/
theorem exists_unary_of_conditional {s r : List Char} {f : Formula}
    (h : Takes (readConditional s) f r) : ∃ g t, Takes (readUnary s) g t := by
  have hor : ∃ g t, Takes (readOr s) g t := by
    rcases cases_of_conditional h with hf | ⟨g, t, _, _, _, _, _, hg, -⟩
    · exact ⟨f, r, hf⟩
    · exact ⟨g, t, hg⟩
  obtain ⟨g, t, hor⟩ := hor
  obtain ⟨g, t, hand, -⟩ := exists_of_or hor
  obtain ⟨g, t, hcomp, -⟩ := exists_of_and hand
  rcases cases_of_comparison hcomp with hg | ⟨k, u, _, _, _, hk, -⟩
  · exact ⟨g, t, hg⟩
  · exact ⟨k, u, hk⟩

/-- No formula begins like an alias: its first word would be none of a formula. -/
theorem not_takes_alias {r t : List Char} {f : Formula} :
    ¬ Takes (readConditional ("alias ".toList ++ r)) f t := by
  intro h
  have hname : name ("alias ".toList ++ r) = some ("alias", ' ' :: r) :=
    Body.View.name_append (n := "alias") (by decide +kernel) (Body.nameEnds_sign (by decide) r)
  have hword : ofWord? "alias" = none := by decide
  obtain ⟨g, u, hg⟩ := exists_unary_of_conditional h
  rcases cases_of_unary hg with ⟨x, v, k, hx, -, -⟩ | ⟨k, v, ha, -⟩
  · rcases cases_of_unarySign hx with ⟨-, a, -, hs⟩ | ⟨-, a, -, -, hs⟩
    · exact absurd (List.cons.inj hs).1 (by decide)
    · exact absurd (List.cons.inj hs).1 (by decide)
  rcases cases_of_atom ha with hh | ⟨w, x, ho, -⟩
  · rcases cases_of_head hh with ⟨-, ⟨⟩⟩ | ⟨x, hx, -⟩ | ⟨w, k, hn, hw, -⟩ | ⟨n, hn, -⟩
    · cases hx
    · cases hname.symm.trans hn
      cases hword.symm.trans hw
    · obtain ⟨c, w, hc, hs⟩ := Body.View.exists_of_recognize hn
      cases hc
      exact absurd hs (by decide)
  · cases ho

theorem not_spells_alias {f : Formula} {r : List Char} : ¬ Spells 0 f ("alias ".toList ++ r) := by
  intro h
  have hends : Ends 0 [] := ⟨nofun, nofun, nofun⟩
  have hread := Continues.takes_conditional h.readsOn hends
  rw [List.append_assoc] at hread
  exact not_takes_alias hread

theorem read_trim_eq_ok_iff {source : List Char} {f : Formula} :
    read (String.ofList (Text.trim source)) = .ok f ↔ Spells 0 f (Text.trim source) := by
  rw [← readAll_trim_eq_ok_iff, read, String.toList_ofList]
  cases readAll (Text.trim source) with
  | ok g => rw [Except.ok.injEq, Except.ok.injEq]
  | error e =>
    constructor
    · intro h
      cases h
    · intro h
      cases h

/-- Where reading fails, it names the text and tells what it did not expect. -/
theorem exists_of_read_error {source : String} {e : MatcherError} (h : read source = .error e) :
    ∃ rest, e = .invalidDefinition source (.unexpected rest) := by
  rw [read] at h
  split at h
  · cases h
  · cases h
    exact ⟨_, rfl⟩

end Formula

namespace Definition

/-! ### Definitions as texts -/

/-- The text is a definition up to `rest`, which is ignored. -/
inductive Writes (s : List Char) : Definition → List Char → Prop
  | aliasOf {target : String} {rest : List Char} :
    target.toList ≠ [] → (∀ c ∈ target.toList, Text.isWordChar c = true) →
    s = "alias ".toList ++ (target.toList ++ rest) → (∀ c ∈ rest.head?, Text.isWordChar c = false) →
    Writes s (.aliasOf target) rest
  | operator {o : Operator} : s = o.text.toList → Writes s (.rule (.operator o)) []
  | formula {f : Formula} :
    4 ≤ Text.bytes s → Formula.Spells 0 f s → Writes s (.rule (.formula (String.ofList s) f)) []

section

variable {s : List Char}

theorem aliasTarget?_eq_some_iff {target : String} :
    aliasTarget? s = some target ↔ ∃ rest, Writes s (.aliasOf target) rest := by
  rw [aliasTarget?]
  constructor
  · intro h
    split at h
    · cases h
    · next r hr =>
      split at h
      · cases h
      · next name hne =>
        cases h
        have hname := String.toList_ofList (l := r.takeWhile Text.isWordChar)
        refine ⟨r.dropWhile Text.isWordChar, .aliasOf ?_ ?_ ?_
          (Body.View.head?_dropWhile Text.isWordChar r)⟩
        · rw [hname]
          exact hne
        · rw [hname]
          exact fun c hc => List.mem_takeWhile_imp hc
        · rw [hname, List.takeWhile_append_dropWhile]
          exact Text.eq_append_of_after? hr
  · rintro ⟨rest, h⟩
    cases h with
    | aliasOf hne hword hs hrest =>
      have hname : (target.toList ++ rest).takeWhile Text.isWordChar = target.toList := by
        rw [(Body.View.takeWhile_frame _ hrest).1, List.takeWhile_eq_self_iff]
        exact hword
      rw [hs, Text.after?_append]
      dsimp only
      rw [hname]
      split
      · next h => exact absurd h hne
      · rw [String.ofList_toList]

/-- Nothing follows the name of the other matcher if what stands behind the blank is one word. -/
theorem Writes.rest_eq_nil {name rest : List Char} {target : String}
    (hname : ∀ c ∈ name, Text.isWordChar c = true)
    (h : Writes ("alias ".toList ++ name) (.aliasOf target) rest) : rest = [] := by
  cases h with
  | aliasOf _ _ hs hrest =>
    have hs : name = target.toList ++ rest := List.append_cancel_left hs
    cases rest with
    | nil => rfl
    | cons c rest =>
      have hword := hname c (by simp [hs])
      rw [hrest c rfl] at hword
      cases hword

theorem operator_ofText?_eq_some_iff {o : Operator} :
    Operator.ofText? (String.ofList s) = some o ↔ s = o.text.toList := by
  constructor
  · intro h
    have ho : o.text = String.ofList s := by simpa [Operator.ofText?] using List.find?_some h
    rw [ho, String.toList_ofList]
  · rintro rfl
    rw [String.ofList_toList, Operator.ofText?_text]

theorem bytes_operator_lt (o : Operator) : Text.bytes o.text.toList < 4 := by
  cases o <;> decide

theorem after?_alias_operator (o : Operator) :
    Text.after? "alias ".toList o.text.toList = none := by
  cases o <;> rfl

/-- No rule is written like an alias. -/
theorem Writes.aliasTarget?_eq_none {r : Rule} {rest : List Char} (h : Writes s (.rule r) rest) :
    aliasTarget? s = none := by
  have ha : Text.after? "alias ".toList s = none := by
    cases h with
    | operator hs =>
      rw [hs]
      exact after?_alias_operator _
    | formula _ hf =>
      rw [Option.eq_none_iff_forall_ne_some]
      intro r hr
      rw [Text.eq_append_of_after? hr] at hf
      exact Formula.not_spells_alias hf
  rw [aliasTarget?, ha]

end

theorem exists_writes_of_read {source : String} {d : Definition} (h : read source = .ok d) :
    ∃ rest, Writes (Text.trim source.toList) d rest := by
  rw [read] at h
  split at h
  · next target ht =>
    cases h
    exact aliasTarget?_eq_some_iff.1 ht
  · split at h
    · split at h
      · next o ho =>
        cases h
        exact ⟨[], .operator (operator_ofText?_eq_some_iff.1 ho)⟩
      · cases h
    · next hb =>
      split at h
      · next f hf =>
        cases h
        exact ⟨[], .formula (Nat.le_of_not_lt hb) (Formula.read_trim_eq_ok_iff.1 hf)⟩
      · cases h

theorem read_of_writes {source : String} {d : Definition} {rest : List Char}
    (h : Writes (Text.trim source.toList) d rest) : read source = .ok d := by
  cases d with
  | aliasOf target => rw [read, aliasTarget?_eq_some_iff.2 ⟨rest, h⟩]
  | rule r =>
    rw [read, h.aliasTarget?_eq_none]
    cases h with
    | @operator o hs =>
      have hb : Text.bytes (Text.trim source.toList) < 4 := hs ▸ bytes_operator_lt o
      dsimp only
      rw [if_pos hb, operator_ofText?_eq_some_iff.2 hs]
    | formula hb hf =>
      dsimp only
      rw [if_neg (Nat.not_lt.2 hb), Formula.read_trim_eq_ok_iff.2 hf]

theorem exists_of_read_error {source : String} {e : MatcherError} (h : read source = .error e) :
    ∃ fault, e = .invalidDefinition (String.ofList (Text.trim source.toList)) fault := by
  rw [read] at h
  split at h
  · cases h
  · split at h
    · split at h
      · cases h
      · cases h
        exact ⟨_, rfl⟩
    · split at h
      · cases h
      · next he =>
        cases h
        obtain ⟨rest, hr⟩ := Formula.exists_of_read_error he
        exact ⟨_, hr⟩

/-- **What is accepted as the definition of a matcher.**  Blanks at its ends aside, a text is
accepted as an operator or a formula if and only if all of it is the operator, or it has at least
four bytes and all of it is a sentence for the formula.  It is accepted as an alias if and only if
it begins with the word, a blank and the whole name of the other matcher, whatever follows; so that
it is accepted only as a whole if nothing follows such a name.  Every other text is refused as no
definition, which names the text. -/
theorem read_accepts (source : String) :
    (∀ d, read source = .ok d ↔ ∃ rest, Writes (Text.trim source.toList) d rest) ∧
    ((∀ target rest, Writes (Text.trim source.toList) (.aliasOf target) rest → rest = []) →
      ∀ d, read source = .ok d ↔ Writes (Text.trim source.toList) d []) ∧
    ∀ e, read source = .error e →
      ∃ fault, e = .invalidDefinition (String.ofList (Text.trim source.toList)) fault := by
  refine ⟨fun d => ⟨exists_writes_of_read, fun ⟨_, h⟩ => read_of_writes h⟩, fun hwhole d => ?_,
    fun e he => exists_of_read_error he⟩
  constructor
  · intro h
    obtain ⟨rest, h⟩ := exists_writes_of_read h
    cases d with
    | aliasOf target => exact hwhole target rest h ▸ h
    | rule r =>
      have hrest : rest = [] := by cases h <;> rfl
      exact hrest ▸ h
  · exact read_of_writes

/-- An alias with nothing behind the name of the other matcher is accepted, and only as a whole. -/
theorem read_accepts_alias :
    let source := "alias eql"
    (∀ target rest, Writes (Text.trim source.toList) (.aliasOf target) rest → rest = []) ∧
      (read source = .ok (.aliasOf "eql") ↔
        Writes (Text.trim source.toList) (.aliasOf "eql") []) ∧
      read source = .ok (.aliasOf "eql") := by
  intro source
  have htrim : Text.trim source.toList = "alias ".toList ++ "eql".toList := by decide +kernel
  have hword : ∀ c ∈ "eql".toList, Text.isWordChar c = true :=
    List.all_eq_true.1 (by decide +kernel)
  have hwhole : ∀ target rest, Writes (Text.trim source.toList) (.aliasOf target) rest →
      rest = [] := by
    rw [htrim]
    exact fun _ _ h => h.rest_eq_nil hword
  have haccepts := (read_accepts source).2.1 hwhole (.aliasOf "eql")
  have hwrites : Writes (Text.trim source.toList) (.aliasOf "eql") [] :=
    .aliasOf (by decide) hword (by rw [htrim, List.append_nil]) nofun
  exact ⟨hwhole, haccepts, haccepts.2 hwrites⟩

/-- An alias with more text behind the name of the other matcher is accepted, but not as a whole. -/
theorem not_writes_of_alias :
    let source := "alias eql or be"
    read source = .ok (.aliasOf "eql") ∧
      ¬ Writes (Text.trim source.toList) (.aliasOf "eql") [] := by
  intro source
  have htrim : Text.trim source.toList = source.toList := by decide +kernel
  constructor
  · have hword : ∀ c ∈ "eql".toList, Text.isWordChar c = true :=
      List.all_eq_true.1 (by decide +kernel)
    have hblank : ∀ c ∈ " or be".toList.head?, Text.isWordChar c = false := by
      rintro _ ⟨⟩
      decide +kernel
    have hwrites : Writes (Text.trim source.toList) (.aliasOf "eql") " or be".toList := by
      rw [htrim]
      exact .aliasOf (by decide) hword (by decide +kernel) hblank
    exact read_of_writes hwrites
  · intro h
    cases h with
    | aliasOf _ _ hs _ =>
      rw [htrim] at hs
      exact absurd hs (by decide +kernel)

end Definition

end SpecEngine
