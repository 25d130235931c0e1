import SpecEngine.Proofs.Formulas

/-!
# Precedence in formulas

Formulas written out as text, with round brackets only where a formula binds looser than its place
asks for, and read back.

* `Formula.level`: how tightly a formula binds;
* `Prints k f t`: `t` is a text of `f` for a place of level `k`, with any spacing around operators;
* `Ends k s`: in front of `s`, a formula read at level `k` is over;
* `Continues k f t`: reading at level `k` gets over `t` with `f` and goes on behind it
  (`Prints.continues`);
* `read_prints`: each text of a formula is read as that formula.
-/

namespace SpecEngine

/-- Whether a numeral is one of formulas: its text is recognized, all of it, as that numeral. -/
def Numeral.isFloat (n : Numeral) : Bool :=
  match recognize n.text with
  | .ok ⟨m, [], _⟩ => m = n
  | _ => false

theorem Numeral.takes_of_isFloat {n : Numeral} (h : n.isFloat = true) :
    Takes (recognize n.text) n [] := by
  unfold isFloat at h
  split at h
  · next m hr hm =>
    rw [decide_eq_true_eq] at h
    exact ⟨hr, h ▸ hm⟩
  · cases h

/-- Whether a literal can be written down in a formula. -/
def Literal.isWritable : Literal → Bool
  | .number n => n.isFloat
  | .string x => Body.isQuotable x
  | _ => true

namespace Formula

open Body (isSpacing isName isNameStart signs isNameStart_of_mem_signs NameEnds)
open Body.View (sign signAfter opening name string)
open View

/-! ### Texts of formulas -/

/-- How tightly a formula binds: a conditional least, then what is joined by `||`, by `&&` and by
an operator, then numbers and what has a sign before it, and most of all what a point or a square
bracket may follow. -/
def level : Formula → Nat
  | .conditional .. => 0
  | .or .. => 1
  | .and .. => 2
  | .compare .. => 3
  | .not _ | .typeOf _ | .literal (.number _) => 4
  | _ => 5

theorem level_le (f : Formula) : f.level ≤ 5 := by
  unfold level
  split <;> decide

/-- The formulas that are words. -/
def word? : Formula → Option String
  | .actual => some "actual"
  | .expected => some "expected"
  | .literal (.bool true) => some "true"
  | .literal (.bool false) => some "false"
  | .literal .null => some "null"
  | .literal .undefined => some "undefined"
  | .literal (.type t) => some t.text
  | _ => none

/-- A text of nothing but spacing. -/
def Blank (g : List Char) : Prop :=
  ∀ c ∈ g, isSpacing c = true

theorem blank_nil : Blank [] := List.forall_mem_nil _

instance (g : List Char) : Decidable (Blank g) :=
  List.decidableBAll (fun c => isSpacing c = true) g

/-- The texts of a formula at a place of level `k`.  It stands between round brackets when it binds
looser than that, and only then; spacing may stand around operators and the signs of a
conditional. -/
inductive Prints : Nat → Formula → List Char → Prop
  | group {k : Nat} {f : Formula} {t : List Char} :
    f.level < k → Prints 0 f t → Prints k f ('(' :: (t ++ [')']))
  | word {k : Nat} {f : Formula} {w : String} :
    k ≤ f.level → f.word? = some w → Prints k f w.toList
  | string {k : Nat} {q : Char} {x : String} :
    k ≤ 5 → (q = '\'' ∨ q = '"') → q ∉ x.toList ∧ '\n' ∉ x.toList →
    Prints k (.literal (.string x)) (Body.quoted q x)
  | number {k : Nat} {n : Numeral} :
    k ≤ 4 → n.isFloat = true → Prints k (.literal (.number n)) n.text
  | property {k : Nat} {f : Formula} {t : List Char} {n : String} :
    k ≤ 5 → Prints 5 f t → isName n = true → Prints k (.property f n) (t ++ '.' :: n.toList)
  | index {k : Nat} {f g : Formula} {t u : List Char} :
    k ≤ 5 → Prints 5 f t → Prints 0 g u → Prints k (.index f g) (t ++ '[' :: (u ++ [']']))
  | not {k : Nat} {f : Formula} {t : List Char} :
    k ≤ 4 → Prints 4 f t → Prints k (.not f) ('!' :: t)
  | typeOf {k : Nat} {f : Formula} {t : List Char} :
    k ≤ 4 → Prints 4 f t → Prints k (.typeOf f) ("typeof".toList ++ ' ' :: t)
  | compare {k : Nat} {o : Operator} {f g : Formula} {t u a b : List Char} :
    k ≤ 3 → Prints 4 f t → Prints 4 g u → Blank a → Blank b →
    Prints k (.compare o f g) (t ++ (a ++ (o.text.toList ++ (b ++ u))))
  | and {k : Nat} {f g : Formula} {t u a b : List Char} :
    k ≤ 2 → Prints 2 f t → Prints 3 g u → Blank a → Blank b →
    Prints k (.and f g) (t ++ (a ++ ("&&".toList ++ (b ++ u))))
  | or {k : Nat} {f g : Formula} {t u a b : List Char} :
    k ≤ 1 → Prints 1 f t → Prints 2 g u → Blank a → Blank b →
    Prints k (.or f g) (t ++ (a ++ ("||".toList ++ (b ++ u))))
  | conditional {k : Nat} {f g h : Formula} {t u v a b c d : List Char} :
    k ≤ 0 → Prints 1 f t → Prints 0 g u → Prints 0 h v → Blank a → Blank b → Blank c → Blank d →
    Prints k (.conditional f g h) (t ++ (a ++ '?' :: (b ++ (u ++ (c ++ ':' :: (d ++ v))))))

/-! ### Where formulas begin and end -/

/-- The signs that go on with a formula read at level `k`, perhaps behind spacing. -/
def joins : Nat → List Char
  | 0 => ['=', '!', '<', '>', '&', '|', '?']
  | 1 => ['=', '!', '<', '>', '&']
  | 2 | 3 => ['=', '!', '<', '>']
  | _ => []

/-- A formula read at level `k` is over in front of the text. -/
structure Ends (k : Nat) (s : List Char) : Prop where
  name : NameEnds s
  access : k ≤ 4 → ∀ c ∈ s.head?, c ≠ '.' ∧ c ≠ '['
  join : ∀ c ∈ (s.dropWhile isSpacing).head?, c ∉ joins k

/-- The text begins with something that is neither spacing nor part of an operator. -/
def Solid (s : List Char) : Prop :=
  ∃ c t, s = c :: t ∧ isSpacing c = false ∧ c ≠ '='

theorem joins_subset {k l : Nat} (h : k ≤ l) : joins l ⊆ joins k := by
  induction h with
  | refl => exact List.Subset.refl _
  | @step l _ ih =>
    refine List.Subset.trans ?_ ih
    match l with
    | 0 | 1 | 2 | 3 | _ + 4 => simp [joins]

theorem Ends.mono {k l : Nat} {s : List Char} (h : Ends k s) (hkl : k ≤ l) : Ends l s where
  name := h.name
  access hl := h.access (Nat.le_trans hkl hl)
  join c hc hj := h.join c hc (joins_subset hkl hj)

theorem dropWhile_blank {a : List Char} (ha : Blank a) {c : Char} (hc : isSpacing c = false)
    (s : List Char) : (a ++ c :: s).dropWhile isSpacing = c :: s := by
  rw [List.dropWhile_append_of_pos ha, List.dropWhile_cons_of_neg (by simp [hc])]

theorem Solid.dropWhile_spacing {s : List Char} (hs : Solid s) : s.dropWhile isSpacing = s := by
  obtain ⟨c, t, rfl, hc, -⟩ := hs
  exact List.dropWhile_cons_of_neg (by simp [hc])

theorem Solid.dropWhile_eq {a s : List Char} (ha : Blank a) (hs : Solid s) :
    (a ++ s).dropWhile isSpacing = s := by
  obtain ⟨c, t, rfl, hc, -⟩ := hs
  exact dropWhile_blank ha hc t

theorem Solid.opening_eq {a s : List Char} (ha : Blank a) (hs : Solid s) (c : Char) :
    opening c (c :: (a ++ s)) = some s := by
  rw [Body.View.opening_cons, hs.dropWhile_eq ha]

theorem solid_of_class {p : Char → Bool}
    (hp : [' ', '\t', '\r', '\n', '='].all (fun d => !p d) = true) {c : Char} (hc : p c = true)
    (s : List Char) : Solid (c :: s) := by
  have hn : ∀ d ∈ [' ', '\t', '\r', '\n', '='], c ≠ d := fun d hd =>
    Body.ne_of_class (by simpa using List.all_eq_true.1 hp d hd) hc
  simp only [List.forall_mem_cons] at hn
  exact ⟨c, s, rfl, by simp [isSpacing, hn], hn.2.2.2.2.1⟩

theorem Solid.append {s : List Char} (hs : Solid s) (t : List Char) : Solid (s ++ t) := by
  obtain ⟨c, u, rfl, hc⟩ := hs
  exact ⟨c, u ++ t, rfl, hc⟩

theorem class_of_isSpacing {c : Char} (h : isSpacing c = true) :
    c ∈ signs ∧ c ≠ '.' ∧ c ≠ '[' := by
  simp only [isSpacing, Bool.or_eq_true, decide_eq_true_eq] at h
  rcases h with ((rfl | rfl) | rfl) | rfl <;> decide

/-- A formula ends before a sign that does not go on with it, also behind spacing. -/
theorem ends_blank {k : Nat} {a : List Char} (ha : Blank a) {c : Char}
    (hc : c ∈ signs ∧ isSpacing c = false ∧ c ≠ '.' ∧ c ≠ '[') (hk : c ∉ joins k)
    (s : List Char) : Ends k (a ++ c :: s) where
  name := by
    cases a with
    | nil => exact Body.nameEnds_sign hc.1 s
    | cons d a =>
      exact Body.nameEnds_sign (class_of_isSpacing (ha d List.mem_cons_self)).1 _
  access _ := by
    cases a with
    | nil =>
      rintro _ ⟨⟩
      exact hc.2.2
    | cons d a =>
      rintro _ ⟨⟩
      exact (class_of_isSpacing (ha d List.mem_cons_self)).2
  join := by
    rw [dropWhile_blank ha hc.2.1]
    rintro _ ⟨⟩
    exact hk

/-- At the tightest level only names go on. -/
theorem ends_target {c : Char} (hc : c ∈ signs) (s : List Char) : Ends 5 (c :: s) where
  name := Body.nameEnds_sign hc s
  access h := absurd h (by decide)
  join _ _ := List.not_mem_nil

/-- A sign does not go on with a formula in front of which it is no join. -/
theorem between_of_ends {k : Nat} {s : List Char} (h : Ends k s) {c : Char} (hc : c ∈ joins k)
    (w : List Char) : between (c :: w) s = none := by
  rw [between_eq]
  have hj := h.join
  cases hd : s.dropWhile isSpacing with
  | nil => rfl
  | cons d u =>
    rw [hd] at hj
    have hcd : c ≠ d := by
      rintro rfl
      exact hj c rfl hc
    rw [Text.after?_cons_of_ne hcd]
    rfl

theorem operator_of_ends {s : List Char} (h : Ends 3 s) : operator s = none := by
  rw [operator_eq, List.findSome?_eq_none_iff]
  intro o _
  rw [Option.map_eq_none_iff]
  cases o <;> exact between_of_ends h (by decide) _

theorem sign_of_ends {s : List Char} (h : Ends 4 s) : sign '.' s = none := by
  refine Body.View.sign_eq_none ?_
  rintro t rfl
  exact (h.access (Nat.le_refl 4) '.' rfl).1 rfl

theorem takes_accesses_of_ends {s : List Char} (h : Ends 4 s) (f : Formula) :
    Takes (readAccesses f s) f s := by
  refine takes_accesses_end (sign_of_ends h) ?_
  cases s with
  | nil => rfl
  | cons c s => exact Body.View.opening_cons_of_ne (h.access (Nat.le_refl 4) c rfl).2 s

/-- A sign between spacing is read up to what stands behind it. -/
theorem between_blank {a b w s : List Char} (ha : Blank a) (hb : Blank b) {c : Char}
    (hc : isSpacing c = false) (hs : Solid s) :
    between (c :: w) (a ++ ((c :: w) ++ (b ++ s))) = some s := by
  rw [between_eq, List.cons_append, dropWhile_blank ha hc, ← List.cons_append, Text.after?_append,
    Option.map_some, Solid.dropWhile_eq hb hs]

/-- An operator is read up to what stands behind it: no longer operator is there. -/
theorem operator_blank {a b s : List Char} (ha : Blank a) (hb : Blank b) (hs : Solid s)
    (o : Operator) : operator (a ++ (o.text.toList ++ (b ++ s))) = some (o, s) := by
  obtain ⟨c, r, hr, hc⟩ : ∃ c r, b ++ s = c :: r ∧ c ≠ '=' := by
    cases b with
    | nil =>
      obtain ⟨c, t, rfl, -, hc⟩ := hs
      exact ⟨c, t, rfl, hc⟩
    | cons d b =>
      refine ⟨d, b ++ s, rfl, ?_⟩
      rintro rfl
      exact absurd (hb '=' List.mem_cons_self) (by decide)
  have ho : (a ++ (o.text.toList ++ (b ++ s))).dropWhile isSpacing = o.text.toList ++ c :: r := by
    rw [hr]
    cases o <;> exact dropWhile_blank ha (by decide) _
  have hd : (c :: r).dropWhile isSpacing = s := by
    rw [← hr, Solid.dropWhile_eq hb hs]
  rw [operator_eq]
  simp only [between_eq, ho]
  -- the operators that begin like this one end in an equals sign, which does not stand here
  cases o <;> simp [Operator.all, Operator.text, Text.after?, Ne.symm hc, hd]

/-! ### Reading at a level -/

/-- The reader of formulas at places of level `k`. -/
def readLevel : Nat → (s : List Char) → Except Stop (Parsed Formula s.length)
  | 0 => readConditional
  | 1 => readOr
  | 2 => readAnd
  | 3 => readComparison
  | _ => readUnary

/-- What is read at level `k` behind a formula that stands there. -/
def readMore : Nat → Formula → (s : List Char) → Except Stop (Parsed Formula (s.length + 1))
  | 0, f, s | 3, f, s | 4, f, s => .ok ⟨f, s, Text.length_lt_succ s⟩
  | 1, f, s => readDisjuncts f s
  | 2, f, s => readConjuncts f s
  | _, f, s => readAccesses f s

/-- Reading at level `k` gets over `t` with `f` and goes on behind it. -/
def Continues (k : Nat) (f : Formula) (t : List Char) : Prop :=
  ∀ ⦃s r : List Char⦄ ⦃g : Formula⦄, Ends k s → Takes (readMore k f s) g r →
    Takes (readLevel k (t ++ s)) g r

/-- Reading gets over `t` with `f` and goes on behind it, unless a point is there. -/
def ContinuesPointless (f : Formula) (t : List Char) : Prop :=
  ∀ ⦃s r : List Char⦄ ⦃g : Formula⦄, NameEnds s → sign '.' s = none →
    Takes (readAccesses f s) g r → Takes (readUnary (t ++ s)) g r

section

variable {f g h : Formula} {s r t u v : List Char}

theorem eq_of_takes_ok {n : Nat} {hr : r.length < n} (hg : Takes (.ok ⟨f, r, hr⟩) g s) :
    f = g ∧ r = s := by
  obtain ⟨_, hg⟩ := hg
  cases hg
  exact ⟨rfl, rfl⟩

theorem Continues.pointless (h : Continues 5 f t) : ContinuesPointless f t :=
  fun _ _ _ hs _ hg => h ⟨hs, fun h => absurd h (by decide), fun _ _ => List.not_mem_nil⟩ hg

theorem ContinuesPointless.continues (h : ContinuesPointless f t) : Continues 4 f t := by
  intro s r g hs hg
  obtain ⟨rfl, rfl⟩ := eq_of_takes_ok hg
  exact h hs.name (sign_of_ends hs) (takes_accesses_of_ends hs _)

/-- What is read at a level is read at the next looser one, where no more of it stands. -/
theorem Continues.step : ∀ {k : Nat}, Continues (k + 1) f t → Continues k f t
  | 0, h, s, r, g, hs, hg => by
    obtain ⟨rfl, rfl⟩ := eq_of_takes_ok hg
    exact takes_conditional_alone
      (h (hs.mono (by decide)) (takes_disjuncts_end (between_of_ends hs (by decide) _)))
      (between_of_ends hs (by decide) _)
  | 1, h, s, r, g, hs, hg =>
    takes_or (h (hs.mono (by decide)) (takes_conjuncts_end (between_of_ends hs (by decide) _))) hg
  | 2, h, s, r, g, hs, hg => takes_and (h (hs.mono (by decide)) ⟨_, rfl⟩) hg
  | 3, h, s, r, g, hs, hg => by
    obtain ⟨rfl, rfl⟩ := eq_of_takes_ok hg
    exact takes_comparison_alone (h (hs.mono (by decide)) ⟨_, rfl⟩) (operator_of_ends hs)
  | 4, h, s, r, g, hs, hg => h.pointless.continues hs hg
  | _ + 5, h, s, r, g, hs, hg => h (hs.mono (Nat.le_succ _)) hg

theorem Continues.of_le {k l : Nat} (hkl : k ≤ l) (h : Continues l f t) : Continues k f t := by
  induction hkl with
  | refl => exact h
  | step _ ih => exact ih h.step

/-- A formula that is over is read up to its end. -/
theorem Continues.takes_conditional (h : Continues 0 f t) (hs : Ends 0 s) :
    Takes (readConditional (t ++ s)) f s := h hs ⟨_, rfl⟩

theorem Continues.takes_unary (h : Continues 4 f t) (hs : Ends 4 s) :
    Takes (readUnary (t ++ s)) f s := h hs ⟨_, rfl⟩

/-- What an atom is, properties and keys may follow. -/
theorem continues_of_atom {k : Nat}
    (h : ∀ s, NameEnds s → unarySign (t ++ s) = none ∧ Takes (readAtom (t ++ s)) f s) :
    Continues (k + 5) f t := by
  intro s r g hs hg
  obtain ⟨hu, ha⟩ := h s hs.name
  exact takes_unary_postfix hu ha hg

theorem unarySign_cons_of_not {c : Char} (hc : c ≠ '!') (hn : isNameStart c = false)
    (s : List Char) : unarySign (c :: s) = none := by
  rw [unarySign_eq, Body.View.opening_cons_of_ne hc, Body.View.name_cons_of_not hn]
  rfl

theorem continues_group {k : Nat} {a b : List Char} (h : Continues 0 f t) (ht : Solid t)
    (ha : Blank a) (hb : Blank b) : Continues (k + 5) f ('(' :: (a ++ (t ++ (b ++ [')'])))) := by
  refine continues_of_atom fun s _ => ⟨unarySign_cons_of_not (by decide)
    (isNameStart_of_mem_signs (by decide)) _, ?_⟩
  have ho : opening '(' ('(' :: (a ++ (t ++ (b ++ [')'])) ++ s)) = some (t ++ (b ++ ')' :: s)) := by
    rw [List.append_assoc, List.append_assoc, List.append_assoc, (ht.append _).opening_eq ha,
      List.singleton_append]
  have hc : signAfter isSpacing ')' (b ++ ')' :: s) = some s := by
    rw [Body.View.signAfter_eq, dropWhile_blank hb (by decide), Body.View.sign_cons, if_pos rfl]
  exact takes_atom_group ho (h.takes_conditional (ends_blank hb (by decide) (by decide) s)) hc

theorem word?_eq_some {w : String} (h : f.word? = some w) :
    ofWord? w = some f ∧ isName w = true ∧ w ≠ "typeof" := by
  unfold word? at h
  split at h <;> cases h
  all_goals first
    | decide +kernel
    | (rename_i t; cases t <;> decide +kernel)

theorem continues_word {w : String} (h : f.word? = some w) : Continues 5 f w.toList := by
  obtain ⟨hw, hn, ht⟩ := word?_eq_some h
  refine continues_of_atom (k := 0) fun s hs => ?_
  have hname : name (w.toList ++ s) = some (w, s) := Body.View.name_append hn hs
  obtain ⟨c, u, hc, hstart, -⟩ := Body.exists_of_isName hn
  have hne : ∀ {d}, d ∈ signs → c ≠ d := Body.ne_of_isNameStart hstart
  rw [hc, List.cons_append] at hname ⊢
  constructor
  · rw [unarySign_eq, Body.View.opening_cons_of_ne (hne (by decide)), hname]
    exact if_neg ht
  · exact takes_atom_whole (takes_head_word
      (Body.View.opening_cons_of_ne (hne (by decide)) _)
      (Body.View.string_cons_of_not ⟨hne (by decide), hne (by decide)⟩ _)
      hname hw)

theorem continues_string {q : Char} {x : String} (hq : q = '\'' ∨ q = '"')
    (hx : q ∉ x.toList ∧ '\n' ∉ x.toList) :
    Continues 5 (.literal (.string x)) (Body.quoted q x) := by
  refine continues_of_atom (k := 0) fun s _ => ?_
  have hne : q ≠ '!' ∧ q ≠ '(' := by
    rcases hq with rfl | rfl <;> decide
  have hn : isNameStart q = false := by
    refine isNameStart_of_mem_signs ?_
    rcases hq with rfl | rfl <;> decide
  exact ⟨unarySign_cons_of_not hne.1 hn _, takes_atom_whole (takes_head_string
    (Body.View.opening_cons_of_ne hne.2 _) (Body.View.string_append hq hx s))⟩

theorem takes_unary_number {n : Numeral} (hn : n.isFloat = true)
    (hr : Takes (Numeral.recognize (n.text ++ s)) n s)
    (hg : Takes (readAccesses (.literal (.number n)) s) g r) :
    Takes (readUnary (n.text ++ s)) g r := by
  obtain ⟨c, u, hc, hs'⟩ := Body.View.exists_of_recognize (Numeral.takes_of_isFloat hn)
  have hne : ∀ d, Body.View.isFloatStart d = false → c ≠ d := fun d hd => Body.ne_of_class hd hs'
  have hnot : isNameStart c = false := Body.View.isNameStart_of_isFloatStart hs'
  rw [hc, List.cons_append] at hr ⊢
  exact takes_unary_postfix (unarySign_cons_of_not (hne _ (by decide)) hnot _)
    (takes_atom_whole (takes_head_number (Body.View.opening_cons_of_ne (hne _ (by decide)) _)
      (Body.View.string_cons_of_not ⟨hne _ (by decide), hne _ (by decide)⟩ _)
      (Body.View.name_cons_of_not hnot _) hr)) hg

theorem continues_number {n : Numeral} (hn : n.isFloat = true) :
    ContinuesPointless (.literal (.number n)) n.text := fun _ _ _ hs hp hg =>
  takes_unary_number hn (Body.View.recognize_frame (Numeral.takes_of_isFloat hn) hs hp) hg

theorem continues_property {n : String} (h : Continues 5 f t) (hn : isName n = true) :
    Continues 5 (.property f n) (t ++ '.' :: n.toList) := by
  intro s r g hs hg
  rw [List.append_assoc, List.cons_append]
  have hp : sign '.' ('.' :: (n.toList ++ s)) = some (n.toList ++ s) :=
    Body.View.sign_eq_some_iff.2 rfl
  exact h (ends_target (by decide) _)
    (takes_accesses_property hp (Body.View.name_append hn hs.name) hg)

theorem continues_index {a b : List Char} (h : ContinuesPointless f t) (hu : Continues 0 g u)
    (ht : Solid u) (ha : Blank a) (hb : Blank b) :
    Continues 5 (.index f g) (t ++ '[' :: (a ++ (u ++ (b ++ [']'])))) := by
  intro s r x hs hx
  have ho : opening '[' ('[' :: (a ++ (u ++ (b ++ [']'])) ++ s)) = some (u ++ (b ++ ']' :: s)) := by
    rw [List.append_assoc, List.append_assoc, List.append_assoc, (ht.append _).opening_eq ha,
      List.singleton_append]
  have hc : signAfter isSpacing ']' (b ++ ']' :: s) = some s := by
    rw [Body.View.signAfter_eq, dropWhile_blank hb (by decide), Body.View.sign_cons, if_pos rfl]
  have hp : sign '.' ('[' :: (a ++ (u ++ (b ++ [']'])) ++ s)) = none := by
    rw [Body.View.sign_cons, if_neg (by decide)]
  rw [List.append_assoc, List.cons_append]
  exact h (Body.nameEnds_sign (by decide) _) hp
    (takes_accesses_index hp ho
      (hu.takes_conditional (ends_blank hb (by decide) (by decide) s)) hc hx)

theorem continues_not {a : List Char} (h : Continues 4 f t) (ht : Solid t) (ha : Blank a) :
    Continues 4 (.not f) ('!' :: (a ++ t)) := by
  intro s r x hs hx
  obtain ⟨rfl, rfl⟩ := eq_of_takes_ok hx
  have hu : unarySign ('!' :: (a ++ t ++ s)) = some (.not, t ++ s) := by
    rw [unarySign_eq, List.append_assoc, (ht.append s).opening_eq ha]
  exact takes_unary_sign hu (h.takes_unary hs)

theorem continues_typeOf {a : List Char} (h : Continues 4 f t) (ht : Solid t) (ha : Blank a)
    (he : ∀ s, NameEnds (a ++ t ++ s)) : Continues 4 (.typeOf f) ("typeof".toList ++ (a ++ t)) := by
  intro s r x hs hx
  obtain ⟨rfl, rfl⟩ := eq_of_takes_ok hx
  have hn : name ("typeof".toList ++ (a ++ t ++ s)) = some ("typeof", a ++ t ++ s) :=
    Body.View.name_append (by decide +kernel) (he s)
  have hd : (a ++ t ++ s).dropWhile isSpacing = t ++ s := by
    rw [List.append_assoc, (ht.append s).dropWhile_eq ha]
  have hu : unarySign ("typeof".toList ++ (a ++ t ++ s)) = some (.typeOf, t ++ s) := by
    have ho : opening '!' ("typeof".toList ++ (a ++ t ++ s)) = none :=
      Body.View.opening_cons_of_ne (by decide) _
    rw [unarySign_eq, ho, hn]
    exact congrArg (fun r => some (Sign.typeOf, r)) hd
  rw [List.append_assoc]
  exact takes_unary_sign hu (h.takes_unary hs)

section

variable {a b : List Char}

theorem continues_compare {o : Operator} (h : Continues 4 f t) (hu : Continues 4 g u)
    (ht : Solid u) (ha : Blank a) (hb : Blank b) :
    Continues 3 (.compare o f g) (t ++ (a ++ (o.text.toList ++ (b ++ u)))) := by
  intro s r x hs hx
  obtain ⟨rfl, rfl⟩ := eq_of_takes_ok hx
  have he : Ends 4 (a ++ (o.text.toList ++ (b ++ (u ++ s)))) := by
    cases o <;> exact ends_blank ha (by decide) (by decide) _
  rw [List.append_assoc t, List.append_assoc a, List.append_assoc o.text.toList,
    List.append_assoc b]
  exact takes_comparison_operator (h.takes_unary he) (operator_blank ha hb (ht.append s) o)
    (hu.takes_unary (hs.mono (by decide)))

theorem continues_and (h : Continues 2 f t) (hu : Continues 3 g u) (ht : Solid u) (ha : Blank a)
    (hb : Blank b) : Continues 2 (.and f g) (t ++ (a ++ ("&&".toList ++ (b ++ u)))) := by
  intro s r x hs hx
  have he : Ends 2 (a ++ ("&&".toList ++ (b ++ (u ++ s)))) :=
    ends_blank ha (by decide) (by decide) _
  rw [List.append_assoc t, List.append_assoc a, List.append_assoc "&&".toList, List.append_assoc b]
  exact h he (takes_conjuncts_and (between_blank ha hb (by decide) (ht.append s))
    (hu (hs.mono (by decide)) ⟨_, rfl⟩) hx)

theorem continues_or (h : Continues 1 f t) (hu : Continues 2 g u) (ht : Solid u) (ha : Blank a)
    (hb : Blank b) : Continues 1 (.or f g) (t ++ (a ++ ("||".toList ++ (b ++ u)))) := by
  intro s r x hs hx
  have he : Ends 1 (a ++ ("||".toList ++ (b ++ (u ++ s)))) :=
    ends_blank ha (by decide) (by decide) _
  rw [List.append_assoc t, List.append_assoc a, List.append_assoc "||".toList, List.append_assoc b]
  exact h he (takes_disjuncts_or (between_blank ha hb (by decide) (ht.append s))
    (hu (hs.mono (by decide)) (takes_conjuncts_end (between_of_ends hs (by decide) _))) hx)

theorem continues_conditional {c d : List Char} (hf : Continues 1 f t) (hg : Continues 0 g u)
    (hh : Continues 0 h v) (hu : Solid u) (hv : Solid v) (ha : Blank a) (hb : Blank b)
    (hc : Blank c) (hd : Blank d) :
    Continues 0 (.conditional f g h)
      (t ++ (a ++ '?' :: (b ++ (u ++ (c ++ ':' :: (d ++ v)))))) := by
  intro s r x hs hx
  obtain ⟨rfl, rfl⟩ := eq_of_takes_ok hx
  have hq : Ends 1 (a ++ '?' :: (b ++ (u ++ (c ++ ':' :: (d ++ (v ++ s)))))) :=
    ends_blank ha (by decide) (by decide) _
  have hn : Ends 0 (c ++ ':' :: (d ++ (v ++ s))) := ends_blank hc (by decide) (by decide) _
  have hor :
      between "||".toList (a ++ '?' :: (b ++ (u ++ (c ++ ':' :: (d ++ (v ++ s)))))) = none := by
    rw [between_eq, dropWhile_blank ha (by decide)]
    rfl
  rw [List.append_assoc t, List.append_assoc a, List.cons_append, List.append_assoc b,
    List.append_assoc u, List.append_assoc c, List.cons_append, List.append_assoc d]
  exact takes_conditional_branches (hf hq (takes_disjuncts_end hor))
    (between_blank ha hb (by decide) (hu.append _)) (hg.takes_conditional hn)
    (between_blank hc hd (by decide) (hv.append s)) (hh.takes_conditional hs)

end

end

theorem Prints.solid {k : Nat} {f : Formula} {t : List Char} (h : Prints k f t) : Solid t := by
  induction h with
  | group => exact ⟨_, _, rfl, by decide, by decide⟩
  | word _ hw =>
    obtain ⟨c, u, hc, hs, -⟩ := Body.exists_of_isName (word?_eq_some hw).2.1
    exact hc ▸ solid_of_class (by decide +kernel) hs u
  | string _ hq => rcases hq with rfl | rfl <;> exact ⟨_, _, rfl, by decide, by decide⟩
  | number _ hn =>
    obtain ⟨c, u, hc, hs⟩ := Body.View.exists_of_recognize (Numeral.takes_of_isFloat hn)
    exact hc ▸ solid_of_class (by decide) hs u
  | property _ _ _ ih => exact ih.append _
  | index _ _ _ ih => exact ih.append _
  | not => exact ⟨_, _, rfl, by decide, by decide⟩
  | typeOf => exact ⟨_, _, rfl, by decide, by decide⟩
  | compare _ _ _ _ _ ih => exact ih.append _
  | and _ _ _ _ _ ih => exact ih.append _
  | or _ _ _ _ _ ih => exact ih.append _
  | conditional _ _ _ _ _ _ _ _ ih => exact ih.append _

/-- **Each text of a formula is read at its level**, up to where the formula is over. -/
theorem Prints.continues {k : Nat} {f : Formula} {t : List Char} (h : Prints k f t) :
    Continues k f t := by
  induction h with
  | @group k _ _ _ ht ih =>
    exact (continues_group ih ht.solid blank_nil blank_nil).of_le (Nat.le_add_right k 5)
  | @word _ f _ hk hw => exact (continues_word hw).of_le (Nat.le_trans hk f.level_le)
  | string hk hq hx => exact (continues_string hq hx).of_le hk
  | number hk hn => exact (continues_number hn).continues.of_le hk
  | property hk _ hn ih => exact (continues_property ih hn).of_le hk
  | index hk _ hu ih ihu =>
    exact (continues_index ih.pointless ihu hu.solid blank_nil blank_nil).of_le hk
  | not hk ht ih => exact (continues_not ih ht.solid blank_nil).of_le hk
  | typeOf hk ht ih =>
    exact (continues_typeOf (a := [' ']) ih ht.solid (by decide)
      fun _ => Body.nameEnds_sign (by decide) _).of_le hk
  | compare hk _ hu ha hb ih ihu => exact (continues_compare ih ihu hu.solid ha hb).of_le hk
  | and hk _ hu ha hb ih ihu => exact (continues_and ih ihu hu.solid ha hb).of_le hk
  | or hk _ hu ha hb ih ihu => exact (continues_or ih ihu hu.solid ha hb).of_le hk
  | conditional hk _ hu hv ha hb hc hd ih ihu ihv =>
    exact (continues_conditional ih ihu ihv hu.solid hv.solid ha hb hc hd).of_le hk

/-! ### Reading back -/

/-- Whether a formula has a text: its literals have one, and its properties are names. -/
def isWritable : Formula → Bool
  | .actual | .expected => true
  | .literal l => l.isWritable
  | .property f n => f.isWritable && isName n
  | .index f g => f.isWritable && g.isWritable
  | .typeOf f | .not f => f.isWritable
  | .compare _ f g | .and f g | .or f g => f.isWritable && g.isWritable
  | .conditional f g h => f.isWritable && g.isWritable && h.isWritable

theorem exists_prints_of_bare {f : Formula} (h : ∃ t, ∀ k ≤ f.level, Prints k f t) (k : Nat) :
    ∃ t, Prints k f t := by
  obtain ⟨t, ht⟩ := h
  by_cases hk : k ≤ f.level
  · exact ⟨t, ht k hk⟩
  · exact ⟨_, .group (Nat.lt_of_not_le hk) (ht 0 (Nat.zero_le _))⟩

theorem exists_prints_literal {l : Literal} (h : l.isWritable = true) :
    ∃ t, ∀ k ≤ (Formula.literal l).level, Prints k (.literal l) t := by
  cases l with
  | string x =>
    rw [Literal.isWritable, Body.isQuotable, Bool.and_eq_true, Bool.or_eq_true, decide_eq_true_eq,
      decide_eq_true_eq, decide_eq_true_eq] at h
    rcases h.2 with hq | hq
    · exact ⟨_, fun k hk => .string hk (Or.inl rfl) ⟨hq, h.1⟩⟩
    · exact ⟨_, fun k hk => .string hk (Or.inr rfl) ⟨hq, h.1⟩⟩
  | number n => exact ⟨_, fun k hk => .number hk h⟩
  | undefined => exact ⟨_, fun k hk => .word hk rfl⟩
  | null => exact ⟨_, fun k hk => .word hk rfl⟩
  | bool b => cases b <;> exact ⟨_, fun k hk => .word hk rfl⟩
  | type t => exact ⟨_, fun k hk => .word hk rfl⟩

theorem exists_prints {f : Formula} (h : f.isWritable = true) (k : Nat) : ∃ t, Prints k f t := by
  induction f generalizing k with
  | actual | expected => exact exists_prints_of_bare ⟨_, fun k hk => .word hk rfl⟩ k
  | literal l => exact exists_prints_of_bare (exists_prints_literal h) k
  | property f n ih =>
    rw [isWritable, Bool.and_eq_true] at h
    obtain ⟨t, ht⟩ := ih h.1 5
    exact exists_prints_of_bare ⟨_, fun k hk => .property hk ht h.2⟩ k
  | index f g ihf ihg =>
    rw [isWritable, Bool.and_eq_true] at h
    obtain ⟨t, ht⟩ := ihf h.1 5
    obtain ⟨u, hu⟩ := ihg h.2 0
    exact exists_prints_of_bare ⟨_, fun k hk => .index hk ht hu⟩ k
  | typeOf f ih =>
    obtain ⟨t, ht⟩ := ih h 4
    exact exists_prints_of_bare ⟨_, fun k hk => .typeOf hk ht⟩ k
  | not f ih =>
    obtain ⟨t, ht⟩ := ih h 4
    exact exists_prints_of_bare ⟨_, fun k hk => .not hk ht⟩ k
  | compare o f g ihf ihg =>
    rw [isWritable, Bool.and_eq_true] at h
    obtain ⟨t, ht⟩ := ihf h.1 4
    obtain ⟨u, hu⟩ := ihg h.2 4
    exact exists_prints_of_bare ⟨_, fun k hk => .compare hk ht hu blank_nil blank_nil⟩ k
  | and f g ihf ihg =>
    rw [isWritable, Bool.and_eq_true] at h
    obtain ⟨t, ht⟩ := ihf h.1 2
    obtain ⟨u, hu⟩ := ihg h.2 3
    exact exists_prints_of_bare ⟨_, fun k hk => .and hk ht hu blank_nil blank_nil⟩ k
  | or f g ihf ihg =>
    rw [isWritable, Bool.and_eq_true] at h
    obtain ⟨t, ht⟩ := ihf h.1 1
    obtain ⟨u, hu⟩ := ihg h.2 2
    exact exists_prints_of_bare ⟨_, fun k hk => .or hk ht hu blank_nil blank_nil⟩ k
  | conditional f g h' ihf ihg ihh =>
    rw [isWritable, Bool.and_eq_true, Bool.and_eq_true] at h
    obtain ⟨t, ht⟩ := ihf h.1.1 1
    obtain ⟨u, hu⟩ := ihg h.1.2 0
    obtain ⟨v, hv⟩ := ihh h.2 0
    exact exists_prints_of_bare
      ⟨_, fun k hk => .conditional hk ht hu hv blank_nil blank_nil blank_nil blank_nil⟩ k

/-- **Each text of a formula is read as that formula**, whatever spacing stands around its
operators; and a formula whose literals and names can be written has a text. -/
theorem read_prints (f : Formula) (h : f.isWritable = true) :
    (∃ t, Prints 0 f t) ∧ ∀ t, Prints 0 f t → read (String.ofList t) = .ok f := by
  refine ⟨exists_prints h 0, fun t ht => ?_⟩
  have hd : (String.ofList t).toList.dropWhile isSpacing = t ++ [] := by
    rw [String.toList_ofList, ht.solid.dropWhile_spacing, List.append_nil]
  have hs : Ends 0 [] := ⟨nofun, nofun, nofun⟩
  have hread : Takes (readConditional ((String.ofList t).toList.dropWhile isSpacing)) f [] :=
    hd ▸ ht.continues.takes_conditional hs
  obtain ⟨_, hread⟩ := hread
  rw [read, readAll, hread]
  rfl

/-- A number in front of a point, a conjunction to the right of another, a comparison of what a
sign stands before, and spacing here and there. -/
theorem read_prints_nested :
    let f : Formula :=
      .conditional
        (.or (.not (.property (.literal (.number ⟨none, ['5'], none, none⟩)) "a"))
          (.compare .equal (.typeOf .actual) (.literal (.string "it's"))))
        (.and .expected (.and .actual (.literal (.type .array))))
        (.index .actual (.literal (.bool true)))
    let t := "!(5).a || typeof actual==\"it's\"?expected&&(actual  && Array) : actual[true]".toList
    f.isWritable = true ∧ Prints 0 f t ∧ read (String.ofList t) = .ok f := by
  intro f t
  have h : f.isWritable = true := by decide +kernel
  have hn := blank_nil
  have hb : Blank [' '] := by decide
  have hp : Prints 0 f _ :=
    .conditional (by decide)
      (.or (by decide)
        (.not (by decide) (.property (by decide)
          (.group (by decide) (.number (by decide) (by decide +kernel))) (by decide +kernel)))
        (.compare (by decide) (.typeOf (by decide) (.word (by decide) rfl))
          (.string (by decide) (Or.inr rfl) (by decide +kernel)) hn hn) hb hb)
      (.and (by decide) (.word (by decide) rfl)
        (.group (by decide) (.and (by decide) (.word (by decide) rfl) (.word (by decide) rfl)
          (a := [' ', ' ']) (by decide) hb)) hn hn)
      (.index (by decide) (.word (by decide) rfl) (.word (by decide) rfl)) hn hn hb hb
  have ht : Prints 0 f t := cast (congrArg (Prints 0 f) (by decide +kernel)) hp
  exact ⟨h, ht, (read_prints f h).2 t ht⟩

end Formula

end SpecEngine
