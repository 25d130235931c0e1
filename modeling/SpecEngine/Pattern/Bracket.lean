import SpecEngine.Pattern.Escape

/-!
# Sets between brackets

Between square brackets stand characters, ranges, escapes, classes by name and further brackets;
`^` at the front means all other characters.  `&&`, `--` and `~~` combine what stands before them
with what stands behind them, from left to right.
-/

namespace SpecEngine.Pattern

/-- Reads a character, or an escape. -/
def readMember (o : Modes) : (s : List Char) → Option (Parsed Escape s.length)
  | [] => none
  | c :: s =>
    if c = '\\' then (readEscape o s).map (·.widen (Text.length_le_succ _))
    else some ⟨.char c, s, Text.length_lt_succ _⟩

/-- The set of a member by itself. -/
def Escape.set? (o : Modes) : Escape → Option CharSet
  | .char c => if !o.unicode && 0x80 ≤ c.toNat then none else some (.one c)
  | .set s => some s
  | .look _ => none

/-- The range between two members. -/
def Escape.rangeTo? (o : Modes) : Escape → Escape → Option CharSet
  | .char c, .char d =>
    if c ≤ d && (o.unicode || d.toNat < 0x80) then some (.range c d) else none
  | _, _ => none

/-- Whether a text goes on with the second half of a range: a hyphen that neither the closing
bracket nor another hyphen follows. -/
def startsRange (o : Modes) : List Char → Bool
  | '-' :: s =>
    match (o.skip s).rest with
    | ']' :: _ | '-' :: _ => false
    | _ => true
  | _ => false

/-- Reads a member, or a range. -/
def readRange (o : Modes) (s : List Char) : Option (Parsed CharSet s.length) :=
  match readMember o s with
  | none => none
  | some ⟨a, r, h⟩ =>
    let ⟨_, r₁, h₁⟩ := o.skip r
    if startsRange o r₁ then
      match readMember o (o.skip r₁.tail).rest with
      | none => none
      | some ⟨b, r₂, h₂⟩ =>
        (a.rangeTo? o b).map fun set => ⟨set, r₂, by
          have := (o.skip r₁.tail).shorter
          have := List.length_tail (l := r₁)
          omega⟩
    else (a.set? o).map fun set => ⟨set, r₁, by omega⟩

/-- Reads a class by name, behind its opening bracket. -/
def readClassName (o : Modes) (s : List Char) : Option (Parsed CharSet (s.length + 1)) :=
  match s with
  | ':' :: r =>
    let negate : Bool := r.head? == some '^'
    let r' := if negate then r.tail else r
    match hd : r'.dropWhile (· ≠ ':') with
    | ':' :: ']' :: t =>
      (CharSet.ofClassName? (String.ofList (r'.takeWhile (· ≠ ':')))).map fun set =>
        ⟨.complIf negate (o.fold set), t, by
          have h₁ := Text.length_dropWhile_le (· ≠ ':') r'
          have h₂ : r'.length ≤ r.length := by
            have := List.length_tail (l := r)
            by_cases hn : negate <;> simp [r', hn]
          rw [hd] at h₁
          simp only [List.length_cons] at h₁ ⊢
          omega⟩
    | _ => none
  | _ => none

/-- How the two sides of an operator are combined. -/
inductive SetOperator
  | inter
  | diff
  | symDiff

/-- The set that an operator makes of two. -/
def SetOperator.apply : SetOperator → CharSet → CharSet → CharSet
  | .inter => .inter
  | .diff => .diff
  | .symDiff => .symDiff

/-- What was read between brackets: the left side of an operator, if there is one, and the members
read since. -/
structure Members where
  left : Option (CharSet × SetOperator) := none
  members : CharSet := .empty

namespace Members

/-- Adds a set to the members. -/
def add (m : Members) (s : CharSet) : Members :=
  { m with members := .union m.members s }

/-- All of it as one set. -/
def close (o : Modes) (m : Members) : CharSet :=
  match m.left with
  | none => m.members
  | some (left, op) => op.apply (o.fold left) (o.fold m.members)

/-- All of it becomes the left side of an operator. -/
def operate (o : Modes) (m : Members) (op : SetOperator) : Members :=
  { left := some (m.close o, op) }

end Members

/-- Reads an operator. -/
def readSetOperator : (s : List Char) → Option (Parsed SetOperator s.length)
  | '&' :: '&' :: s => some ⟨.inter, s, Text.length_lt_add_two s⟩
  | '-' :: '-' :: s => some ⟨.diff, s, Text.length_lt_add_two s⟩
  | '~' :: '~' :: s => some ⟨.symDiff, s, Text.length_lt_add_two s⟩
  | _ => none

/-- Reads hyphens at the front, which stand for themselves. -/
def readHyphens (o : Modes) (m : Members) (s : List Char) : Parsed Members (s.length + 1) :=
  match s with
  | '-' :: s =>
    let ⟨_, r, h⟩ := o.skip s
    (readHyphens o (m.add (.one '-')) r).widen (by simp only [List.length_cons]; omega)
  | s => ⟨m, s, Text.length_lt_succ _⟩
termination_by s.length
decreasing_by simp only [List.length_cons]; omega

/-- Reads what may stand at the front of a bracket: `^`, hyphens, or a closing bracket that stands
for itself. -/
def readFront (o : Modes) (s : List Char) : Parsed (Bool × Members) (s.length + 1) :=
  let ⟨_, r, h⟩ := o.skip s
  let negate : Bool := r.head? == some '^'
  let ⟨_, r₁, h₁⟩ := o.skip (if negate then r.tail else r)
  have h₂ : r₁.length < s.length + 1 := by
    have := List.length_tail (l := r)
    by_cases hn : negate <;> simp [hn] at h₁ <;> omega
  match r₁ with
  | ']' :: t =>
    ⟨(negate, { members := .one ']' }), (o.skip t).rest, by
      have := (o.skip t).shorter; simp at h₂; omega⟩
  | r₁ => ((readHyphens o {} r₁).map (negate, ·)).widen h₂

mutual

/-- Reads what stands between brackets, behind the opening one. -/
def readBracket (o : Modes) (s : List Char) : Option (Parsed CharSet s.length) :=
  let ⟨(negate, m), r, h⟩ := readFront o s
  match readMembers o m r with
  | none => none
  | some p => some ((p.map fun m => .complIf negate (o.fold (m.close o))).widen (by omega))
termination_by 2 * s.length + 1

/-- Reads members up to the closing bracket. -/
def readMembers (o : Modes) (m : Members) (s : List Char) : Option (Parsed Members s.length) :=
  let ⟨_, r, h⟩ := o.skip s
  match Text.sign ']' r with
  | some ⟨_, t, ht⟩ => some ⟨m, t, by omega⟩
  | none =>
    match Text.sign '[' r with
    | some ⟨_, r₁, h₁⟩ =>
      -- a bracket inside brackets is a class by name if it can be one
      match readClassName o r₁ with
      | some ⟨set, t, ht⟩ => (readMembers o (m.add set) t).map (·.widen (by omega))
      | none =>
        match readBracket o r₁ with
        | none => none
        | some ⟨set, t, ht⟩ => (readMembers o (m.add set) t).map (·.widen (by omega))
    | none =>
      match readSetOperator r with
      | some ⟨op, t, ht⟩ => (readMembers o (m.operate o op) t).map (·.widen (by omega))
      | none =>
        match readRange o r with
        | none => none
        | some ⟨set, t, ht⟩ => (readMembers o (m.add set) t).map (·.widen (by omega))
termination_by 2 * s.length

end

end SpecEngine.Pattern
