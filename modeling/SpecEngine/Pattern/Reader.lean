import SpecEngine.Pattern.Bracket

/-!
# Reading patterns

The text of a pattern: characters, sets, questions to places, groups, alternatives between bars,
and repetitions.  There is no looking ahead or behind beyond one character, and nothing refers back
to what a group fitted.

* `readSequence`: a pattern from the front of a text, up to a closing bracket or the end;
* `Pattern.read`: a whole text.  What is no pattern, or would be too large written out, is none.
-/

namespace SpecEngine.Pattern

/-! ### Repetition -/

/-- A repetition.  What fits the empty text only is not worth repeating. -/
def repeat? (last : Option Pattern) (least : Nat) (most : Option Nat) : Option Pattern :=
  last.map fun a =>
    if a.isWidthless then .times a (min least 1) (some ((most.map (min 1)).getD 1))
    else .times a least most

/-- The text behind a question mark that asks for few repetitions rather than many; whether a text
matches does not hang on it. -/
def skipLazy (s : List Char) : Parsed Unit (s.length + 1) :=
  match s with
  | '?' :: r => ⟨(), r, Text.length_lt_add_two r⟩
  | s => ⟨(), s, Text.length_lt_succ _⟩

/-- Reads how often `?`, `*` and `+` repeat. -/
def readSign (s : List Char) : Option (Parsed (Nat × Option Nat) s.length) :=
  match s with
  | '?' :: r => some ((skipLazy r).map fun _ => (0, some 1))
  | '*' :: r => some ((skipLazy r).map fun _ => (0, none))
  | '+' :: r => some ((skipLazy r).map fun _ => (1, none))
  | _ => none

/-- Reads digits; a mode may allow spacing between them. -/
def readDigits (o : Modes) (s : List Char) : Parsed (List Char) (s.length + 1) :=
  match s with
  | [] => ⟨[], [], Text.length_nil_lt_one⟩
  | c :: r =>
    if c.isDigit then
      let ⟨_, r₁, h₁⟩ := o.skip r
      ((readDigits o r₁).map (c :: ·)).widen (Text.length_succ_le_add_two h₁)
    else ⟨[], c :: r, Text.length_cons_lt_succ c r⟩
termination_by s.length
decreasing_by simp only [List.length_cons]; omega

/-- Reads a count, around which there may be blanks.  It may be missing, and must be below
2 ^ 32. -/
def readCount (o : Modes) (s : List Char) : Option (Parsed (Option Nat) (s.length + 1)) :=
  let ⟨_, r, h⟩ := Text.skip Text.isBlank s
  let ⟨ds, r₁, h₁⟩ := readDigits o r
  let ⟨_, r₂, h₂⟩ := Text.skip Text.isBlank r₁
  let ⟨_, r₃, h₃⟩ := o.skip r₂
  let n := ds.foldl (fun n c => 10 * n + (c.toNat - '0'.toNat)) 0
  if n < Nat.pow 2 32 then some ⟨if ds.isEmpty then none else some n, r₃, by omega⟩ else none

/-- Reads the counts of a repetition, behind the opening brace. -/
def readCounts (o : Modes) (s : List Char) : Option (Parsed (Nat × Option Nat) (s.length + 1)) :=
  let ⟨_, r, h⟩ := o.skip s
  match readCount o r with
  | some ⟨some least, r₁, h₁⟩ =>
    match Text.sign '\x7d' r₁ with
    | some ⟨_, t, ht⟩ =>
      some ⟨(least, some least), t, Text.length_lt_succ_trans h
        (Text.length_lt_succ_trans h₁ (Text.length_lt_succ_of_lt ht))⟩
    | none =>
      match Text.sign ',' r₁ with
      | none => none
      | some ⟨_, r₂, h₂⟩ =>
        let ⟨_, r₃, h₃⟩ := o.skip r₂
        have hr : r₃.length < s.length + 1 := Text.length_lt_succ_trans h
          (Text.length_lt_succ_trans h₁
            (Text.length_lt_succ_trans (Text.length_lt_succ_of_lt h₂) h₃))
        match Text.sign '\x7d' r₃ with
        | some ⟨_, t, ht⟩ =>
          some ⟨(least, none), t, Text.length_lt_succ_trans hr (Text.length_lt_succ_of_lt ht)⟩
        | none =>
          match readCount o r₃ with
          | some ⟨some most, r₄, h₄⟩ =>
            match Text.sign '\x7d' r₄ with
            | some ⟨_, t, ht⟩ =>
              if least ≤ most then
                some ⟨(least, some most), t, Text.length_lt_succ_trans
                  (Text.length_lt_succ_trans hr h₄) (Text.length_lt_succ_of_lt ht)⟩
              else none
            | none => none
          | _ => none
  | _ => none

/-- Reads how often what stands before is repeated. -/
def readRepetition (o : Modes) (s : List Char) : Option (Parsed (Nat × Option Nat) s.length) :=
  match Text.sign '\x7b' s with
  | some ⟨_, r, h⟩ =>
    match readCounts o r with
    | none => none
    | some ⟨n, r₁, h₁⟩ =>
      let ⟨_, r₂, h₂⟩ := o.skip r₁
      some (((skipLazy r₂).map fun _ => n).widen (by omega))
  | none => readSign s

/-! ### Groups -/

/-- The characters with which the name of a group begins. -/
def isNameStart (c : Char) : Bool := c = '_' || Text.isAlphabetic c

/-- The characters with which the name of a group goes on. -/
def isNameChar (c : Char) : Bool :=
  c = '_' || c = '.' || c = '[' || c = ']' || Text.isAlphanumeric c

/-- Reads the name of a group and the bracket behind it. -/
def readGroupName (s : List Char) : Option (Parsed (List Char) (s.length + 1)) :=
  match h : s.dropWhile (· ≠ '>') with
  | [] => none
  | _ :: t =>
    match s.takeWhile (· ≠ '>') with
    | [] => none
    | c :: name =>
      if isNameStart c && name.all isNameChar then
        some ⟨c :: name, t, by
          have := Text.length_dropWhile_le (· ≠ '>') s
          rw [h] at this; simp at this; omega⟩
      else none

/-- Modes with one of them switched. -/
def Modes.switch? (o : Modes) (on : Bool) (c : Char) : Option Modes :=
  match c with
  | 'i' => some { o with caseless := on }
  | 'm' => some { o with lines := on }
  | 's' => some { o with dotAll := on }
  | 'R' => some { o with breaks := on }
  | 'u' => some { o with unicode := on }
  | 'x' => some { o with spaced := on }
  | 'U' => some o
  | _ => none

/-- Reads letters of modes up to a colon or a closing bracket; a hyphen switches off what follows
it.  No letter, and no hyphen, stands there twice. -/
def readModes (o : Modes) (seen : List Char) :
    (s : List Char) → Option (Parsed Modes (s.length + 1))
  | [] => none
  | c :: s =>
    if c = ':' || c = ')' then
      if seen.head? = some '-' then none else some ⟨o, c :: s, Text.length_lt_succ _⟩
    else if c ∈ seen then none
    else
      match if c = '-' then some o else o.switch? (!seen.contains '-') c with
      | some o =>
        (readModes o (c :: seen) s).map (·.widen (Nat.succ_le_succ (Text.length_le_succ s)))
      | none => none

/-- What an opening bracket begins: a switch of modes up to the end of the group around it, or a
group, with a name or without one. -/
inductive Opening
  | switch (o : Modes)
  | group (o : Modes) (name : Option (List Char))

/-- Reads the beginning of a group behind its name mark. -/
def readNamed (o : Modes) (s : List Char) : Option (Parsed Opening (s.length + 1)) :=
  (readGroupName s).map (·.map fun name => .group o (some name))

/-- Reads what belongs to an opening bracket. -/
def readGroupOpening (o : Modes) (s : List Char) : Option (Parsed Opening (s.length + 1)) :=
  let ⟨_, r, h⟩ := o.skip s
  match r with
  | '?' :: 'P' :: '<' :: t => (readNamed o t).map (·.widen (by simp at h; omega))
  | '?' :: '<' :: c :: t =>
    if c = '=' || c = '!' then none
    else (readNamed o (c :: t)).map (·.widen (by simp at h ⊢; omega))
  | '?' :: t =>
    match readModes o [] t with
    | some ⟨o', ':' :: t', ht⟩ => some ⟨.group o' none, t', by simp at h ht; omega⟩
    | some ⟨o', ')' :: t', ht⟩ =>
      if t.head? = some ')' then none else some ⟨.switch o', t', by simp at h ht; omega⟩
    | _ => none
  | r => some ⟨.group o none, r, h⟩

/-! ### Single places -/

/-- A set as a pattern.  Where only basic characters are understood, it must hold no others. -/
def ofSet? (o : Modes) (s : CharSet) : Option Pattern :=
  if o.unicode || s.isBasic then some (.one s) else none

/-- What an escape stands for. -/
def Escape.pattern? (o : Modes) : Escape → Option Pattern
  | .char c => some (.one (if o.unicode || c.toNat < 0x80 then o.fold (.one c) else .one c))
  | .set s => ofSet? o s
  | .look l => some (.look l)

/-- The characters that a point fits. -/
def Modes.dot (o : Modes) : CharSet :=
  if o.dotAll then .any
  else if o.breaks then .compl (.union (.one '\r') (.one '\n'))
  else .compl (.one '\n')

/-- Reads a bracket, or one character with what belongs to it. -/
def readPlace (o : Modes) : (s : List Char) → Option (Parsed Pattern s.length)
  | [] => none
  | c :: s =>
    if c = '[' then
      match readBracket o s with
      | some p => (ofSet? o p.value).map fun a => (p.map fun _ => a).widen (Text.length_le_succ _)
      | none => none
    else if c = '\\' then
      match readEscape o s with
      | some p => (p.value.pattern? o).map fun a => (p.map fun _ => a).widen (Text.length_le_succ _)
      | none => none
    else
      let found : Option Pattern :=
        if c = '.' then ofSet? o o.dot
        else if c = '^' then some (.look (if o.lines then .lineStart o.breaks else .textStart))
        else if c = '$' then some (.look (if o.lines then .lineEnd o.breaks else .textEnd))
        else (Escape.char c).pattern? o
      found.map fun a => ⟨a, s, Text.length_lt_succ _⟩

/-! ### Sequences -/

/-- What was read of a group: the alternatives that are complete, the places of the last one, the
last place by itself if it can be repeated, and the names of groups. -/
structure Draft where
  alternatives : Option Pattern := none
  places : Pattern := .empty
  last : Option Pattern := none
  names : List (List Char) := []

namespace Draft

/-- The places of the last alternative. -/
def branch (d : Draft) : Pattern :=
  d.last.elim d.places (.seq d.places)

/-- The alternatives, with the one that is read as the last of them. -/
def close (d : Draft) : Pattern :=
  d.alternatives.elim d.branch (.alt · d.branch)

/-- Adds a place, which may be repeated. -/
def push (d : Draft) (a : Pattern) : Draft :=
  { d with places := d.branch, last := some a }

/-- Behind a switch of modes there is nothing to repeat. -/
def settle (d : Draft) : Draft :=
  { d with places := d.branch, last := none }

/-- Behind a bar another alternative begins. -/
def bar (d : Draft) : Draft :=
  { d with alternatives := some d.close, places := .empty, last := none }

end Draft

/-- Reads a pattern up to a closing bracket or the end. -/
def readSequence (o : Modes) (d : Draft) (s : List Char) :
    Option (Parsed (Pattern × List (List Char)) (s.length + 1)) :=
  let ⟨_, r, h⟩ := o.skip s
  if r.isEmpty || r.head? = some ')' then some ⟨(d.close, d.names), r, h⟩
  else
    match Text.sign '|' r with
    | some ⟨_, t, ht⟩ => (readSequence o d.bar t).map (·.widen (by omega))
    | none =>
      match Text.sign '(' r with
      | some ⟨_, r₁, h₁⟩ =>
        match readGroupOpening o r₁ with
        | none => none
        | some ⟨.switch o', t, ht⟩ => (readSequence o' d.settle t).map (·.widen (by omega))
        | some ⟨.group o' name, r₂, h₂⟩ =>
          if name.any d.names.contains then none
          else
            match readSequence o' { names := name.toList ++ d.names } r₂ with
            | none => none
            | some ⟨(a, names), r₃, h₃⟩ =>
              match Text.sign ')' r₃ with
              | none => none
              | some ⟨_, t, ht⟩ =>
                (readSequence o { d.push a with names } t).map (·.widen (by omega))
      | none =>
        match readRepetition o r with
        | some ⟨(least, most), t, ht⟩ =>
          match repeat? d.last least most with
          | some a => (readSequence o { d with last := some a } t).map (·.widen (by omega))
          | none => none
        | none =>
          -- an opening brace without counts behind it is no character
          if r.head? = some '\x7b' then none
          else
            match readPlace o r with
            | some ⟨a, t, ht⟩ => (readSequence o (d.push a) t).map (·.widen (by omega))
            | none => none
termination_by s.length

/-- The greatest number of steps of a pattern that is written out. -/
def weightLimit : Nat := 327680

/-- The pattern that a text is. -/
def read (s : List Char) : Option Pattern :=
  match readSequence {} {} s with
  | some ⟨(a, _), [], _⟩ => if a.weight ≤ weightLimit then some a else none
  | _ => none

/-- Whether a text matches a pattern given as text.  What is no pattern matches nothing. -/
def matchesText (pattern text : List Char) : Bool :=
  match read pattern with
  | some a => a.occursIn text
  | none => false

end SpecEngine.Pattern
