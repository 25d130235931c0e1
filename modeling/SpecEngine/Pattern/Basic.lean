import SpecEngine.Pattern.CharSet

/-!
# Patterns

A pattern says which pieces of a text it fits.  Matching keeps a mark for each place between the
characters of the text: from the places where a piece may start, `Pattern.step` finds all places
where it may end.  A text matches when the pattern fits a piece of it, wherever that is.

* `Look`: what only looks at the characters on the two sides of a place;
* `Pattern`, `Pattern.step`, `Pattern.occursIn`.
-/

namespace SpecEngine

namespace Pattern

/-- What can be asked of a place: its ends of text, line and word.  Lines end at line feeds, or at
any break made of carriage returns and line feeds. -/
inductive Look
  | textStart
  | textEnd
  | lineStart (breaks : Bool)
  | lineEnd (breaks : Bool)
  | wordBoundary (isWord : Char → Bool)
  | noWordBoundary (isWord : Char → Bool)
  | wordStart (isWord : Char → Bool)
  | wordEnd (isWord : Char → Bool)
  | noWordBefore (isWord : Char → Bool)
  | noWordAfter (isWord : Char → Bool)

/-- Whether a place has what is asked of it, given the characters around it. -/
def Look.holds (before after : Option Char) : Look → Bool
  | .textStart => before.isNone
  | .textEnd => after.isNone
  | .lineStart false => before.isNone || before = some '\n'
  | .lineStart true =>
    before.isNone || before = some '\n' || (before = some '\r' && after ≠ some '\n')
  | .lineEnd false => after.isNone || after = some '\n'
  | .lineEnd true =>
    after.isNone || after = some '\r' || (after = some '\n' && before ≠ some '\r')
  | .wordBoundary isWord => before.any isWord != after.any isWord
  | .noWordBoundary isWord => before.any isWord == after.any isWord
  | .wordStart isWord => !before.any isWord && after.any isWord
  | .wordEnd isWord => before.any isWord && !after.any isWord
  | .noWordBefore isWord => !before.any isWord
  | .noWordAfter isWord => !after.any isWord

end Pattern

/-- Patterns. -/
inductive Pattern
  | empty
  | one (s : Pattern.CharSet)
  | look (l : Pattern.Look)
  | seq (a b : Pattern)
  | alt (a b : Pattern)
  | times (a : Pattern) (least : Nat) (most : Option Nat)

namespace Pattern

/-- A mark for each place of a text, set for the places of interest. -/
abbrev Marks := List Bool

/-- The places behind a character of `s` that stands at a marked place, but for the first place. -/
def advance (s : CharSet) : List Char → Marks → Marks
  | c :: text, m :: marks => (m && s.contains c) :: advance s text marks
  | _, _ => []

/-- The marked places that have what is asked of them. -/
def keep (l : Look) (before : Option Char) : List Char → Marks → Marks
  | _, [] => []
  | [], m :: _ => [m && l.holds before none]
  | c :: text, m :: marks => (m && l.holds before (some c)) :: keep l (some c) text marks

/-- Applies a step a number of times, as long as a place is left. -/
def repeated (step : Marks → Marks) : Nat → Marks → Marks
  | 0, marks => marks
  | n + 1, marks => if marks.any id then repeated step n (step marks) else marks

/-- The places reached by at most a number of steps. -/
def spread (step : Marks → Marks) : Nat → Marks → Marks
  | 0, marks => marks
  | n + 1, marks =>
    let wider := List.zipWith or marks (step marks)
    if wider = marks then marks else spread step n wider

/-- The places where pieces that start at marked places may end.  Without an upper bound, more
repetitions than there are characters reach no new place. -/
def step (text : List Char) : Pattern → Marks → Marks
  | .empty, marks => marks
  | .one s, marks => false :: advance s text marks
  | .look l, marks => keep l none text marks
  | .seq a b, marks => b.step text (a.step text marks)
  | .alt a b, marks => List.zipWith or (a.step text marks) (b.step text marks)
  | .times a least most, marks =>
    spread (a.step text) ((most.map (· - least)).getD (text.length + 1))
      (repeated (a.step text) least marks)

/-- Whether a pattern fits a piece of a text. -/
def occursIn (p : Pattern) (text : List Char) : Bool :=
  (p.step text (List.replicate (text.length + 1) true)).any id

/-! ### Size -/

/-- Whether a pattern fits the empty text only. -/
def isWidthless : Pattern → Bool
  | .empty | .look _ => true
  | .one _ => false
  | .seq a b | .alt a b => a.isWidthless && b.isWidthless
  | .times a _ most => a.isWidthless || most = some 0

/-- How many steps it takes to write a pattern out without counts. -/
def weight : Pattern → Nat
  | .empty | .look _ => 1
  | .one _ => 1
  | .seq a b => a.weight + b.weight
  | .alt a b => a.weight + b.weight + 1
  | .times a least most =>
    if a.isWidthless then a.weight + 1
    else a.weight * max least (most.getD (least + 1)) + ((most.map (· - least)).getD 1)

end Pattern

end SpecEngine
