import SpecEngine.Text.Parsed

/-!
# Keywords of spec files

The words that give a spec file its structure.  A keyword counts only when a blank, a line break
or the end of the text follows it.
-/

namespace SpecEngine

/-- The bodies that run around the specs of a suite: once, or for each spec. -/
inductive Hook
  | before
  | after
  | beforeEach
  | afterEach
  deriving DecidableEq

namespace Hook

/-- A hook as it is written. -/
def text : Hook → String
  | .before => "before"
  | .after => "after"
  | .beforeEach => "before_each"
  | .afterEach => "after_each"

/-- All hooks. -/
def all : List Hook := [.before, .after, .beforeEach, .afterEach]

/-- The hook that a text is. -/
def ofText? (s : String) : Option Hook :=
  all.find? fun h => h.text = s

@[simp] theorem ofText?_text (h : Hook) : ofText? h.text = some h := by
  cases h <;> decide

end Hook

/-- Keywords. -/
inductive Keyword
  | halt
  | close
  | hook (h : Hook)
  | it
  | describe
  deriving DecidableEq

namespace Keyword

/-- A keyword as it is written. -/
def text : Keyword → String
  | .halt => "__END__"
  | .close => "end"
  | .hook h => h.text
  | .it => "it"
  | .describe => "describe"

/-- All keywords.  One that continues another comes before it. -/
def all : List Keyword :=
  [.halt, .close, .hook .beforeEach, .hook .afterEach, .hook .before, .hook .after, .it, .describe]

/-- The keyword that a text is. -/
def ofText? (s : String) : Option Keyword :=
  all.find? fun k => k.text = s

@[simp] theorem ofText?_text (k : Keyword) : ofText? k.text = some k := by
  cases k with
  | hook h => cases h <;> decide
  | _ => decide

/-- The hook whose body a keyword opens. -/
def hook? : Keyword → Option Hook
  | .hook h => some h
  | _ => none

theorem length_text_pos (k : Keyword) : 0 < k.text.toList.length := by
  cases k with
  | hook h => cases h <;> decide
  | _ => decide

end Keyword

namespace Text

/-- Whether a text starts with a blank or a line break, or is over. -/
def atBoundary : List Char → Bool
  | [] => true
  | c :: _ => c = ' ' || c = '\t' || c = '\r' || c = '\n'

end Text

namespace Keyword

/-- Reads one given keyword. -/
def readAs (k : Keyword) (s : List Char) : Option (Parsed Keyword s.length) :=
  match h : Text.after? k.text.toList s with
  | none => none
  | some t =>
    if Text.atBoundary t then
      some ⟨k, t, by
        have := k.length_text_pos
        rw [Text.eq_append_of_after? h, List.length_append]
        omega⟩
    else none

/-- Reads a keyword. -/
def read (s : List Char) : Option (Parsed Keyword s.length) :=
  all.findSome? fun k => k.readAs s

end Keyword

end SpecEngine
