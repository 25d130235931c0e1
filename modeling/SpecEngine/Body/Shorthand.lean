import SpecEngine.Text.Lines
import SpecEngine.Text.Parsed
import SpecEngine.Text.Trim

/-!
# The short form of assertions

An assertion may be written without brackets when its expected value is the rest of the line:
`x.should_eql 3` is `x.should_eql(3)`.  Bodies are brought to the bracketed form before they are
read.  The first short form of a line takes all that follows it on that line.
-/

namespace SpecEngine.Shorthand

/-- A line that begins with a short form, in the bracketed form. -/
def expandHere (s : List Char) : Option (List Char) :=
  match Text.after? ".should_".toList s with
  | none => none
  | some r =>
    let matcher := r.takeWhile Text.isWordChar
    if matcher.isEmpty then none
    else
      match r.dropWhile Text.isWordChar with
      | [] => some (".should_".toList ++ matcher ++ ['(', ')'])
      | ' ' :: value => some (".should_".toList ++ matcher ++ '(' :: (Text.trimEnd value ++ [')']))
      | _ => none

/-- A line with its first short form in the bracketed form. -/
def expandLine : List Char → List Char
  | [] => []
  | c :: s =>
    match expandHere (c :: s) with
    | some t => t
    | none => c :: expandLine s

/-- A body with all assertions in the bracketed form. -/
def expand (s : List Char) : List Char :=
  Text.unlines ((Text.lines (Text.mergeBreaks s)).map expandLine)

@[simp] theorem expandLine_nil : expandLine [] = [] := rfl
@[simp] theorem expand_nil : expand [] = [] := rfl

end SpecEngine.Shorthand
