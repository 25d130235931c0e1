/-!
# Places in a text

A place is named by what lies before it: the number of bytes, the line and the column, lines and
columns from one.  Every character but the line feed makes one column.

* `Text.bytes`: the number of bytes of a text;
* `Place.after`: the place behind a text; `start_after`, `line_after`: a place counts the bytes and
  the line feeds before it.
-/

namespace SpecEngine

/-- The number of bytes of a text. -/
def Text.bytes : List Char → Nat
  | [] => 0
  | c :: s => c.utf8Size + bytes s

@[simp] theorem Text.bytes_nil : bytes [] = 0 := rfl

@[simp] theorem Text.bytes_cons (c : Char) (s : List Char) :
    bytes (c :: s) = c.utf8Size + bytes s := rfl

@[simp] theorem Text.bytes_append (s t : List Char) : bytes (s ++ t) = bytes s + bytes t := by
  induction s with
  | nil => simp
  | cons c s ih => simp [ih, Nat.add_assoc]

/-- A place in a text. -/
structure Place where
  start : Nat
  line : Nat
  column : Nat
  deriving DecidableEq

namespace Place

/-- The beginning of a text. -/
def first : Place := ⟨0, 1, 1⟩

/-- The place behind one more character. -/
def advance (p : Place) (c : Char) : Place :=
  if c = '\n' then ⟨p.start + c.utf8Size, p.line + 1, 1⟩
  else ⟨p.start + c.utf8Size, p.line, p.column + 1⟩

/-- The place behind a text that starts at `p`. -/
def after (p : Place) (s : List Char) : Place :=
  s.foldl advance p

@[simp] theorem after_nil (p : Place) : p.after [] = p := rfl

@[simp] theorem after_cons (p : Place) (c : Char) (s : List Char) :
    p.after (c :: s) = (p.advance c).after s := rfl

@[simp] theorem after_append (p : Place) (s t : List Char) :
    p.after (s ++ t) = (p.after s).after t := by
  simp [after]

theorem start_advance (p : Place) (c : Char) : (p.advance c).start = p.start + c.utf8Size := by
  unfold advance
  split <;> rfl

/-- A place counts the bytes before it. -/
theorem start_after (p : Place) (s : List Char) : (p.after s).start = p.start + Text.bytes s := by
  induction s generalizing p with
  | nil => rfl
  | cons c s ih => rw [after_cons, ih, start_advance, Text.bytes_cons, Nat.add_assoc]

/-- A place counts the line feeds before it. -/
theorem line_after (p : Place) (s : List Char) : (p.after s).line = p.line + s.count '\n' := by
  induction s generalizing p with
  | nil => rfl
  | cons c s ih =>
    rw [after_cons, ih, List.count_cons]
    unfold advance
    by_cases hc : c = '\n'
    · simp [hc]
      omega
    · simp [hc]

/-- How messages name a place. -/
def text (p : Place) : String :=
  s!"line {p.line}, column {p.column}"

end Place

end SpecEngine
