/-!
# Reading from the front of a text

A reader takes something from the front of a list of characters.  What it returns carries the
proof that the text it leaves is short, so that readers which call each other come to an end:

* `Parsed α n`: a value and a rest shorter than `n`.  A reader of `s` that always takes something
  returns a `Parsed α s.length`, one that may take nothing a `Parsed α (s.length + 1)`;
* `Stop`: where a reader gave up, and whether another reading may be tried;
* `length_lt_succ`, `length_lt_trans`, `length_after?_le` and their like: bounds for what is left,
  which readers cite by name;
* `skip`, `sign`, `signAfter`, `after?`, `run`: the small steps of all grammars here.
-/

namespace SpecEngine

/-- What was read, and the text after it, which is shorter than `n`. -/
structure Parsed (α : Type) (n : Nat) where
  value : α
  rest : List Char
  shorter : rest.length < n

namespace Parsed

variable {α β : Type} {m n : Nat}

/-- The same reading of a longer text. -/
def widen (p : Parsed α m) (h : m ≤ n) : Parsed α n :=
  ⟨p.value, p.rest, Nat.lt_of_lt_of_le p.shorter h⟩

/-- The same reading with something made of its value. -/
def map (f : α → β) (p : Parsed α n) : Parsed β n :=
  ⟨f p.value, p.rest, p.shorter⟩

/-- A reading without its bound. -/
def pair (p : Parsed α n) : α × List Char :=
  (p.value, p.rest)

end Parsed

/-- Where a reader gave up.  After a hard stop no other reading is tried. -/
structure Stop where
  rest : List Char
  hard : Bool
  deriving DecidableEq

/-- A stop that lets other readings be tried. -/
def Stop.soft (rest : List Char) : Stop := ⟨rest, false⟩

namespace Text

/-! ### Lengths of what is left -/

theorem length_lt_succ (s : List Char) : s.length < s.length + 1 :=
  Nat.lt_succ_self _

theorem length_lt_add_two (s : List Char) : s.length < s.length + 2 :=
  Nat.lt_add_of_pos_right (by decide)

theorem length_le_succ (s : List Char) : s.length ≤ s.length + 1 :=
  Nat.le_succ _

theorem length_nil_lt_one : ([] : List Char).length < 1 :=
  Nat.lt_succ_self _

theorem length_cons_lt_succ (c : Char) (s : List Char) : (c :: s).length < (c :: s).length + 1 :=
  Nat.lt_succ_self _

section

variable {s t u : List Char}

theorem length_le_of_lt (ht : t.length < s.length) : t.length ≤ s.length :=
  Nat.le_of_lt ht

theorem length_lt_succ_of_lt (ht : t.length < s.length) : t.length < s.length + 1 :=
  Nat.lt_succ_of_lt ht

theorem length_lt_add_two_of_lt (ht : t.length < s.length) : t.length < s.length + 2 :=
  Nat.lt_trans ht (length_lt_add_two s)

theorem length_succ_le_add_two (ht : t.length < s.length + 1) : t.length + 1 ≤ s.length + 2 :=
  Nat.succ_le_succ (Nat.le_of_lt ht)

theorem length_lt_trans (ht : t.length < s.length) (hu : u.length < t.length) :
    u.length < s.length :=
  Nat.lt_trans hu ht

theorem length_succ_le_succ (ht : t.length < s.length) (hu : u.length < t.length) :
    u.length + 1 ≤ s.length + 1 :=
  Nat.succ_le_succ (Nat.le_of_lt (length_lt_trans ht hu))

theorem length_lt_succ_trans (ht : t.length < s.length + 1) (hu : u.length < t.length + 1) :
    u.length < s.length + 1 :=
  Nat.lt_of_lt_of_le hu ht

end

theorem length_dropWhile_le (p : Char → Bool) (s : List Char) :
    (s.dropWhile p).length ≤ s.length := by
  induction s with
  | nil => simp
  | cons c s ih =>
    rw [List.dropWhile_cons]
    split
    · exact Nat.le_succ_of_le ih
    · exact Nat.le_refl _

/-- Leaves out the characters at the front for which `p` holds. -/
def skip (p : Char → Bool) (s : List Char) : Parsed Unit (s.length + 1) :=
  ⟨(), s.dropWhile p, Nat.lt_succ_of_le (length_dropWhile_le p s)⟩

/-- Reads one given character. -/
def sign (c : Char) : (s : List Char) → Option (Parsed Unit s.length)
  | [] => none
  | d :: s => if d = c then some ⟨(), s, length_lt_succ s⟩ else none

/-- Reads one given character behind any number of characters for which `p` holds. -/
def signAfter (p : Char → Bool) (c : Char) (s : List Char) : Option (Parsed Unit s.length) :=
  (sign c (s.dropWhile p)).map (·.widen (length_dropWhile_le p s))

/-- What follows `w` at the front of a text. -/
def after? : (w : List Char) → (s : List Char) → Option (List Char)
  | [], s => some s
  | _ :: _, [] => none
  | c :: w, d :: s => if c = d then after? w s else none

theorem eq_append_of_after? {w s t : List Char} (h : after? w s = some t) : s = w ++ t := by
  induction w generalizing s with
  | nil => simpa [after?] using h
  | cons c w ih =>
    cases s with
    | nil => simp [after?] at h
    | cons d s =>
      simp only [after?] at h
      split at h
      · next hcd => rw [ih h, hcd]; rfl
      · cases h

theorem length_after?_le {w s t : List Char} (h : after? w s = some t) :
    t.length ≤ s.length := by
  rw [eq_append_of_after? h, List.length_append]
  exact Nat.le_add_left _ _

theorem length_after?_lt_succ {w s t : List Char} (h : after? w s = some t) :
    t.length < s.length + 1 :=
  Nat.lt_succ_of_le (length_after?_le h)

theorem length_after?_succ_le {w s t : List Char} (hw : 0 < w.length) (h : after? w s = some t) :
    t.length + 1 ≤ s.length := by
  rw [eq_append_of_after? h, List.length_append, Nat.add_comm]
  exact Nat.add_le_add_right hw _

theorem length_after?_succ_le_succ {w r s t : List Char} (hr : r.length < s.length + 1)
    (h : after? w r = some t) : t.length + 1 ≤ s.length + 1 :=
  Nat.le_trans (Nat.succ_le_succ (length_after?_le h)) hr

@[simp] theorem after?_append (w t : List Char) : after? w (w ++ t) = some t := by
  induction w with
  | nil => rfl
  | cons c w ih => simp [after?, ih]

/-- Reads the nonempty run of characters for which `p` holds. -/
def run (p : Char → Bool) : (s : List Char) → Option (Parsed (List Char) s.length)
  | [] => none
  | c :: s =>
    if p c then
      some ⟨c :: s.takeWhile p, s.dropWhile p, by
        have := length_dropWhile_le p s; simp only [List.length_cons]; omega⟩
    else none

end Text

end SpecEngine
