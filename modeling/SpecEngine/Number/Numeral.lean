import SpecEngine.Text.Parsed
import SpecEngine.Number.Rounding

/-!
# Decimal numerals

A numeral as it is written: a sign, digits, digits behind a point, and an exponent.  It keeps its
own text, and stands for the double nearest to its value.

* `Numeral.read`: the numerals of spec bodies, `-?d+(.d+)?([eE][+-]?d+)?`;
* `Numeral.recognize`: the numerals of matcher formulas, which may carry a plus and may have
  digits on one side of the point only; once the mark of an exponent is there, its digits must be;
* `readDouble`: a whole text as a number, infinities and NaN by name.
-/

namespace SpecEngine

/-- The exponent of a numeral: its mark, its sign and its digits. -/
structure Exponent where
  mark : Char
  sign : Option Char
  digits : List Char
  deriving DecidableEq

/-- A decimal numeral. -/
structure Numeral where
  sign : Option Char
  whole : List Char
  fraction : Option (List Char)
  exponent : Option Exponent
  deriving DecidableEq

/-- An exponent as it is written. -/
def Exponent.text (e : Exponent) : List Char :=
  e.mark :: (e.sign.toList ++ e.digits)

namespace Numeral

/-- The text of a numeral. -/
def text (n : Numeral) : List Char :=
  n.sign.toList ++ n.whole ++ (n.fraction.elim [] ('.' :: ·)) ++ (n.exponent.elim [] Exponent.text)

/-- The number that decimal digits stand for. -/
def natOfDigits (digits : List Char) : Nat :=
  digits.foldl (fun n c => 10 * n + (c.toNat - '0'.toNat)) 0

end Numeral

/-- The power of ten that an exponent names. -/
def Exponent.value (e : Exponent) : Int :=
  if e.sign = some '-' then -(Numeral.natOfDigits e.digits : Int)
  else Numeral.natOfDigits e.digits

namespace Numeral

/-- The bits of the double nearest to `n * 10 ^ e`.  Beyond the exponents tested first every
positive value is infinite, or nothing. -/
def decimalBits (n : Nat) (places : Nat) (e : Int) : Nat :=
  if n = 0 then 0
  else if 400 < e then Double.infinityBits
  else if e + places < -400 then 0
  else Double.nearestBits (n * Nat.pow 10 e.toNat) (Nat.pow 10 (-e).toNat)

/-- The double nearest to the value of a numeral. -/
def toFloat (n : Numeral) : Float :=
  let fraction := n.fraction.getD []
  let digits := n.whole ++ fraction
  let exponent := n.exponent.elim 0 Exponent.value - fraction.length
  Double.ofMagnitude (n.sign = some '-') (decimalBits (natOfDigits digits) digits.length exponent)

/-! ### Reading -/

/-- Reads digits, at least one. -/
def digits (s : List Char) : Option (Parsed (List Char) s.length) :=
  Text.run Char.isDigit s

/-- A sign that `p` admits, if there is one. -/
def readSign (p : Char → Bool) : (s : List Char) → Parsed (Option Char) (s.length + 1)
  | [] => ⟨none, [], Text.length_nil_lt_one⟩
  | c :: s =>
    if p c then ⟨some c, s, Text.length_lt_add_two s⟩
    else ⟨none, c :: s, Text.length_cons_lt_succ c s⟩

/-- Plus and minus. -/
def isSign (c : Char) : Bool := c = '+' || c = '-'

/-- The mark of an exponent and the sign behind it, if there is one. -/
def readMark : (s : List Char) → Option (Parsed (Char × Option Char) s.length)
  | [] => none
  | c :: s =>
    if c = 'e' || c = 'E' then
      some ((readSign isSign s).map fun sign => (c, sign))
    else none

/-- An exponent, if a whole one is there. -/
def readExponent (s : List Char) : Parsed (Option Exponent) (s.length + 1) :=
  match readMark s with
  | none => ⟨none, s, Text.length_lt_succ s⟩
  | some ⟨(mark, sign), r, h⟩ =>
    match digits r with
    | none => ⟨none, s, Text.length_lt_succ s⟩
    | some ⟨ds, t, h'⟩ =>
      ⟨some ⟨mark, sign, ds⟩, t, Text.length_lt_succ_of_lt (Text.length_lt_trans h h')⟩

/-- A point with digits behind it, if both are there. -/
def readFraction : (s : List Char) → Parsed (Option (List Char)) (s.length + 1)
  | '.' :: s =>
    match digits s with
    | some ⟨ds, t, h⟩ => ⟨some ds, t, Text.length_lt_add_two_of_lt h⟩
    | none => ⟨none, '.' :: s, by simp⟩
  | s => ⟨none, s, Text.length_lt_succ s⟩

/-- Reads a numeral of a spec body. -/
def read (s : List Char) : Option (Parsed Numeral s.length) :=
  let ⟨sign, r, h⟩ := readSign (· = '-') s
  match digits r with
  | none => none
  | some ⟨whole, r₁, h₁⟩ =>
    let ⟨fraction, r₂, h₂⟩ := readFraction r₁
    let ⟨exponent, r₃, h₃⟩ := readExponent r₂
    some ⟨⟨sign, whole, fraction, exponent⟩, r₃, by omega⟩

/-- Digits with or without a point and digits behind it, or a point and digits. -/
def readMantissa (s : List Char) :
    Option (Parsed (List Char × Option (List Char)) s.length) :=
  match digits s with
  | some ⟨whole, r, h⟩ =>
    match r with
    | '.' :: t =>
      some ⟨(whole, some (t.takeWhile Char.isDigit)), t.dropWhile Char.isDigit, by
        have := Text.length_dropWhile_le Char.isDigit t
        simp only [List.length_cons] at h
        omega⟩
    | r => some ⟨(whole, none), r, h⟩
  | none =>
    match s with
    | '.' :: t =>
      match digits t with
      | some ⟨ds, r, h⟩ => some ⟨([], some ds), r, by simp only [List.length_cons]; omega⟩
      | none => none
    | _ => none

/-- Reads a numeral of a matcher formula. -/
def recognize (s : List Char) : Except Stop (Parsed Numeral s.length) :=
  let ⟨sign, r, h⟩ := readSign isSign s
  match readMantissa r with
  | none => .error ⟨s, false⟩
  | some ⟨(whole, fraction), r₁, h₁⟩ =>
    match readMark r₁ with
    | none => .ok ⟨⟨sign, whole, fraction, none⟩, r₁, by omega⟩
    | some ⟨(mark, esign), r₂, h₂⟩ =>
      match digits r₂ with
      | none => .error ⟨r₂, true⟩
      | some ⟨ds, r₃, h₃⟩ =>
        .ok ⟨⟨sign, whole, fraction, some ⟨mark, esign, ds⟩⟩, r₃, by omega⟩

end Numeral

/-- The magnitude that a name stands for, in any case. -/
def Numeral.namedBits (name : List Char) : Option Nat :=
  match String.ofList (name.map Char.toLower) with
  | "inf" | "infinity" => some Double.infinityBits
  | "nan" => some (Double.infinityBits + Nat.pow 2 51)
  | _ => none

/-- The number that a whole text stands for. -/
def readDouble (s : List Char) : Option Float :=
  match Numeral.recognize s with
  | .ok ⟨n, [], _⟩ => some n.toFloat
  | _ =>
    let ⟨sign, r, _⟩ := Numeral.readSign Numeral.isSign s
    (Numeral.namedBits r).map (Double.ofMagnitude (sign = some '-'))

end SpecEngine
