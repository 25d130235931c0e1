import SpecEngine.Number.Rounding

/-!
# The shortest decimal of a double

Every real in an interval around a double rounds to it.  Of the decimals in the interval those
with the fewest digits are looked for, on one decimal grid after the other; of two hits on a grid
the nearer is taken, and of two equally near the upper.

* `shortest`: the decimal, as an integer and a power of ten;
* `positional`: its digits written out with a point and without an exponent.
-/

namespace SpecEngine.Double

/-- A decimal, `digits * 10 ^ exponent`. -/
structure Decimal where
  digits : Nat
  exponent : Int
  deriving DecidableEq

/-- The reals that round to a double, in units of a common denominator: the value, the two ends,
and whether the ends belong to it. -/
structure Interval where
  low : Nat
  value : Nat
  high : Nat
  den : Nat
  closed : Bool

/-- The interval of a positive magnitude.  Below a power of two the doubles lie closer. -/
def Interval.ofMagnitude (a : Magnitude) : Interval :=
  let up := Nat.pow 2 (a.exponent - 2).toNat
  let narrow := a.mantissa = Nat.pow 2 52 ∧ leastExponent < a.exponent
  { low := (4 * a.mantissa - if narrow then 1 else 2) * up
    value := 4 * a.mantissa * up
    high := (4 * a.mantissa + 2) * up
    den := Nat.pow 2 (2 - a.exponent).toNat
    closed := a.mantissa % 2 = 0 }

/-- Whether `n / den`, taken with the denominator of the interval, lies in it. -/
def Interval.contains (i : Interval) (n scale step : Nat) : Bool :=
  if i.closed then i.low * scale ≤ n * step && n * step ≤ i.high * scale
  else i.low * scale < n * step && n * step < i.high * scale

/-- The point of the grid of `10 ^ exponent` in the interval that is nearest to the value. -/
def Interval.onGrid (i : Interval) (exponent : Int) : Option Nat :=
  let scale := Nat.pow 10 (-exponent).toNat
  let step := i.den * Nat.pow 10 exponent.toNat
  let below := i.value * scale / step
  match i.contains below scale step, i.contains (below + 1) scale step with
  | true, true =>
    -- both neighbours read back as the value: the nearer one, or the larger one at a tie
    if 2 * (i.value * scale - below * step) < step then some below else some (below + 1)
  | true, false => some below
  | false, true => some (below + 1)
  | false, false => none

/-- The number of zeros between the point and the first digit of a fraction below one. -/
def leadingZeros : Nat → Nat → Nat → Nat
  | 0, _, _ => 0
  | bound + 1, num, den =>
    if den ≤ 10 * num then 0 else leadingZeros bound (10 * num) den + 1

/-- The number of digits before the point, negative for zeros behind it. -/
def Interval.leadingExponent (i : Interval) : Int :=
  if i.den ≤ i.value then (Nat.toDigits 10 (i.value / i.den)).length
  else -(leadingZeros 400 i.value i.den : Int)

/-- A decimal without zeros at the end of its digits. -/
def Decimal.strip : Nat → Decimal → Decimal
  | 0, d => d
  | bound + 1, d =>
    if d.digits % 10 = 0 then strip bound ⟨d.digits / 10, d.exponent + 1⟩ else d

/-- The shortest decimal that rounds to a positive magnitude. -/
def shortest (a : Magnitude) : Decimal :=
  let i := Interval.ofMagnitude a
  let lead := i.leadingExponent
  let found := (List.range 17).findSome? fun n =>
    (i.onGrid (lead - (n + 1 : Nat))).map fun digits =>
      (⟨digits, lead - (n + 1 : Nat)⟩ : Decimal)
  (found.getD ⟨i.value / i.den, 0⟩).strip 20

/-- Digits with a point and without an exponent. -/
def positional (d : Decimal) : List Char :=
  let digits := Nat.toDigits 10 d.digits
  if 0 ≤ d.exponent then digits ++ List.replicate d.exponent.toNat '0'
  else
    let places := (-d.exponent).toNat
    if places < digits.length then
      digits.take (digits.length - places) ++ '.' :: digits.drop (digits.length - places)
    else
      '0' :: '.' :: (List.replicate (places - digits.length) '0' ++ digits)

/-- The shortest text of a finite double without an exponent. -/
def shortestText (x : Float) : String :=
  let digits :=
    if magnitudeBits x = 0 then ['0'] else positional (shortest (magnitude x))
  String.ofList (if isNegative x then '-' :: digits else digits)

end SpecEngine.Double
