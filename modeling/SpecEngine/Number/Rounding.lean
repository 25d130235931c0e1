/-!
# Rounding to the nearest double

A nonnegative fraction has a nearest double: the binary place of its last digit is fixed by its
size, and the quotient is rounded there, a tie to the even neighbour.  Magnitudes are handled as
the 63 bits below the sign, which grow with the value.

* `roundEven`: a quotient of natural numbers rounded to the nearest integer;
* `nearestBits`: the bits of the double nearest to a fraction;
* `Magnitude`: the integer and the power of two that the bits of a double stand for.
-/

namespace SpecEngine.Double

/-- The quotient rounded to the nearest integer, a tie to the even one. -/
def roundEven (num den : Nat) : Nat :=
  if 2 * (num % den) < den then num / den
  else if den < 2 * (num % den) then num / den + 1
  else num / den + num / den % 2

/-- The greatest `e` with `2 ^ e ≤ num / den`, for positive `num` and `den`. -/
def binaryExponent (num den : Nat) : Int :=
  let guess : Int := (num.log2 : Int) - den.log2
  if den * Nat.pow 2 guess.toNat ≤ num * Nat.pow 2 (-guess).toNat then guess else guess - 1

/-- The exponent of the last place of the subnormal doubles. -/
def leastExponent : Int := -1074

/-- The bits of infinity. -/
def infinityBits : Nat := 2047 * Nat.pow 2 52

/-- The bits of the double nearest to `num / den`. -/
def nearestBits (num den : Nat) : Nat :=
  if num = 0 then 0
  else
    let place := max (binaryExponent num den - 52) leastExponent
    let mantissa := roundEven (num * Nat.pow 2 (-place).toNat) (den * Nat.pow 2 place.toNat)
    min ((place - leastExponent).toNat * Nat.pow 2 52 + mantissa) infinityBits

/-- The double with the given sign and magnitude bits. -/
def ofMagnitude (negative : Bool) (bits : Nat) : Float :=
  Float.ofBits (UInt64.ofNat (if negative then Nat.pow 2 63 + bits else bits))

/-- A finite magnitude, `mantissa * 2 ^ exponent`. -/
structure Magnitude where
  mantissa : Nat
  exponent : Int

/-- The bits of a double below its sign. -/
def magnitudeBits (x : Float) : Nat := x.toBits.toNat % Nat.pow 2 63

/-- Whether the sign of a double is set. -/
def isNegative (x : Float) : Bool := Nat.pow 2 63 ≤ x.toBits.toNat

/-- What finite magnitude bits stand for. -/
def Magnitude.ofBits (bits : Nat) : Magnitude :=
  if bits < Nat.pow 2 52 then ⟨bits, leastExponent⟩
  else ⟨Nat.pow 2 52 + bits % Nat.pow 2 52, bits / Nat.pow 2 52 - 1 + leastExponent⟩

/-- The magnitude of a finite double. -/
def magnitude (x : Float) : Magnitude := .ofBits (magnitudeBits x)

/-- The integer that a magnitude is, if it is one. -/
def Magnitude.toNat? (a : Magnitude) : Option Nat :=
  if 0 ≤ a.exponent then some (a.mantissa * Nat.pow 2 a.exponent.toNat)
  else
    let unit := Nat.pow 2 (-a.exponent).toNat
    if a.mantissa % unit = 0 then some (a.mantissa / unit) else none

end SpecEngine.Double
