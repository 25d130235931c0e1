import SpecEngine.Number.Shortest

/-!
# Numbers as texts

Two ways of writing a double:

* `displayText` is what bodies and messages show: both zeros are `0`, an integer below `10 ^ 21`
  is written with all its digits, every other number with its fewest digits;
* `exactText` tells all doubles but the NaNs apart: it shows the sign of zero.
-/

namespace SpecEngine.Double

/-- Whether a number is a NaN. -/
def isNaN (x : Float) : Bool := infinityBits < magnitudeBits x

/-- Whether a number is infinite, of either sign. -/
def isInfinite (x : Float) : Bool := magnitudeBits x = infinityBits

/-- The NaN that missing numbers are. -/
def nan : Float := ofMagnitude false (infinityBits + Nat.pow 2 51)

/-- What bodies and messages show of a number. -/
def displayText (x : Float) : String :=
  let sign := if isNegative x then "-" else ""
  if isNaN x then "NaN"
  else if isInfinite x then sign ++ "Infinity"
  else if magnitudeBits x = 0 then "0"
  else
    match (magnitude x).toNat? with
    | some n => if n < Nat.pow 10 21 then sign ++ toString n else shortestText x
    | none => shortestText x

/-- A number with its sign and its fewest digits. -/
def exactText (x : Float) : String :=
  if isNaN x then "NaN"
  else if isInfinite x then (if isNegative x then "-inf" else "inf")
  else shortestText x

end SpecEngine.Double
