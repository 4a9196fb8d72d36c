import ScriptKit.Numeral.Binary64

/-! The texts of floating-point numbers, without an exponent: the shortest decimal that reads back,
and the decimal with a fixed number of places. -/
namespace ScriptKit

namespace Numeral

/-- The digits of `n` divided by a power of ten: at least one digit before the point, exactly
`places` after it, and no point without places. -/
def positional (n places : Nat) : List Char :=
  let digits := Nat.toDigits 10 n
  let padded := List.replicate (places + 1 - digits.length) '0' ++ digits
  let whole := padded.take (padded.length - places)
  let fraction := padded.drop (padded.length - places)
  if fraction.isEmpty then whole else whole ++ '.' :: fraction

end Numeral

namespace Binary64

/-- The exact value rounded to so many places, a tie going to the even digit. The sign stays even
if only zeros are left. -/
def fixed (x : Binary64) (places : Nat) : String :=
  let sign := if x.isNegative then "-" else ""
  if x.isNaN then "NaN"
  else if x.isInfinite then sign ++ "inf"
  else
    let scaled := Numeral.roundDiv (x.significand <<< x.unit.toNat * Nat.pow 10 places)
      (1 <<< (-x.unit).toNat)
    sign ++ String.ofList (Numeral.positional scaled places)

/-- A finite number and the ends of the interval of reals that round to it, over one denominator.
The ends belong to the interval if `closed`. -/
structure Neighbourhood where
  low : Nat
  value : Nat
  high : Nat
  den : Nat
  closed : Bool
deriving Repr

/-- Half a unit on either side; below a power of two the next number is half as far. -/
def neighbourhood (x : Binary64) : Neighbourhood :=
  let below := if x.significand = exponentWeight then 1 else 2
  { low := (4 * x.significand - below) <<< x.unit.toNat
    value := (4 * x.significand) <<< x.unit.toNat
    high := (4 * x.significand + 2) <<< x.unit.toNat
    den := 4 <<< (-x.unit).toNat
    closed := x.significand % 2 = 0 }

namespace Neighbourhood

def holds (n : Neighbourhood) (num : Nat) : Bool :=
  if n.closed then n.low ≤ num && num ≤ n.high else n.low < num && num < n.high

def scaleBy (n : Neighbourhood) (factor : Nat) : Neighbourhood :=
  { n with low := n.low * factor, value := n.value * factor, high := n.high * factor }

/-- The multiple of `step` in the interval that is nearest to the value, a tie going up. -/
def nearest? (n : Neighbourhood) (step : Nat) : Option Nat :=
  let count := n.value / step
  let down := n.holds (count * step)
  let up := n.holds ((count + 1) * step)
  if down && (!up || 2 * n.value < (2 * count + 1) * step) then some count
  else if up then some (count + 1)
  else none

def nearestAt? (n : Neighbourhood) (exponent : Int) : Option (Nat × Int) :=
  ((n.scaleBy (Nat.pow 10 (-exponent).toNat)).nearest? (n.den * Nat.pow 10 exponent.toNat)).map
    fun digits => (digits, exponent)

/-- The nearest multiple of the greatest power of ten that has one in the interval. The powers go
from above the greatest number to below the least. -/
def shortest (n : Neighbourhood) : Nat × Int :=
  ((List.range 633).findSome? fun (i : Nat) => n.nearestAt? (308 - i)).getD (0, 0)

end Neighbourhood

def decimalChars (digits : Nat) (exponent : Int) : List Char :=
  Numeral.positional (digits * Nat.pow 10 exponent.toNat) (-exponent).toNat

/-- The text of a number: the fewest digits that read back, written out in full. -/
def text (x : Binary64) : String :=
  let sign := if x.isNegative then "-" else ""
  if x.isNaN then "NaN"
  else if x.isInfinite then sign ++ "inf"
  else if x.isZero then sign ++ "0"
  else
    let (digits, exponent) := x.neighbourhood.shortest
    sign ++ String.ofList (decimalChars digits exponent)

end Binary64

end ScriptKit
