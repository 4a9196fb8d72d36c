/-! Floating-point numbers of sixty-four bits: a sign, eleven bits of exponent and fifty-two bits of
fraction. Not-a-number values keep their sign and fraction. Exact quotients are rounded to the
nearest number, a tie going to the even one. -/
namespace ScriptKit

structure Binary64 where
  bits : UInt64
deriving DecidableEq, Repr

namespace Binary64

def signWeight : Nat := 0x8000000000000000

def exponentWeight : Nat := 0x10000000000000

/-- The bits below the sign; they grow with the size of the number. -/
def magnitude (x : Binary64) : Nat := x.bits.toNat % signWeight

def isNegative (x : Binary64) : Bool := signWeight ≤ x.bits.toNat

theorem isNegative_iff (x : Binary64) : x.isNegative = true ↔ signWeight ≤ x.bits.toNat :=
  decide_eq_true_iff

def infinityMagnitude : Nat := 0x7ff0000000000000

def ofMagnitude (negative : Bool) (magnitude : Nat) : Binary64 :=
  ⟨UInt64.ofNat (magnitude + if negative then signWeight else 0)⟩

def zero : Binary64 := ⟨0⟩

def one : Binary64 := ⟨0x3ff0000000000000⟩

def infinity (negative : Bool) : Binary64 := ofMagnitude negative infinityMagnitude

def notANumber (negative : Bool) : Binary64 := ofMagnitude negative 0x7ff8000000000000

def isNaN (x : Binary64) : Bool := infinityMagnitude < x.magnitude

def isInfinite (x : Binary64) : Bool := x.magnitude = infinityMagnitude

def isZero (x : Binary64) : Bool := x.magnitude = 0

def exponentField (x : Binary64) : Nat := x.magnitude / exponentWeight

/-- The whole-number part of a finite number's size, which is `significand * 2 ^ unit`. -/
def significand (x : Binary64) : Nat :=
  if x.exponentField = 0 then x.magnitude else exponentWeight + x.magnitude % exponentWeight

def unit (x : Binary64) : Int := (max x.exponentField 1 : Nat) - 1075

/-- Numeric equality: the two zeros are equal, and what is no number equals nothing. -/
def same (x y : Binary64) : Bool :=
  !x.isNaN && !y.isNaN && (x.bits = y.bits || x.isZero && y.isZero)

/-- The place of a number in the order of all bit patterns: negative ones before positive ones,
the zeros apart, not-a-number values at both ends. -/
def orderKey (x : Binary64) : Int :=
  if x.isNegative then -(x.magnitude : Int) - 1 else x.magnitude

theorem orderKey_injective {x y : Binary64} (h : x.orderKey = y.orderKey) : x = y := by
  obtain ⟨a⟩ := x
  obtain ⟨b⟩ := y
  have ha := a.toNat_lt
  have hb := b.toNat_lt
  have hab : a.toNat = b.toNat := by
    simp only [orderKey, isNegative_iff, magnitude] at h
    unfold signWeight at h
    split at h <;> split at h <;> omega
  rw [UInt64.toNat_inj.1 hab]

def abs (x : Binary64) : Binary64 := ofMagnitude false x.magnitude

def dropZeroSign (x : Binary64) : Binary64 := if x.isZero then zero else x

def truncate (x : Binary64) : Int :=
  let size := x.significand <<< x.unit.toNat >>> (-x.unit).toNat
  if x.isNegative then -(size : Int) else size

/-- The integer next to a number towards zero, held within the range of integers; zero for what is
no number. -/
def toInt64 (x : Binary64) : Int64 :=
  if x.isNaN then 0
  else Int64.ofInt (max Int64.minValue.toInt (min Int64.maxValue.toInt x.truncate))

def quiet (x : Binary64) : Binary64 := ⟨x.bits ||| 0x0008000000000000⟩

def isSignaling (x : Binary64) : Bool := x.isNaN && x.magnitude < 0x7ff8000000000000

def isOdd (x : Binary64) : Bool :=
  let places := (-x.unit).toNat
  x.unit ≤ 0 && (x.significand >>> places) <<< places = x.significand &&
    (x.significand >>> places) % 2 = 1

/-- A not-a-number value as the base of a power: made quiet, and without a sign if the exponent is
odd. -/
def powNaN (x y : Binary64) : Binary64 := if y.isOdd then x.quiet.abs else x.quiet

def toFloat (x : Binary64) : Float := Float.ofBits x.bits

/-- The first number raised to the second. A zero exponent and a base of one give one, unless the
other operand is signaling; else an operand that is no number gives the result, the base before the
exponent. A power without a real value is the negative not-a-number value. -/
def pow (x y : Binary64) : Binary64 :=
  if (y.isZero && !x.isSignaling) || (x = one && !y.isSignaling) then one
  else if x.isNaN then powNaN x y
  else if y.isNaN then y.quiet
  else
    let power := Float.pow x.toFloat y.toFloat
    if power.isNaN then notANumber true else ⟨power.toBits⟩

end Binary64

namespace Numeral

/-- The whole number nearest to a quotient, a tie going to the even one. -/
def roundDiv (num den : Nat) : Nat :=
  let quotient := num / den
  let rest := num % den
  if 2 * rest < den then quotient
  else if den < 2 * rest then quotient + 1
  else quotient + quotient % 2

/-- The greatest exponent of two that is at most a positive quotient. -/
def floorLog2 (num den : Nat) : Int :=
  let guess : Int := (num.log2 : Int) - den.log2
  if den <<< guess.toNat ≤ num <<< (-guess).toNat then guess else guess - 1

end Numeral

namespace Binary64

/-- The magnitude nearest to a quotient: fifty-three digits after the leading one, fewer below the
least normal number, and infinity beyond the greatest number. -/
def magnitudeOfRatio (num den : Nat) : Nat :=
  if num = 0 then 0
  else
    let unit := max (Numeral.floorLog2 num den - 52) (-1074)
    let significand := Numeral.roundDiv (num <<< (-unit).toNat) (den <<< unit.toNat)
    min ((unit + 1074).toNat * exponentWeight + significand) infinityMagnitude

def ofRatio (negative : Bool) (num den : Nat) : Binary64 :=
  ofMagnitude negative (magnitudeOfRatio num den)

def ofInt (n : Int) : Binary64 := ofRatio (n < 0) n.natAbs 1

end Binary64

end ScriptKit
