import ScriptKit.Numeral.Integer
import ScriptKit.Numeral.Binary64

/-! Reading floating-point numbers: an optional sign, then digits with at most one point and an
optional exponent, or a word for infinity or for no number. -/
namespace ScriptKit

inductive FloatFault
  | empty
  | invalid
deriving DecidableEq, Repr

def FloatFault.message : FloatFault → String
  | empty => "cannot parse float from empty string"
  | invalid => "invalid float literal"

/-- A decimal number: the digits as a whole number, and the power of ten that goes with them. -/
structure Decimal where
  digits : Nat
  exponent : Int
deriving DecidableEq, Repr

namespace Decimal

def digitsValue (cs : List Char) : Nat :=
  cs.foldl (fun value c => 10 * value + Integer.digitValue c) 0

def readExponent? (cs : List Char) : Option Int :=
  let (negative, digits) := match cs with
    | '-' :: rest => (true, rest)
    | '+' :: rest => (false, rest)
    | _ => (false, cs)
  if digits.isEmpty || !digits.all Char.isDigit then none
  else if negative then some (-(digitsValue digits : Int))
  else some (digitsValue digits)

def splitFraction : List Char → List Char × List Char
  | '.' :: rest => (rest.takeWhile Char.isDigit, rest.dropWhile Char.isDigit)
  | rest => ([], rest)

def readTail? : List Char → Option Int
  | [] => some 0
  | c :: rest => if c = 'e' ∨ c = 'E' then readExponent? rest else none

/-- Reads an unsigned number. There is a digit before or after the point. -/
def read? (cs : List Char) : Option Decimal :=
  let whole := cs.takeWhile Char.isDigit
  let (fraction, tail) := splitFraction (cs.dropWhile Char.isDigit)
  if whole.isEmpty && fraction.isEmpty then none
  else (readTail? tail).map fun exponent =>
    ⟨digitsValue (whole ++ fraction), exponent - fraction.length⟩

/-- The nearest floating-point number. Beyond the range of sizes the power of ten is not formed. -/
def toBinary64 (d : Decimal) (negative : Bool) : Binary64 :=
  let leading : Int := (Nat.toDigits 10 d.digits).length + d.exponent
  if d.digits = 0 ∨ leading < -400 then .ofMagnitude negative 0
  else if 400 < leading then .infinity negative
  else .ofRatio negative (d.digits * Nat.pow 10 d.exponent.toNat) (Nat.pow 10 (-d.exponent).toNat)

end Decimal

namespace Binary64

def readUnsigned (negative : Bool) (cs : List Char) : Except FloatFault Binary64 :=
  let word := cs.map Char.toLower
  if word = "inf".toList ∨ word = "infinity".toList then .ok (.infinity negative)
  else if word = "nan".toList then .ok (.notANumber negative)
  else match Decimal.read? cs with
    | some d => .ok (d.toBinary64 negative)
    | none => .error .invalid

def read : List Char → Except FloatFault Binary64
  | [] => .error .empty
  | '-' :: cs => readUnsigned true cs
  | '+' :: cs => readUnsigned false cs
  | c :: cs => readUnsigned false (c :: cs)

end Binary64

end ScriptKit
