/-! Decimal integers of sixty-four bits: an optional sign and digits. -/
namespace ScriptKit

inductive IntegerFault
  | empty
  | invalidDigit
  | tooLarge
  | tooSmall
deriving DecidableEq, Repr

namespace IntegerFault

def message : IntegerFault → String
  | empty => "cannot parse integer from empty string"
  | invalidDigit => "invalid digit found in string"
  | tooLarge => "number too large to fit in target type"
  | tooSmall => "number too small to fit in target type"

end IntegerFault

namespace Integer

def greatest : Nat := 0x7fffffffffffffff

def digitValue (c : Char) : Nat := c.toNat - '0'.toNat

/-- Reads digits after those that gave `value`. A value above the limit ends the reading at the
digit that reaches it, before any later fault. -/
def readDigits (limit : Nat) (beyond : IntegerFault) (value : Nat) :
    List Char → Except IntegerFault Nat
  | [] => .ok value
  | c :: cs =>
    if c.isDigit then
      let next := 10 * value + digitValue c
      if next ≤ limit then readDigits limit beyond next cs else .error beyond
    else .error .invalidDigit

def readMagnitude (limit : Nat) (beyond : IntegerFault) : List Char → Except IntegerFault Nat
  | [] => .error .invalidDigit
  | c :: cs => readDigits limit beyond 0 (c :: cs)

def read : List Char → Except IntegerFault Int64
  | [] => .error .empty
  | '-' :: cs => (readMagnitude (greatest + 1) .tooSmall cs).map fun n : Nat => Int64.ofInt (-n)
  | '+' :: cs => (readMagnitude greatest .tooLarge cs).map Int64.ofNat
  | c :: cs => (readMagnitude greatest .tooLarge (c :: cs)).map Int64.ofNat

def text (n : Int64) : String := toString n.toInt

end Integer

end ScriptKit
