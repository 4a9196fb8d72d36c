import ScriptKit.Descriptor.Basic
import ScriptKit.Descriptor.Parser
import ScriptKit.Numeral.Integer
import ScriptKit.Text.Class

/-! Whether a declared type accepts an inferred one. Kinds and shapes agree at every level; a
declared size is at least the inferred one where both are given. -/
namespace ScriptKit

inductive Operand
  | declared | inferred
deriving DecidableEq, Repr

def Operand.name : Operand → String
  | declared => "declared"
  | inferred => "inferred"

inductive MapSide
  | key | value
deriving DecidableEq, Repr

def MapSide.name : MapSide → String
  | key => "key"
  | value => "value"

inductive Mismatch
  | kinds (expected found : String)
  | capacity (declared inferred : Int64)
  | invalidSize (size : String)
  | missingChild
  | shapes
  | missingSide (side : MapSide)
deriving DecidableEq, Repr

def Mismatch.message : Mismatch → String
  | kinds expected found => "expected `" ++ expected ++ "`, found `" ++ found ++ "`"
  | capacity declared inferred =>
    "array capacity " ++ Integer.text declared ++ " is smaller than " ++ Integer.text inferred
  | invalidSize size => "`" ++ size ++ "` is not a valid array size"
  | missingChild => "element type is missing"
  | shapes => "cannot compare a map with a non-map type"
  | missingSide side => "map " ++ side.name ++ " type is missing"

inductive TypeError
  | absent (operand : Operand)
  | mismatch (offending : Descriptor) (operand : Operand) (reason : Mismatch)
  | tooDeep
deriving DecidableEq, Repr

def TypeError.message : TypeError → String
  | absent operand => "invalid type descriptor: the " ++ operand.name ++ " type is absent"
  | mismatch offending operand reason =>
    "type mismatch at `" ++ offending.text ++ "` (" ++ operand.name ++ "): " ++ reason.message
  | tooDeep => tooDeepMessage

namespace NodeType

/-- The number that a written size denotes; blanks around it do not count. -/
def sizeValue? (size : String) : Option Int64 :=
  (Integer.read (Text.trim size.toList)).toOption

def readSize (n : NodeType) (operand : Operand) (size : String) : Except TypeError Int64 :=
  match sizeValue? size with
  | some value => .ok value
  | none => .error (.mismatch (.node n) operand (.invalidSize size))

/-- Compares sizes where both are given; the declared one is read first. -/
def checkSize (declared inferred : NodeType) : Except TypeError Unit :=
  match declared.size?, inferred.size? with
  | some size, some size' => do
    let capacity ← declared.readSize .declared size
    let needed ← inferred.readSize .inferred size'
    if capacity < needed then
      throw (.mismatch (.node inferred) .inferred (.capacity capacity needed))
  | _, _ => .ok ()

def checkHead (declared inferred : NodeType) : Except TypeError Unit :=
  if declared.kind = inferred.kind then checkSize declared inferred
  else .error (.mismatch (.node inferred) .inferred (.kinds declared.kind inferred.kind))

/-- Compares the element types by `check`. The node without one is at fault. -/
def checkChild (check : NodeType → NodeType → Except TypeError Unit) :
    NodeType → NodeType → Except TypeError Unit
  | leaf _ _, leaf _ _ => .ok ()
  | leaf kind size, container _ _ _ =>
    .error (.mismatch (.node (leaf kind size)) .declared .missingChild)
  | container _ _ _, leaf kind size =>
    .error (.mismatch (.node (leaf kind size)) .inferred .missingChild)
  | container _ _ child, container _ _ child' => check child child'

def checkLevels : Nat → NodeType → NodeType → Except TypeError Unit
  | 0, _, _ => .error .tooDeep
  | levels + 1, declared, inferred => do
    checkHead declared inferred
    checkChild (checkLevels levels) declared inferred

def check (declared? inferred? : Option NodeType) : Except TypeError Unit :=
  match declared?, inferred? with
  | none, _ => .error (.absent .declared)
  | some _, none => .error (.absent .inferred)
  | some declared, some inferred => checkLevels (maxTypeDepth + 1) declared inferred

end NodeType

namespace Descriptor

/-- Compares one side of two maps by `check`. The map that has the side is at fault. -/
def checkSide (check : Descriptor → Descriptor → Except TypeError Unit)
    (declared inferred : Descriptor) (side : MapSide) :
    Option Descriptor → Option Descriptor → Except TypeError Unit
  | none, none => .ok ()
  | some _, none => .error (.mismatch declared .declared (.missingSide side))
  | none, some _ => .error (.mismatch inferred .inferred (.missingSide side))
  | some d, some i => check d i

def checkLevels : Nat → Descriptor → Descriptor → Except TypeError Unit
  | 0, _, _ => .error .tooDeep
  | levels + 1, node d, node i => d.checkLevels (levels + 1) i
  | levels + 1, map key value, map key' value' => do
    checkSide (checkLevels levels) (map key value) (map key' value') .key key key'
    checkSide (checkLevels levels) (map key value) (map key' value') .value value value'
  | _ + 1, _, inferred => .error (.mismatch inferred .inferred .shapes)

def check (declared inferred : Descriptor) : Except TypeError Unit :=
  checkLevels (maxTypeDepth + 1) declared inferred

/-- Compares two descriptors whose outermost kinds are known to agree: of two nodes only the
element types are compared. -/
def checkInside : Descriptor → Descriptor → Except TypeError Unit
  | node d, node i => NodeType.checkChild (NodeType.checkLevels maxTypeDepth) d i
  | declared, inferred => check declared inferred

end Descriptor

end ScriptKit
