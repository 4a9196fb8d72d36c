import ScriptKit.Numeral.Decimal
import ScriptKit.Numeral.Printer
import ScriptKit.Store.Scope
import ScriptKit.Store.Structure

/-! The functions that every script has. A failure is an error value and changes no cell. -/
namespace ScriptKit

inductive BuiltinFault
  | arity (got want : Nat)
  | noLength (kind : Kind)
  | noNumber (kind : Kind)
  | noInteger (text : String) (fault : IntegerFault)
  | noFloat (text : String) (fault : FloatFault)
  | noText (kind : Kind)
  | noTruth (kind : Kind)
  | noTruthWord (text : String)
  | keysOfNoMap
  | valuesOfNoMap
  | fixedTarget (shown : String)
  | insertIntoNoMap
  | keyKind (given present : Kind)
  | valueKind (given present : Kind)
  | unhashable (error : EvalError)
  | getFromNoMap
  | noValue (shown : String)
  | equalsOfNoMap
  | noBase (kind : Kind)
  | noExponent (kind : Kind)
deriving DecidableEq, Repr

namespace BuiltinFault

def message : BuiltinFault → String
  | arity got want =>
    "wrong number of arguments. got=" ++ toString got ++ ", want=" ++ toString want
  | noLength kind => "argument to `len` not supported, got " ++ kind.name
  | noNumber kind => "argument needs to be of type int, float or string, got " ++ kind.name
  | noInteger text fault => "cannot convert \"" ++ text ++ "\" to int: " ++ fault.message
  | noFloat text fault => "cannot convert \"" ++ text ++ "\" to float: " ++ fault.message
  | noText kind => "unsupported input type " ++ kind.name
  | noTruth kind => "argument needs to be of type bool or string, got " ++ kind.name
  | noTruthWord text => "cannot convert \"" ++ text ++ "\" to bool"
  | keysOfNoMap => "args of keys functions needs to be a map"
  | valuesOfNoMap => "args of values functions needs to be a map"
  | fixedTarget shown => "can't mutate " ++ shown ++ ", probably defined as a const"
  | insertIntoNoMap => "first arg needs to be a map in insert function"
  | keyKind given present =>
    "unusable as hash key: " ++ given.name ++ ", doesn't match the current key(s) type(s): " ++
      present.name
  | valueKind given present =>
    "unusable as map value: " ++ given.name ++ ", doesn't match the current value(s) type(s): " ++
      present.name
  | unhashable error => error.message
  | getFromNoMap => "first arg needs to be a map in get_value function"
  | noValue shown => "no value found with associated hash key: " ++ shown
  | equalsOfNoMap => "both args need to be a map in equals function"
  | noBase kind => "wrong type, expected an integer or float, got " ++ kind.name
  | noExponent kind => "wrong type, expected the pow to be an integer or float, got " ++ kind.name

end BuiltinFault

namespace Builtin

def arity : Builtin → Nat
  | insert => 3
  | getValue | equals | pow => 2
  | _ => 1

abbrev Outcome := Except BuiltinFault Value × Store

def runLen (s : Store) (v : Value) : Except BuiltinFault Value :=
  match v.unbindOnce.1 with
  | .string t => .ok (.int (Int64.ofNat t.length))
  | .array a => .ok (.int (Int64.ofNat (s.array a).length))
  | other => .error (.noLength other.kind)

def toInt (v : Value) : Except BuiltinFault Value :=
  match v.unbindOnce.1 with
  | .int n => .ok (.int n)
  | .float x => .ok (.int x.toInt64)
  | .string t =>
    match Integer.read t.toList with
    | .ok n => .ok (.int n)
    | .error fault => .error (.noInteger t fault)
  | other => .error (.noNumber other.kind)

def toFloat (v : Value) : Except BuiltinFault Value :=
  match v.unbindOnce.1 with
  | .float x => .ok (.float x)
  | .int n => .ok (.float (.ofInt n.toInt))
  | .string t =>
    match Binary64.read t.toList with
    | .ok x => .ok (.float x)
    | .error fault => .error (.noFloat t fault)
  | other => .error (.noNumber other.kind)

def toText (v : Value) : Except BuiltinFault Value :=
  match v.unbindOnce.1 with
  | .int n => .ok (.string (Integer.text n))
  | .float x => .ok (.string x.text)
  | .bool b => .ok (.string (Store.boolText b))
  | .string t => .ok (.string t)
  | other => .error (.noText other.kind)

def trueWords : List String := ["1", "t", "T", "true", "TRUE", "True"]

def falseWords : List String := ["0", "f", "F", "false", "FALSE", "False"]

def toBool (v : Value) : Except BuiltinFault Value :=
  match v.unbindOnce.1 with
  | .bool b => .ok (.bool b)
  | .string t =>
    if t ∈ trueWords then .ok (.bool true)
    else if t ∈ falseWords then .ok (.bool false)
    else .error (.noTruthWord t)
  | other => .error (.noTruth other.kind)

/-- The size of a number; the least integer gives the greatest. -/
def runAbs (v : Value) : Except BuiltinFault Value :=
  match v.unbindOnce.1 with
  | .int n => .ok (.int (Int64.ofNat (min n.toInt.natAbs Integer.greatest)))
  | .float x => .ok (.float x.abs)
  | other => .error (.noBase other.kind)

def numeric? : Value → Option Binary64
  | .int n => some (.ofInt n.toInt)
  | .float x => some x
  | _ => none

/-- A power; the exponent is looked at before the base. -/
def runPow (base exponent : Value) : Except BuiltinFault Value :=
  match numeric? exponent.unbindOnce.1, numeric? base.unbindOnce.1 with
  | none, _ => .error (.noExponent exponent.unbindOnce.1.kind)
  | _, none => .error (.noBase base.unbindOnce.1.kind)
  | some y, some x => .ok (.float (x.pow y))

def runKeys (s : Store) (v : Value) : Outcome :=
  match v.unbindOnce.1 with
  | .map m => let (a, s) := s.newArray (s.map m).givenKeys; (.ok (.array a), s)
  | _ => (.error .keysOfNoMap, s)

def runValues (s : Store) (v : Value) : Outcome :=
  match v.unbindOnce.1 with
  | .map m => let (a, s) := s.newArray (s.map m).givenValues; (.ok (.array a), s)
  | _ => (.error .valuesOfNoMap, s)

/-- A pair must be of the kinds that a map holds already. -/
def checkKinds (cell : MapCell) (key value : Value) : Except BuiltinFault Unit :=
  match cell.first? with
  | none => .ok ()
  | some (presentKey, presentValue) =>
    if presentKey.kind ≠ key.kind then .error (.keyKind key.kind presentKey.kind)
    else if presentValue.kind ≠ value.kind then .error (.valueKind value.kind presentValue.kind)
    else .ok ()

def insertInto (s : Store) (m : MapRef) (key value : Value) : Outcome :=
  match checkKinds (s.map m) key value with
  | .error fault => (.error fault, s)
  | .ok () =>
    match s.insertPair m key value with
    | (.ok (), s) => (.ok (.map m), s)
    | (.error e, s) => (.error (.unhashable e), s)

def runInsert (s : Store) (target key value : Value) : Option Outcome :=
  match target.unbindOnce with
  | (_, false) => do return (.error (.fixedTarget (← s.inspect target)), s)
  | (.map m, true) => some (insertInto s m key.unbindOnce.1 value.unbindOnce.1)
  | (_, true) => some (.error .insertIntoNoMap, s)

def runGetValue (s : Store) (target key : Value) : Option (Except BuiltinFault Value) :=
  match target.unbindOnce.1 with
  | .map m =>
    match (s.map m).get key.unbindOnce.1 with
    | .ok (some value) => some (.ok value)
    | .ok none => do return .error (.noValue (← s.inspect key.unbindOnce.1))
    | .error e => some (.error (.unhashable e))
  | _ => some (.error .getFromNoMap)

def runEquals (s : Store) (v w : Value) : Option (Except BuiltinFault Value) :=
  match v.unbindOnce.1, w.unbindOnce.1 with
  | .map m, .map n => do return .ok (.bool (← s.deepEquals (.map m) (.map n)))
  | _, _ => some (.error .equalsOfNoMap)

/-- Runs a function; none if it meets a cell that holds itself. -/
def run (s : Store) : Builtin → List Value → Option Outcome
  | len, [v] => some (runLen s v, s)
  | copy, [v] => do let (v, s) ← s.copy v; return (.ok v, s)
  | int, [v] => some (toInt v, s)
  | float, [v] => some (toFloat v, s)
  | string, [v] => some (toText v, s)
  | bool, [v] => some (toBool v, s)
  | typeOf, [v] => some (.ok (.string v.unbindOnce.1.kind.name), s)
  | keys, [v] => some (runKeys s v)
  | values, [v] => some (runValues s v)
  | insert, [target, key, value] => runInsert s target key value
  | getValue, [target, key] => do return (← runGetValue s target key, s)
  | equals, [v, w] => do return (← runEquals s v w, s)
  | abs, [v] => some (runAbs v, s)
  | pow, [base, exponent] => some (runPow base exponent, s)
  | f, args => some (.error (.arity args.length f.arity), s)

def answer : Except BuiltinFault Value → Value
  | .ok v => v
  | .error fault => .error fault.message

def call (s : Store) (f : Builtin) (args : List Value) : Option (Value × Store) := do
  let (result, s) ← f.run s args
  return (answer result, s)

def table : List (String × Value) :=
  [("len", .builtin len), ("copy", .builtin copy), ("int", .builtin int),
   ("float", .builtin float), ("string", .builtin string), ("bool", .builtin bool),
   ("typeOf", .builtin typeOf), ("hashmap", .module .hashmap), ("math", .module .math)]

end Builtin

namespace Store

def newBuiltinScope (s : Store) : ScopeRef × Store :=
  let (r, s) := s.newScope none
  (r, Builtin.table.foldl (fun s (name, value) => s.override r name (.ofBuiltin value)) s)

end Store

end ScriptKit
