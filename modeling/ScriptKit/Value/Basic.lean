import ScriptKit.Numeral.Binary64
import ScriptKit.Value.Kind

/-! Values of scripts. Arrays, maps, records and functions are references to shared cells; all else
is held directly. -/
namespace ScriptKit

structure ArrayRef where
  index : Nat
deriving DecidableEq, Repr

structure MapRef where
  index : Nat
deriving DecidableEq, Repr

structure RecordRef where
  index : Nat
deriving DecidableEq, Repr

structure FunctionRef where
  index : Nat
deriving DecidableEq, Repr

structure ScopeRef where
  index : Nat
deriving DecidableEq, Repr

inductive Builtin
  | len | copy | int | float | string | bool | typeOf
  | keys | values | insert | getValue | equals
  | abs | pow
deriving DecidableEq, Repr

def Builtin.name : Builtin → String
  | len => "len"
  | copy => "copy"
  | int => "int"
  | float => "float"
  | string => "string"
  | bool => "bool"
  | typeOf => "typeOf"
  | keys => "keys"
  | values => "values"
  | insert => "insert"
  | getValue => "get_value"
  | equals => "equals"
  | abs => "abs"
  | pow => "pow"

inductive Library
  | hashmap | math
deriving DecidableEq, Repr

def Library.name : Library → String
  | hashmap => "hashmap"
  | math => "math"

inductive Value
  | int (n : Int64)
  | bool (b : Bool)
  | float (x : Binary64)
  | string (s : String)
  /-- The result of a return on its way to the caller. -/
  | returned (value : Value)
  | function (f : FunctionRef)
  | array (a : ArrayRef)
  | map (m : MapRef)
  | record (r : RecordRef)
  | error (message : String)
  | builtin (f : Builtin)
  | constant (value : Value)
  | module (m : Library)
  /-- A value with what its name allows: whether it may change, and whether it was always there. -/
  | binding (value : Value) (isMutable isBuiltin : Bool)
deriving DecidableEq, Repr

structure Binding where
  value : Value
  isMutable : Bool
  isBuiltin : Bool
deriving DecidableEq, Repr

def Binding.ofBuiltin (value : Value) : Binding := ⟨value, false, true⟩

def Binding.toValue (b : Binding) : Value := .binding b.value b.isMutable b.isBuiltin

namespace Value

def kind : Value → Kind
  | int _ => .integer
  | bool _ => .boolean
  | float _ => .float
  | string _ => .string
  | returned _ => .returned
  | function _ => .function
  | array _ => .array
  | map _ => .map
  | record _ => .record
  | error _ => .error
  | builtin _ => .builtin
  | constant _ => .constant
  | module _ => .module
  | binding _ _ _ => .binding

def isError : Value → Bool
  | error _ => true
  | _ => false

def unbind : Value → Value
  | binding value _ _ => value.unbind
  | value => value

/-- The value under the outermost binding, and whether that binding may change. -/
def unbindOnce : Value → Value × Bool
  | binding value isMutable _ => (value, isMutable)
  | value => (value, false)

def unreturn : Value → Value
  | returned value => value
  | value => value

/-- Equality of plain values under their bindings. Values of any other kind equal nothing. -/
def equals (v w : Value) : Bool :=
  match v.unbind, w.unbind with
  | int m, int n => m = n
  | bool a, bool b => a = b
  | float x, float y => x.same y
  | string s, string t => s = t
  | _, _ => false

@[simp] theorem unbind_binding (v : Value) (isMutable isBuiltin : Bool) :
    (binding v isMutable isBuiltin).unbind = v.unbind := rfl

theorem kind_unbind_ne_binding (v : Value) : v.unbind.kind ≠ .binding := by
  induction v with
  | binding _ _ _ ih => exact ih
  | _ => simp [unbind, kind]

@[simp] theorem unbind_unbind (v : Value) : v.unbind.unbind = v.unbind := by
  induction v with
  | binding _ _ _ ih => exact ih
  | _ => rfl

end Value

namespace Library

def pi : Binary64 := ⟨0x400921fb54442d18⟩

def e : Binary64 := ⟨0x4005bf0a8b145769⟩

def members : Library → List (String × Value)
  | hashmap =>
    [("equals", .builtin .equals), ("get_value", .builtin .getValue), ("insert", .builtin .insert),
     ("keys", .builtin .keys), ("values", .builtin .values)]
  | math =>
    [("PI", .constant (.float pi)), ("abs", .builtin .abs), ("e", .constant (.float e)),
     ("pow", .builtin .pow)]

def member? (m : Library) (name : String) : Option Value :=
  (m.members.find? (·.1 = name)).map (·.2)

end Library

end ScriptKit
