import ScriptKit.Table
import ScriptKit.Value.Key

/-! The cells that values refer to. Cells are only ever added, so a reference keeps its meaning. A
map keeps pairs under the key of a plain value, in the order of keys. -/
namespace ScriptKit

/-- The body of a function, carried along and never looked into. -/
inductive ClosureBody
  | text (s : String)
  | number (n : Int64)
deriving DecidableEq, Repr

structure Closure where
  params : List String
  body : ClosureBody
  scope : ScopeRef
deriving DecidableEq, Repr

structure Scope where
  names : Table String Binding
  parent? : Option ScopeRef
deriving Repr

/-- The pairs of a map under their keys; a pair holds the key as it was given. -/
abbrev MapCell := Table MapKey (Value × Value)

abbrev RecordCell := Table String Value

structure Store where
  arrays : Array (List Value)
  maps : Array MapCell
  records : Array RecordCell
  functions : Array Closure
  scopes : Array Scope
deriving Repr

namespace Store

def empty : Store := ⟨#[], #[], #[], #[], #[]⟩

def array (s : Store) (a : ArrayRef) : List Value := s.arrays[a.index]?.getD []

def map (s : Store) (m : MapRef) : MapCell := s.maps[m.index]?.getD .empty

def record (s : Store) (r : RecordRef) : RecordCell := s.records[r.index]?.getD .empty

def function (s : Store) (f : FunctionRef) : Closure :=
  s.functions[f.index]?.getD ⟨[], .text "", ⟨0⟩⟩

def scope (s : Store) (r : ScopeRef) : Scope := s.scopes[r.index]?.getD ⟨.empty, none⟩

def newArray (s : Store) (items : List Value) : ArrayRef × Store :=
  (⟨s.arrays.size⟩, { s with arrays := s.arrays.push items })

def newMap (s : Store) (cell : MapCell) : MapRef × Store :=
  (⟨s.maps.size⟩, { s with maps := s.maps.push cell })

def newRecord (s : Store) (cell : RecordCell) : RecordRef × Store :=
  (⟨s.records.size⟩, { s with records := s.records.push cell })

def newFunction (s : Store) (f : Closure) : FunctionRef × Store :=
  (⟨s.functions.size⟩, { s with functions := s.functions.push f })

def newScope (s : Store) (parent? : Option ScopeRef) : ScopeRef × Store :=
  (⟨s.scopes.size⟩, { s with scopes := s.scopes.push ⟨.empty, parent?⟩ })

def setArray (s : Store) (a : ArrayRef) (items : List Value) : Store :=
  { s with arrays := s.arrays.setIfInBounds a.index items }

def setMap (s : Store) (m : MapRef) (cell : MapCell) : Store :=
  { s with maps := s.maps.setIfInBounds m.index cell }

def setRecord (s : Store) (r : RecordRef) (cell : RecordCell) : Store :=
  { s with records := s.records.setIfInBounds r.index cell }

def setScope (s : Store) (r : ScopeRef) (scope : Scope) : Store :=
  { s with scopes := s.scopes.setIfInBounds r.index scope }

/-- Number of cells through which values can hold other values. -/
def cellCount (s : Store) : Nat := s.arrays.size + s.maps.size + s.records.size

theorem array_setArray_of_ne (s : Store) {a b : ArrayRef} (h : b ≠ a) (items : List Value) :
    (s.setArray a items).array b = s.array b := by
  have hi : a.index ≠ b.index := fun hi => h (by cases a; cases b; simp_all)
  simp [setArray, array, hi]

theorem map_setMap_self {s : Store} {m : MapRef} (h : m.index < s.maps.size) (cell : MapCell) :
    (s.setMap m cell).map m = cell := by
  simp [setMap, map, h]

theorem map_setMap_of_ne (s : Store) {m n : MapRef} (h : n ≠ m) (cell : MapCell) :
    (s.setMap m cell).map n = s.map n := by
  have hi : m.index ≠ n.index := fun hi => h (by cases m; cases n; simp_all)
  simp [setMap, map, hi]

theorem scope_setScope_self {s : Store} {r : ScopeRef} (h : r.index < s.scopes.size)
    (scope : Scope) : (s.setScope r scope).scope r = scope := by
  simp [setScope, Store.scope, h]

theorem scope_setScope_of_ne (s : Store) {q r : ScopeRef} (h : q ≠ r) (scope : Scope) :
    (s.setScope r scope).scope q = s.scope q := by
  have hi : r.index ≠ q.index := fun hi => h (by cases r; cases q; simp_all)
  simp [setScope, Store.scope, hi]

@[simp] theorem array_newArray (s : Store) (items : List Value) :
    (s.newArray items).2.array (s.newArray items).1 = items := by
  simp [newArray, array]

@[simp] theorem map_newMap (s : Store) (cell : MapCell) :
    (s.newMap cell).2.map (s.newMap cell).1 = cell := by
  simp [newMap, map]

end Store

namespace MapCell

/-- Puts a pair under the key of its first part. Bindings around both parts are dropped. -/
def insertPair (cell : MapCell) (key value : Value) : Except EvalError MapCell :=
  key.unbind.key.map fun k => cell.insert k (key.unbind, value.unbind)

def get (cell : MapCell) (key : Value) : Except EvalError (Option Value) :=
  key.unbind.key.map fun k => (cell.find? k).map (·.2)

def containsKey (cell : MapCell) (key : Value) : Except EvalError Bool :=
  key.unbind.key.map cell.contains

def pairs (cell : MapCell) : List (Value × Value) := cell.values

def first? (cell : MapCell) : Option (Value × Value) := cell.least?.map (·.2)

def givenKeys (cell : MapCell) : List Value := cell.pairs.map (·.1)

def givenValues (cell : MapCell) : List Value := cell.pairs.map (·.2)

end MapCell

namespace Store

/-- Puts a pair into a map, if it has a key; gives the store after the call in either case. -/
def insertPair (s : Store) (m : MapRef) (key value : Value) : Except EvalError Unit × Store :=
  match (s.map m).insertPair key value with
  | .ok cell => (.ok (), s.setMap m cell)
  | .error e => (.error e, s)

end Store

end ScriptKit
