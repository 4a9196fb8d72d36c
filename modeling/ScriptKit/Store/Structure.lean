import ScriptKit.Numeral.Integer
import ScriptKit.Numeral.Printer
import ScriptKit.Store.Basic

/-! What takes the whole structure of a value: its text, its equality with another, and its copy,
which shares no array and no map with it. -/
namespace ScriptKit.Store

def boolText (b : Bool) : String := if b then "true" else "false"

def commaList (entries : List String) : String := String.intercalate ", " entries

/-- The text of a value, given the texts of what its cell holds. Bindings, returns and constants do
not show. -/
def inspectWith (s : Store) (element : Value → Option String) : Value → Option String
  | .int n => some (Integer.text n)
  | .bool b => some (boolText b)
  | .float x => some (x.fixed 6)
  | .string t => some t
  | .returned v => inspectWith s element v
  | .constant v => inspectWith s element v
  | .binding v _ _ => inspectWith s element v
  | .function f => some ("fn(" ++ commaList (s.function f).params ++ ")")
  | .array a => do
    let items ← (s.array a).mapM element
    return "[" ++ commaList items ++ "]"
  | .map m => do
    let entries ← (s.map m).pairs.mapM fun (key, value) => do
      return (← element key) ++ ": " ++ (← element value)
    return "\x7b" ++ commaList entries ++ "\x7d"
  | .record r => do
    let entries ← (s.record r).entries.mapM fun (name, value) => do
      return name ++ ": " ++ (← element value)
    return "struct\x7b" ++ commaList entries ++ "\x7d"
  | .error message => some ("ERROR: " ++ message)
  | .builtin f => some ("builtin function " ++ f.name)
  | .module m => some ("module " ++ m.name)

def inspectLevels (s : Store) : Nat → Value → Option String
  | 0 => inspectWith s fun _ => none
  | levels + 1 => inspectWith s (inspectLevels s levels)

/-- The text of a value; none if a cell holds itself. -/
def inspect (s : Store) (v : Value) : Option String := s.inspectLevels s.cellCount v

/-- Equality of values, given that of what their cells hold. A cell equals itself. Maps compare by
their keys, and a pair's first part plays no part. -/
def equalWith (s : Store) (element : Value → Value → Option Bool) (v w : Value) : Option Bool :=
  match v.unbind, w.unbind with
  | .array a, .array b =>
    if a = b then some true
    else if (s.array a).length = (s.array b).length then
      ((s.array a).zip (s.array b)).allM fun (x, y) => element x y
    else some false
  | .map m, .map n =>
    if m = n then some true
    else if (s.map m).size = (s.map n).size then
      (s.map m).entries.allM fun (key, _, x) =>
        match (s.map n).find? key with
        | some (_, y) => element x y
        | none => some false
    else some false
  | v, w => some (v.equals w)

def equalLevels (s : Store) : Nat → Value → Value → Option Bool
  | 0 => equalWith s fun _ _ => none
  | levels + 1 => equalWith s (equalLevels s levels)

/-- Whether two values have the same structure; none if a cell holds itself. -/
def deepEquals (s : Store) (v w : Value) : Option Bool := s.equalLevels s.cellCount v w

/-- Steps that add cells to a store, or never end. -/
abbrev Building := StateT Store Option

def addArray (items : List Value) : Building Value :=
  modifyGet fun s => let (a, s) := s.newArray items; (.array a, s)

def addMap (cell : MapCell) : Building Value :=
  modifyGet fun s => let (m, s) := s.newMap cell; (.map m, s)

/-- The copy of a value, given the copies of what its cell holds. Arrays and maps are made anew,
bindings are kept, and all else stays as it is. -/
def copyWith (element : Value → Building Value) : Value → Building Value
  | .array a => do
    let items ← ((← get).array a).mapM element
    addArray items
  | .map m => do
    let entries ← ((← get).map m).entries.mapM fun (k, key, value) => do
      return (k, ← element key, ← element value)
    addMap ⟨entries⟩
  | .binding v isMutable isBuiltin => do
    return .binding (← copyWith element v) isMutable isBuiltin
  | v => pure v

def copyLevels : Nat → Value → Building Value
  | 0 => copyWith fun _ => failure
  | levels + 1 => copyWith (copyLevels levels)

def copy (s : Store) (v : Value) : Option (Value × Store) := (copyLevels s.cellCount v).run s

end ScriptKit.Store
