import ScriptKit.Numeral.Binary64
import ScriptKit.Report.Code
import ScriptKit.Value.Basic

/-! Map keys: the kind of a value and a number made from it. -/
namespace ScriptKit

inductive EvalError
  | redeclaration (name : String)
  | unresolvedName (name : String)
  | unhashableKey (kind : Kind)
  | typeMismatch (text : String)
deriving DecidableEq, Repr

namespace EvalError

def message : EvalError → String
  | redeclaration name => "`" ++ name ++ "` is already declared in this scope"
  | unresolvedName name => "unresolved name `" ++ name ++ "`"
  | unhashableKey kind =>
    "unusable as hash key: " ++ kind.name ++
      ", consider one of those types (boolean, integer, float, string)"
  | typeMismatch text => "type mismatch: " ++ text

def code : EvalError → ErrorCode
  | redeclaration _ => .alreadyDeclared
  | unresolvedName _ => .unresolvedName
  | unhashableKey _ => .unhashableKey
  | typeMismatch _ => .typeMismatch

end EvalError

structure MapKey where
  kind : Kind
  number : Binary64
deriving DecidableEq, Repr

namespace MapKey

/-- Keys are ordered by kind, then by number. -/
instance : Ord MapKey where
  compare := compareLex (compareOn fun k => k.kind.rank) (compareOn fun k => k.number.orderKey)

instance : Std.TransOrd MapKey :=
  inferInstanceAs (Std.TransCmp
    (compareLex (compareOn fun k : MapKey => k.kind.rank) (compareOn fun k => k.number.orderKey)))

/-- Only a key itself stands at its place in the order. -/
instance : Std.LawfulEqOrd MapKey where
  eq_of_compare {k l} h := by
    obtain ⟨hk, hn⟩ := Ordering.then_eq_eq.1 h
    have hkind : k.kind = l.kind := Kind.rank_injective (Std.LawfulEqOrd.eq_of_compare hk)
    have hnumber : k.number = l.number :=
      Binary64.orderKey_injective (Std.LawfulEqOrd.eq_of_compare hn)
    cases k
    cases l
    cases hkind
    cases hnumber
    rfl

/-- The digest of some bytes: each byte is mixed in by exclusive or and a multiplication that
keeps sixty-four bits. -/
def digest (bytes : List UInt8) : UInt64 :=
  bytes.foldl (fun hash b => (hash ^^^ b.toUInt64) * 0x100000001b3) 0xcbf29ce484222325

def ofText (s : String) : Binary64 := .ofInt (digest s.toUTF8.toList).toNat

end MapKey

/-- The key of a plain value. Integers are rounded, and the two zeros have one key. -/
def Value.key : Value → Except EvalError MapKey
  | int n => .ok ⟨.integer, .ofInt n.toInt⟩
  | bool b => .ok ⟨.boolean, if b then .one else .zero⟩
  | float x => .ok ⟨.float, x.dropZeroSign⟩
  | string s => .ok ⟨.string, MapKey.ofText s⟩
  | v => .error (.unhashableKey v.kind)

end ScriptKit
