/-! The kinds of value. -/
namespace ScriptKit

inductive Kind
  | integer | boolean | float | string | returned | function | array | map | record | error
  | builtin | constant | module | binding
deriving DecidableEq, Repr

namespace Kind

def name : Kind → String
  | integer => "INTEGER"
  | boolean => "BOOLEAN"
  | float => "FLOAT"
  | string => "STRING"
  | returned => "RETURN_VALUE"
  | function => "FUNCTION"
  | array => "ARRAY"
  | map => "MAP"
  | record => "STRUCT"
  | error => "ERROR"
  | builtin => "BUILTIN_FUNCTION"
  | constant => "BUILTIN_CONSTANT"
  | module => "BUILTIN_MODULE"
  | binding => "BINDING"

def rank : Kind → Nat
  | integer => 0
  | boolean => 1
  | float => 2
  | string => 3
  | returned => 4
  | function => 5
  | array => 6
  | map => 7
  | record => 8
  | error => 9
  | builtin => 10
  | constant => 11
  | module => 12
  | binding => 13

theorem rank_injective {k l : Kind} (h : k.rank = l.rank) : k = l := by
  cases k <;> cases l <;> simp_all [rank]

end Kind

end ScriptKit
