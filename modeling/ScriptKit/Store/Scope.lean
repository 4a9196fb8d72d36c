import ScriptKit.Store.Basic
import ScriptKit.Text.Quoted

/-! Scopes: names within names. A name is looked for from the innermost scope outwards. A
description names what a scope holds and does not show it, since that may hold the function that
holds the scope. -/
namespace ScriptKit

/-- What defining a name did: it stored the binding, or found the one that is there. -/
inductive Defined
  | fresh (binding : Binding)
  | already (binding : Binding)
deriving DecidableEq, Repr

namespace Defined

def isFresh : Defined → Bool
  | fresh _ => true
  | already _ => false

def binding : Defined → Binding
  | fresh b | already b => b

end Defined

namespace Store

/-- A scope and at most so many scopes around it, the innermost first. -/
def chainLevels (s : Store) : Nat → ScopeRef → List ScopeRef
  | 0, _ => []
  | levels + 1, r =>
    r :: match (s.scope r).parent? with
      | none => []
      | some parent => chainLevels s levels parent

def chain (s : Store) (r : ScopeRef) : List ScopeRef := s.chainLevels s.scopes.size r

/-- The binding of a name in the nearest scope that has it. -/
def resolve (s : Store) (r : ScopeRef) (name : String) : Option Binding :=
  (s.chain r).findSome? fun r => (s.scope r).names.find? name

def lookup (s : Store) (r : ScopeRef) (name : String) : Except EvalError Binding :=
  match s.resolve r name with
  | some b => .ok b
  | none => .error (.unresolvedName name)

def override (s : Store) (r : ScopeRef) (name : String) (b : Binding) : Store :=
  let scope := s.scope r
  s.setScope r { scope with names := scope.names.insert name b }

def define (s : Store) (r : ScopeRef) (name : String) (b : Binding) : Defined × Store :=
  match (s.scope r).names.find? name with
  | some existing => (.already existing, s)
  | none => (.fresh b, s.override r name b)

def declare (s : Store) (r : ScopeRef) (name : String) (b : Binding) :
    Except EvalError Binding × Store :=
  match s.define r name b with
  | (.fresh b, s) => (.ok b, s)
  | (.already _, s) => (.error (.redeclaration name), s)

end Store

def Closure.describe (f : Closure) : String :=
  "Function \x7b params: " ++ Text.quotedList f.params ++ ", .. \x7d"

def ClosureBody.describe (_ : ClosureBody) : String := "FunctionBody(..)"

def Builtin.describe (f : Builtin) : String := "BuiltinFn(" ++ f.name ++ ")"

def Scope.describe (scope : Scope) : String :=
  "Environment \x7b names: " ++ Text.quotedList scope.names.keys ++ ", has_parent: " ++
    (if scope.parent?.isSome then "true" else "false") ++ " \x7d"

end ScriptKit
