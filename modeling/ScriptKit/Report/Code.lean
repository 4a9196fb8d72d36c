/-! Severities, categories and numeric codes of errors. -/
namespace ScriptKit

inductive Severity
  | error | warning
deriving DecidableEq, Repr

namespace Severity

def text : Severity → String
  | error => "ERROR"
  | warning => "WARNING"

def name : Severity → String
  | error => "error"
  | warning => "warning"

def ofName? (s : String) : Option Severity := [error, warning].find? (·.name = s)

@[simp] theorem ofName?_name (s : Severity) : ofName? s.name = some s := by cases s <;> decide

end Severity

inductive Category
  | grammar | type | scope | value
deriving DecidableEq, Repr

namespace Category

def name : Category → String
  | grammar => "syntax"
  | type => "type"
  | scope => "scope"
  | value => "value"

def ofName? (s : String) : Option Category := [grammar, type, scope, value].find? (·.name = s)

@[simp] theorem ofName?_name (c : Category) : ofName? c.name = some c := by cases c <;> decide

end Category

structure ErrorCode where
  number : UInt16
deriving DecidableEq, Repr

namespace ErrorCode

def unexpectedToken : ErrorCode := ⟨100⟩

def unterminated : ErrorCode := ⟨101⟩

def unknownType : ErrorCode := ⟨200⟩

def typeMismatch : ErrorCode := ⟨201⟩

def alreadyDeclared : ErrorCode := ⟨500⟩

def unresolvedName : ErrorCode := ⟨501⟩

def unhashableKey : ErrorCode := ⟨600⟩

/-- Each category owns a hundred of numbers; what no other owns is about the grammar. -/
def category (code : ErrorCode) : Category :=
  match code.number.toNat / 100 with
  | 2 => .type
  | 5 => .scope
  | 6 => .value
  | _ => .grammar

def text (code : ErrorCode) : String := "E" ++ toString code.number.toNat

end ErrorCode

end ScriptKit
