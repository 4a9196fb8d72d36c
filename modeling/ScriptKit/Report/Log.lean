import ScriptKit.Report.Code
import ScriptKit.Source.Span

/-! Errors found in a source text, and the log that collects them. -/
namespace ScriptKit

structure SourceError where
  file : String
  code : ErrorCode
  severity : Severity
  category : Category
  message : String
  span : Span
  sourceLine : String
  suggestion : Option String
deriving DecidableEq, Repr

namespace SourceError

def ofCode (file : String) (code : ErrorCode) (message : String) (span : Span)
    (sourceLine : String) (suggestion : Option String) : SourceError :=
  ⟨file, code, .error, code.category, message, span, sourceLine, suggestion⟩

def text (e : SourceError) : String :=
  e.file ++ ":" ++ e.span.text ++ ": " ++ e.code.text ++ " [" ++ e.category.name ++ "] " ++
    e.message

end SourceError

/-- The number of errors that a log keeps, and at which reading a text ends. -/
def maxErrors : Nat := 20

/-- The first errors and all warnings, with the numbers of both that were met. The numbers have
sixty-four bits and wrap around. -/
structure ErrorLog where
  errors : List SourceError
  warnings : List SourceError
  totalErrors : UInt64
  totalWarnings : UInt64
deriving DecidableEq, Repr

namespace ErrorLog

def empty : ErrorLog := ⟨[], [], 0, 0⟩

def hasErrors (log : ErrorLog) : Bool := 0 < log.totalErrors

def addError (log : ErrorLog) (e : SourceError) : ErrorLog :=
  { log with
    errors := if log.errors.length < maxErrors then log.errors ++ [e] else log.errors
    totalErrors := log.totalErrors + 1 }

def addWarning (log : ErrorLog) (w : SourceError) : ErrorLog :=
  { log with warnings := log.warnings ++ [w], totalWarnings := log.totalWarnings + 1 }

def ofLists (errors warnings : List SourceError) : ErrorLog :=
  warnings.foldl addWarning (errors.foldl addError empty)

/-- Adds what another log keeps, and counts what that one counted without keeping: none if it keeps
more than it counts. -/
def append (log other : ErrorLog) : ErrorLog :=
  let merged := other.errors.foldl addError log
  let dropped := UInt64.ofNat (other.totalErrors.toNat - other.errors.length)
  let counted := { merged with totalErrors := merged.totalErrors + dropped }
  other.warnings.foldl addWarning counted

instance : Append ErrorLog := ⟨append⟩

@[simp] theorem totalErrors_empty : empty.totalErrors = 0 := rfl

@[simp] theorem totalErrors_addError (log : ErrorLog) (e : SourceError) :
    (log.addError e).totalErrors = log.totalErrors + 1 := rfl

end ErrorLog

end ScriptKit
