import ScriptKit.Json.Basic
import ScriptKit.Report.Log

/-! The JSON forms of spans, errors and logs. -/
namespace ScriptKit

namespace Span

def members (s : Span) : List (String × Json) :=
  [("start_line", .nat s.startLine.toNat), ("start_col", .nat s.startCol.toNat),
   ("end_line", .nat s.endLine.toNat), ("end_col", .nat s.endCol.toNat)]

def toJson (s : Span) : Json := .object s.members

def coordinate? (value : Json) : Option UInt32 := (value.nat? maxCoordinate).map UInt32.ofNat

def ofMembers? (members : List (String × Json)) : Option Span := do
  let startLine ← Json.required? members "start_line" coordinate?
  let startCol ← Json.required? members "start_col" coordinate?
  let endLine ← Json.required? members "end_line" coordinate?
  let endCol ← Json.required? members "end_col" coordinate?
  return ⟨startLine, startCol, endLine, endCol⟩

def ofJson? (value : Json) : Option Span := value.object?.bind ofMembers?

end Span

namespace Severity

def toJson (s : Severity) : Json := .string s.name

def ofJson? (value : Json) : Option Severity := value.string?.bind ofName?

end Severity

namespace Category

def toJson (c : Category) : Json := .string c.name

def ofJson? (value : Json) : Option Category := value.string?.bind ofName?

end Category

namespace ErrorCode

def toJson (code : ErrorCode) : Json := .nat code.number.toNat

def ofJson? (value : Json) : Option ErrorCode :=
  (value.nat? 65535).map fun n => ⟨UInt16.ofNat n⟩

end ErrorCode

namespace SourceError

/-- The span's members stand among the error's own; an absent suggestion is left out. -/
def toJson (e : SourceError) : Json :=
  .object ([("file", .string e.file), ("code", e.code.toJson), ("severity", e.severity.toJson),
      ("category", e.category.toJson), ("message", .string e.message)] ++ e.span.members ++
    [("source_line", .string e.sourceLine)] ++
    Json.memberIf "suggestion" (e.suggestion.map .string))

/-- The category is taken as given, whatever the code. -/
def ofJson? (value : Json) : Option SourceError := do
  let members ← value.object?
  let file ← Json.required? members "file" Json.string?
  let code ← Json.required? members "code" ErrorCode.ofJson?
  let severity ← Json.required? members "severity" Severity.ofJson?
  let category ← Json.required? members "category" Category.ofJson?
  let message ← Json.required? members "message" Json.string?
  let span ← Span.ofMembers? members
  let sourceLine ← Json.required? members "source_line" Json.string?
  let suggestion ← Json.optional? members "suggestion" Json.string?
  return ⟨file, code, severity, category, message, span, sourceLine, suggestion⟩

end SourceError

namespace ErrorLog

def maxTotal : Nat := 0xffffffffffffffff

def total? (value : Json) : Option UInt64 := (value.nat? maxTotal).map UInt64.ofNat

def toJson (log : ErrorLog) : Json :=
  .object
    [("errors", .array (log.errors.map SourceError.toJson)),
     ("warnings", .array (log.warnings.map SourceError.toJson)),
     ("total_errors", .nat log.totalErrors.toNat), ("total_warnings", .nat log.totalWarnings.toNat)]

def listOfJson? (value : Json) : Option (List SourceError) := do
  (← value.array?).mapM SourceError.ofJson?

/-- The totals are taken as given, whatever the lists. -/
def ofJson? (value : Json) : Option ErrorLog := do
  let members ← value.object?
  let errors ← Json.required? members "errors" listOfJson?
  let warnings ← Json.required? members "warnings" listOfJson?
  let totalErrors ← Json.required? members "total_errors" total?
  let totalWarnings ← Json.required? members "total_warnings" total?
  return ⟨errors, warnings, totalErrors, totalWarnings⟩

end ErrorLog

end ScriptKit
