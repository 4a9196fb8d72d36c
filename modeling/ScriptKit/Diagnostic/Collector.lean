import ScriptKit.Descriptor.Compatible
import ScriptKit.Diagnostic.Render
import ScriptKit.Json.Printer
import ScriptKit.Report.Json
import ScriptKit.Table

/-! Diagnostics of one file, ordered by their drawn text and without repetition. -/
namespace ScriptKit

structure Diagnostic where
  code : Option ErrorCode
  severity : Severity
  file : String
  row : UInt32
  col : UInt32
  message : String
  rendered : String
deriving DecidableEq, Repr

namespace Diagnostic

def toJson (d : Diagnostic) : Json :=
  .object (Json.memberIf "code" (d.code.map ErrorCode.toJson) ++
    [("severity", d.severity.toJson), ("file", .string d.file), ("row", .nat d.row.toNat),
     ("col", .nat d.col.toNat), ("message", .string d.message), ("rendered", .string d.rendered)])

def ofJson? (value : Json) : Option Diagnostic := do
  let members ← value.object?
  let code ← Json.optional? members "code" ErrorCode.ofJson?
  let severity ← Json.required? members "severity" Severity.ofJson?
  let file ← Json.required? members "file" Json.string?
  let row ← Json.required? members "row" Span.coordinate?
  let col ← Json.required? members "col" Span.coordinate?
  let message ← Json.required? members "message" Json.string?
  let rendered ← Json.required? members "rendered" Json.string?
  return ⟨code, severity, file, row, col, message, rendered⟩

end Diagnostic

structure Collector where
  file : String
  tokens : List Token
  palette : Diagnostic.Palette
  found : Table String Diagnostic

namespace Collector

def new (file : String) (tokens : List Token) (palette : Diagnostic.Palette) : Collector :=
  ⟨file, tokens, palette, .empty⟩

def diagnostics (c : Collector) : List Diagnostic := c.found.values

def size (c : Collector) : Nat := c.found.size

def isEmpty (c : Collector) : Bool := c.found.isEmpty

def render (c : Collector) (t : Token) (message : String) : String :=
  Diagnostic.render c.palette c.file c.tokens t message

def diagnose (c : Collector) (code : Option ErrorCode) (t : Token) (message : String) :
    Diagnostic :=
  ⟨code, .error, c.file, t.span.startLine, t.span.startCol, message, c.render t message⟩

/-- Records a diagnostic unless one with the same drawn text is there; says whether it did. -/
def add (c : Collector) (d : Diagnostic) : Collector × Bool :=
  if c.found.contains d.rendered then (c, false)
  else ({ c with found := c.found.insert d.rendered d }, true)

def report (c : Collector) (code : Option ErrorCode) (t : Token) (message : String) :
    Collector × Bool :=
  c.add (c.diagnose code t message)

/-- The first token that starts where a span does, else an end mark at that place. -/
def anchor (c : Collector) (span : Span) : Token :=
  (c.tokens.find? fun t => t.row = span.row && t.col = span.col).getD
    (.endAt span.startLine span.startCol)

/-- Records the errors that a log keeps, each at its anchor; counts those that were new. -/
def absorb (c : Collector) (log : ErrorLog) : Collector × Nat :=
  log.errors.foldl (fun (c, count) e =>
    let (c, new) := c.report (some e.code) (c.anchor e.span) e.message
    (c, if new then count + 1 else count)) (c, 0)

/-- Records a mismatch of two types at a token; says whether the types fit. -/
def checkDeclared (c : Collector) (t : Token) (declared inferred : Descriptor) :
    Collector × Bool :=
  match declared.check inferred with
  | .ok () => (c, true)
  | .error e => ((c.report (some .typeMismatch) t e.message).1, false)

def toJson (c : Collector) : Json := .array (c.diagnostics.map Diagnostic.toJson)

def jsonText (c : Collector) : String := c.toJson.pretty

end Collector

end ScriptKit
