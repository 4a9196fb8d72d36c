import ScriptKit.Descriptor.Basic
import ScriptKit.Token.Lexer

/-! Reading type descriptors from tokens and from text. A type is a bracketed size before an
element type, the word `map` with or without its two sides, or a name with or without an element
type in parentheses. -/
namespace ScriptKit

def maxTypeDepth : Nat := 64

def tooDeepMessage : String := "type nesting exceeds " ++ toString maxTypeDepth ++ " levels"

inductive TypeFault
  | tooDeep
  | noType (found : String)
  | mapElement (map : Descriptor)
  | missing (expected found : TokenKind)
  | trailing (found : String)
deriving DecidableEq, Repr

namespace TypeFault

def code : TypeFault → ErrorCode
  | tooDeep | noType _ | mapElement _ => .unknownType
  | missing _ _ | trailing _ => .unexpectedToken

def message : TypeFault → String
  | tooDeep => tooDeepMessage
  | noType found => "expected type, got '" ++ found ++ "'"
  | mapElement map => "`" ++ map.text ++ "` cannot be used as an element type"
  | missing expected found => "expected '" ++ expected.text ++ "', got '" ++ found.text ++ "'"
  | trailing found => "unexpected '" ++ found ++ "' after type"

end TypeFault

namespace Descriptor

abbrev Fault := TypeFault × Span

abbrev Reader := List Token → Except Fault (Descriptor × List Token)

def nextSpan (stop : Span) : List Token → Span
  | [] => stop
  | t :: _ => t.span

def expect (stop : Span) (kind : TokenKind) : List Token → Except Fault (List Token)
  | [] => .error (.missing kind .eof, stop)
  | t :: rest => if t.kind = kind then .ok rest else .error (.missing kind t.kind, t.span)

def readSize : List Token → Option String × List Token
  | [] => (none, [])
  | t :: rest => if t.kind = .int then (some t.text, rest) else (none, t :: rest)

/-- Narrows a type to an element type: a map is refused at its first token. -/
def readElement (stop : Span) (readType : Reader) (ts : List Token) :
    Except Fault (NodeType × List Token) := do
  match ← readType ts with
  | (.node n, rest) => return (n, rest)
  | (.map key value, _) => throw (.mapElement (.map key value), nextSpan stop ts)

/-- A side of a map, left out if its closing sign comes at once. -/
def readSide (closing : Symbol) (readType : Reader) :
    List Token → Except Fault (Option Descriptor × List Token)
  | [] => (readType []).map fun (d, rest) => (some d, rest)
  | t :: rest =>
    if t.kind = .symbol closing then .ok (none, t :: rest)
    else (readType (t :: rest)).map fun (d, rest) => (some d, rest)

def readArray (stop : Span) (readType : Reader) (ts : List Token) :
    Except Fault (Descriptor × List Token) := do
  let (size, ts) := readSize ts
  let ts ← expect stop (.symbol .bracketClose) ts
  let (child, ts) ← readElement stop readType ts
  return (.node (.array size child), ts)

/-- The sides of a map between parentheses, which may be missing with them. -/
def readMap (stop : Span) (readType : Reader) :
    List Token → Except Fault (Descriptor × List Token)
  | [] => .ok (.map none none, [])
  | t :: rest =>
    if t.kind = .symbol .parenOpen then do
      let (key, ts) ← readSide .comma readType rest
      let ts ← expect stop (.symbol .comma) ts
      let (value, ts) ← readSide .parenClose readType ts
      let ts ← expect stop (.symbol .parenClose) ts
      return (.map key value, ts)
    else .ok (.map none none, t :: rest)

def readNamed (stop : Span) (readType : Reader) (kind : String) :
    List Token → Except Fault (Descriptor × List Token)
  | [] => .ok (.node (.scalar kind), [])
  | t :: rest =>
    if t.kind = .symbol .parenOpen then do
      let (child, ts) ← readElement stop readType rest
      let ts ← expect stop (.symbol .parenClose) ts
      return (.node (.container kind none child), ts)
    else .ok (.node (.scalar kind), t :: rest)

/-- Reads a type that may nest so many levels. -/
def readType (stop : Span) : Nat → Reader
  | 0, ts => .error (.tooDeep, nextSpan stop ts)
  | _ + 1, [] => .error (.noType TokenKind.eof.text, stop)
  | levels + 1, t :: rest =>
    match t.kind with
    | .symbol .bracketOpen => readArray stop (readType stop levels) rest
    | .identifier =>
      if t.text = mapKind then readMap stop (readType stop levels) rest
      else readNamed stop (readType stop levels) t.text rest
    | _ => .error (.noType t.text, t.span)

def content (tokens : List Token) : List Token := tokens.takeWhile (!·.isEof)

/-- Where the content ends: at the first end mark, else at the last token. -/
def endSpan (tokens : List Token) : Span :=
  match tokens.find? (·.isEof) with
  | some mark => mark.span
  | none => (tokens.getLast?.map (·.span)).getD (.point 1 1)

structure Parsed where
  type? : Option Descriptor
  errors : ErrorLog
deriving DecidableEq, Repr

def faultLog (file : SourceFile) (fault : Fault) : ErrorLog :=
  .ofLists [.ofCode file.name fault.1.code fault.1.message fault.2
    (file.lineOrEmpty fault.2.row) none] []

/-- Reads all tokens as one type. Tokens after a whole type are an error beside the type. -/
def parse (file : SourceFile) (tokens : List Token) : Parsed :=
  match readType (endSpan tokens) maxTypeDepth (content tokens) with
  | .error fault => ⟨none, faultLog file fault⟩
  | .ok (d, []) => ⟨some d, .empty⟩
  | .ok (d, t :: _) => ⟨some d, faultLog file (.trailing t.text, t.span)⟩

def typeFileName : String := "<type>"

/-- Reads a text as one type; the errors of both stages are reported. -/
def ofText (text : String) : Except ErrorLog Descriptor :=
  let file : SourceFile := ⟨typeFileName, text⟩
  let lexed := file.lex
  let parsed := parse file lexed.tokens
  let errors := lexed.errors ++ parsed.errors
  match parsed.type? with
  | some d => if errors.hasErrors then .error errors else .ok d
  | none => .error errors

def reread (d : Descriptor) : Except ErrorLog Descriptor := ofText d.text

end Descriptor

def NodeType.ofText (text : String) : Except ErrorLog NodeType := do
  match ← Descriptor.ofText text with
  | .node n => return n
  | .map key value =>
    throw (.ofLists [.ofCode Descriptor.typeFileName .typeMismatch
      ("expected an element or scalar type, found `" ++ (Descriptor.map key value).text ++ "`")
      (.point 1 1) text none] [])

end ScriptKit
