import ScriptKit.Report.Log
import ScriptKit.Source.File
import ScriptKit.Token.Basic
import ScriptKit.Token.Piece

/-! Reading a source text into tokens and errors. The text is cut into pieces, the pieces are laid
out over rows and columns, and each is a token, an error, both, or nothing. -/
namespace ScriptKit

inductive LexFault
  | unexpected (c : Char)
  | unterminated
deriving DecidableEq, Repr

namespace LexFault

def code : LexFault → ErrorCode
  | unexpected _ => .unexpectedToken
  | unterminated => .unterminated

def message : LexFault → String
  | unexpected c => "Unexpected character '" ++ c.toString ++ "'"
  | unterminated => "Unterminated string literal"

/-- Half of a logical operator is named in full; a string wants its quote. -/
def suggestion? : LexFault → Option String
  | unexpected c =>
    if c = '&' ∨ c = '|' then
      some ("Use '" ++ String.ofList [c, c] ++ "' for the logical operator")
    else none
  | unterminated => some "Close the string with '\"' on the same line"

end LexFault

namespace Piece

def fault? : Piece → Option LexFault
  | rejected c => some (.unexpected c)
  | unclosed _ => some .unterminated
  | _ => none

/-- Kind and text of the token that a piece yields; an unclosed string is a string still. -/
def content? : Piece → Option (TokenKind × List Char)
  | lexeme kind text => some (kind, text)
  | unclosed text => some (.string, text)
  | _ => none

end Piece

/-- The pieces that are read when reading ends at the `n`-th fault. After a rejected character the
trivia that follow are still read, after an unclosed string nothing is. -/
def untilFault : Nat → List Piece → List Piece
  | 0, _ => []
  | _ + 1, [] => []
  | 1, .rejected c :: rest => .rejected c :: rest.takeWhile Piece.isTrivia
  | n + 1, p :: rest => p :: untilFault (if p.fault?.isSome then n else n + 1) rest

/-- A piece with the places at which it begins and after which it ends. -/
structure Placed where
  piece : Piece
  first : Position
  after : Position
deriving DecidableEq, Repr

namespace Placed

def span (p : Placed) : Span := .between p.first p.after

def token? (p : Placed) : Option Token :=
  p.piece.content?.map fun (kind, text) => ⟨kind, String.ofList text, p.span⟩

def error? (file : SourceFile) (p : Placed) : Option SourceError :=
  p.piece.fault?.map fun fault =>
    .ofCode file.name fault.code fault.message p.span (file.lineOrEmpty p.span.row)
      fault.suggestion?

end Placed

def layOut (p : Position) : List Piece → List Placed
  | [] => []
  | piece :: rest =>
    let after := p.advance piece.chars
    ⟨piece, p, after⟩ :: layOut after rest

/-- The tokens of a text, an end mark last, and the errors met on the way. -/
structure Lexed where
  tokens : List Token
  errors : ErrorLog
deriving DecidableEq, Repr

namespace SourceFile

def readPieces (file : SourceFile) : List Piece := untilFault maxErrors (pieces file.text.toList)

def consumed (file : SourceFile) : List Char := file.readPieces.flatMap Piece.chars

def endPosition (file : SourceFile) : Position := Position.start.advance file.consumed

def placedPieces (file : SourceFile) : List Placed := layOut .start file.readPieces

/-- Reads the whole text, or as much as precedes the end of reading. -/
def lex (file : SourceFile) : Lexed where
  tokens := file.placedPieces.filterMap Placed.token? ++
    [.endAt file.endPosition.row file.endPosition.col]
  errors := .ofLists (file.placedPieces.filterMap (Placed.error? file)) []

end SourceFile

end ScriptKit
