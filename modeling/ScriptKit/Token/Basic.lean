import ScriptKit.Source.Span

/-! The words, signs and kinds of token of the language, and tokens: a kind, the text without the
quotes of a string, and the stretch of source. -/
namespace ScriptKit

inductive Keyword
  | let_ | const | struct | enum | if_ | else_ | match_ | fn | for_ | in_ | while_ | import_
  | return_ | skip | true_ | false_
deriving DecidableEq, Repr

namespace Keyword

def all : List Keyword :=
  [let_, const, struct, enum, if_, else_, match_, fn, for_, in_, while_, import_, return_, skip,
   true_, false_]

def text : Keyword → String
  | let_ => "let"
  | const => "const"
  | struct => "struct"
  | enum => "enum"
  | if_ => "if"
  | else_ => "else"
  | match_ => "match"
  | fn => "fn"
  | for_ => "for"
  | in_ => "in"
  | while_ => "while"
  | import_ => "import"
  | return_ => "return"
  | skip => "skip"
  | true_ => "true"
  | false_ => "false"

def ofText? (s : String) : Option Keyword := all.find? (·.text = s)

@[simp] theorem ofText?_text (k : Keyword) : ofText? k.text = some k := by cases k <;> decide

theorem text_of_ofText? {s : String} {k : Keyword} (h : ofText? s = some k) : k.text = s := by
  simpa using List.find?_some h

end Keyword

inductive Symbol
  | plus | minus | times | divide | modulo | increment | decrement
  | plusAssign | minusAssign | timesAssign | divideAssign | moduloAssign
  | equal | notEqual | logicalNot | less | greater | lessEqual | greaterEqual
  | logicalAnd | logicalOr | assign | doubleColon | define | arrow | fatArrow | question
  | parenOpen | parenClose | braceOpen | braceClose | bracketOpen | bracketClose
  | comma | colon | dot | range
deriving DecidableEq, Repr

namespace Symbol

def all : List Symbol :=
  [plus, minus, times, divide, modulo, increment, decrement, plusAssign, minusAssign, timesAssign,
   divideAssign, moduloAssign, equal, notEqual, logicalNot, less, greater, lessEqual, greaterEqual,
   logicalAnd, logicalOr, assign, doubleColon, define, arrow, fatArrow, question, parenOpen,
   parenClose, braceOpen, braceClose, bracketOpen, bracketClose, comma, colon, dot, range]

def chars : Symbol → List Char
  | plus => ['+']
  | minus => ['-']
  | times => ['*']
  | divide => ['/']
  | modulo => ['%']
  | increment => ['+', '+']
  | decrement => ['-', '-']
  | plusAssign => ['+', '=']
  | minusAssign => ['-', '=']
  | timesAssign => ['*', '=']
  | divideAssign => ['/', '=']
  | moduloAssign => ['%', '=']
  | equal => ['=', '=']
  | notEqual => ['!', '=']
  | logicalNot => ['!']
  | less => ['<']
  | greater => ['>']
  | lessEqual => ['<', '=']
  | greaterEqual => ['>', '=']
  | logicalAnd => ['&', '&']
  | logicalOr => ['|', '|']
  | assign => ['=']
  | doubleColon => [':', ':']
  | define => [':', '=']
  | arrow => ['-', '>']
  | fatArrow => ['=', '>']
  | question => ['?']
  | parenOpen => ['(']
  | parenClose => [')']
  | braceOpen => ['\x7b']
  | braceClose => ['\x7d']
  | bracketOpen => ['[']
  | bracketClose => [']']
  | comma => [',']
  | colon => [':']
  | dot => ['.']
  | range => ['.', '.']

def text (s : Symbol) : String := String.ofList s.chars

def ofChars? (cs : List Char) : Option Symbol := all.find? (·.chars = cs)

@[simp] theorem ofChars?_chars (s : Symbol) : ofChars? s.chars = some s := by cases s <;> decide

theorem chars_of_ofChars? {cs : List Char} {s : Symbol} (h : ofChars? cs = some s) :
    s.chars = cs := by
  simpa using List.find?_some h

end Symbol

inductive TokenKind
  | int
  | float
  | string
  | identifier
  | keyword (word : Keyword)
  | symbol (sign : Symbol)
  | eof
deriving DecidableEq, Repr

namespace TokenKind

/-- How messages name a kind: fixed spellings stand for themselves. -/
def text : TokenKind → String
  | int => "integer"
  | float => "float"
  | string => "string"
  | identifier => "identifier"
  | keyword word => word.text
  | symbol sign => sign.text
  | eof => "end of file"

def isKeyword : TokenKind → Bool
  | keyword _ => true
  | _ => false

def isLiteral : TokenKind → Bool
  | int | float | string | keyword .true_ | keyword .false_ => true
  | _ => false

end TokenKind

structure Token where
  kind : TokenKind
  text : String
  span : Span
deriving DecidableEq, Repr

namespace Token

def row (t : Token) : Nat := t.span.row

def col (t : Token) : Nat := t.span.col

def width (t : Token) : Nat := t.text.length

/-- The text as it stands in a source: a string is between its quotes. -/
def written (t : Token) : List Char :=
  if t.kind = .string then '"' :: t.text.toList ++ ['"'] else t.text.toList

def endAt (row col : UInt32) : Token := ⟨.eof, "", .point row col⟩

def isEof (t : Token) : Bool := t.kind = .eof

theorem row_le (t : Token) : t.row ≤ maxCoordinate := t.span.row_le

@[simp] theorem isEof_endAt (row col : UInt32) : (endAt row col).isEof = true := rfl

end Token

end ScriptKit
