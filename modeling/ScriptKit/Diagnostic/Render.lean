import ScriptKit.Token.Basic

/-! Drawing a message against the tokens of a file: the place, the token's row between the nearest
rows that hold tokens, carets under the token, and the message. Rows are drawn from tokens alone. -/
namespace ScriptKit

namespace Diagnostic

structure Palette where
  place : String
  caret : String
  reset : String
deriving DecidableEq, Repr

def Palette.colored : Palette := ⟨"\x1b[1;90m", "\x1b[1;31m", "\x1b[0m"⟩

def Palette.plain : Palette := ⟨"", "", ""⟩

def gutter : Nat := 4

def blanks (n : Nat) : List Char := List.replicate n ' '

def digits (n : Nat) : List Char := Nat.toDigits 10 n

/-- The tokens of a row in stream order. End marks belong to no row. -/
def rowTokens (tokens : List Token) (row : Nat) : List Token :=
  tokens.filter fun t => !t.isEof && t.row = row

def populatedRows (tokens : List Token) : List Nat := (tokens.filter (!·.isEof)).map Token.row

/-- Puts tokens at their columns, the place of writing being at `cursor`. -/
def layOutFrom (cursor : Nat) : List Token → List Char
  | [] => []
  | t :: rest =>
    blanks (t.col - cursor) ++ t.written ++ layOutFrom (t.col + t.written.length) rest

/-- The text of a row, rebuilt from its tokens; writing begins at column zero. -/
def rowText (tokens : List Token) : List Char := layOutFrom 0 tokens

/-- The row at which the search below a row begins; the last row that a span can name has none
below it and begins at itself. -/
def searchStart (row : Nat) : Nat := min (row + 1) maxCoordinate

def rowBefore? (tokens : List Token) (row : Nat) : Option Nat :=
  ((populatedRows tokens).filter (· < row)).max?

def rowAfter? (tokens : List Token) (row : Nat) : Option Nat :=
  ((populatedRows tokens).filter (searchStart row ≤ ·)).min?

def contextRows (tokens : List Token) (row : Nat) : List Nat :=
  (rowBefore? tokens row).toList ++ row :: (rowAfter? tokens row).toList

def rowLine (tokens : List Token) (row : Nat) : List Char :=
  digits row ++ blanks gutter ++ rowText (rowTokens tokens row)

/-- Blanks up to a token's column and carets as wide as its text, at least one. -/
def caretLine (palette : Palette) (t : Token) : List Char :=
  blanks ((digits t.row).length + gutter + t.col) ++ palette.caret.toList ++
    List.replicate (max t.width 1) '^' ++ palette.reset.toList

def drawRow (palette : Palette) (tokens : List Token) (t : Token) (row : Nat) : List Char :=
  rowLine tokens row ++ '\n' :: if row = t.row then caretLine palette t ++ ['\n'] else []

def placeLine (palette : Palette) (file : String) (t : Token) : List Char :=
  palette.place.toList ++ file.toList ++ ':' :: digits t.row ++ ':' :: digits t.col ++
    ':' :: palette.reset.toList

def render (palette : Palette) (file : String) (tokens : List Token) (t : Token)
    (message : String) : String :=
  String.ofList (placeLine palette file t ++ ['\n', '\n'] ++
    (contextRows tokens t.row).flatMap (drawRow palette tokens t) ++ message.toList)

end Diagnostic

end ScriptKit
