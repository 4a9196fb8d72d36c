import ScriptKit.Text.Alphabetic
import ScriptKit.Text.Class
import ScriptKit.Token.Basic

/-! Cutting a text into pieces: blanks, comments, lexemes, and what is neither. Positions play no
part here. The pieces put end to end are the text. -/
namespace ScriptKit

def isNameStart (c : Char) : Bool := Text.isAlphabetic c || c = '_'

def isNamePart (c : Char) : Bool := Text.isAlphabetic c || Text.isNumeric c || c = '_'

theorem isNamePart_of_isNameStart {c : Char} (h : isNameStart c = true) : isNamePart c = true := by
  simp only [isNameStart, isNamePart, Bool.or_eq_true] at h ⊢
  exact h.elim (fun h => .inl (.inl h)) .inr

def isStringPart (c : Char) : Bool := c ≠ '"' && c ≠ '\n'

/-- One stretch of a source text. -/
inductive Piece
  /-- A blank character. -/
  | blank (c : Char)
  /-- A number sign and the rest of its line. -/
  | comment (body : List Char)
  /-- A character that begins nothing. -/
  | rejected (c : Char)
  /-- A token; a string's text leaves the quotes out. -/
  | lexeme (kind : TokenKind) (text : List Char)
  /-- A string whose line ends before its closing quote. -/
  | unclosed (text : List Char)
deriving DecidableEq, Repr

namespace Piece

def chars : Piece → List Char
  | blank c => [c]
  | comment body => '#' :: body
  | rejected c => [c]
  | lexeme .string text => '"' :: text ++ ['"']
  | lexeme _ text => text
  | unclosed text => '"' :: text

def isTrivia : Piece → Bool
  | blank _ | comment _ => true
  | _ => false

/-- Digits, and a point between digits if there is one. -/
def readNumber (cs : List Char) : Piece × List Char :=
  let whole := cs.takeWhile Char.isDigit
  match cs.dropWhile Char.isDigit with
  | '.' :: d :: rest =>
    if d.isDigit then
      (lexeme .float (whole ++ '.' :: (d :: rest).takeWhile Char.isDigit),
        (d :: rest).dropWhile Char.isDigit)
    else (lexeme .int whole, '.' :: d :: rest)
  | rest => (lexeme .int whole, rest)

def nameKind (name : List Char) : TokenKind :=
  match Keyword.ofText? (String.ofList name) with
  | some word => .keyword word
  | none => .identifier

def readName (cs : List Char) : Piece × List Char :=
  let name := cs.takeWhile isNamePart
  (lexeme (nameKind name) name, cs.dropWhile isNamePart)

def readString (cs : List Char) : Piece × List Char :=
  let body := cs.takeWhile isStringPart
  match cs.dropWhile isStringPart with
  | '"' :: rest => (lexeme .string body, rest)
  | rest => (unclosed body, rest)

def readSign (c : Char) (cs : List Char) : Piece × List Char :=
  match Symbol.ofChars? [c] with
  | some sign => (lexeme (.symbol sign) [c], cs)
  | none => (rejected c, cs)

/-- The two-character sign that begins with `c`, else the one-character sign. -/
def readSymbol (c : Char) : List Char → Piece × List Char
  | [] => readSign c []
  | d :: rest =>
    match Symbol.ofChars? [c, d] with
    | some sign => (lexeme (.symbol sign) [c, d], rest)
    | none => readSign c (d :: rest)

def read (c : Char) (cs : List Char) : Piece × List Char :=
  if Text.isBlank c then (blank c, cs)
  else if c = '#' then (comment (cs.takeWhile (· ≠ '\n')), cs.dropWhile (· ≠ '\n'))
  else if c = '"' then readString cs
  else if c.isDigit then readNumber (c :: cs)
  else if isNameStart c then readName (c :: cs)
  else readSymbol c cs

theorem chars_readNumber (cs : List Char) :
    (readNumber cs).1.chars ++ (readNumber cs).2 = cs := by
  have h := List.takeWhile_append_dropWhile (p := Char.isDigit) (l := cs)
  simp only [readNumber]
  split
  · rename_i d rest hd
    have hr := List.takeWhile_append_dropWhile (p := Char.isDigit) (l := d :: rest)
    split
    · simp only [chars, List.append_assoc, List.cons_append, hr]
      rw [← hd, h]
    · simp only [chars]
      rw [← hd, h]
  · simpa only [chars] using h

theorem chars_readName (cs : List Char) : (readName cs).1.chars ++ (readName cs).2 = cs := by
  have h := List.takeWhile_append_dropWhile (p := isNamePart) (l := cs)
  simp only [readName, nameKind]
  split <;> simpa only [chars] using h

theorem chars_readString (cs : List Char) :
    (readString cs).1.chars ++ (readString cs).2 = '"' :: cs := by
  have h := List.takeWhile_append_dropWhile (p := isStringPart) (l := cs)
  simp only [readString]
  split
  · rename_i rest hd
    simp only [chars, List.cons_append, List.append_assoc, List.nil_append]
    rw [← hd, h]
  · simp only [chars, List.cons_append]
    rw [h]

theorem chars_readSign (c : Char) (cs : List Char) :
    (readSign c cs).1.chars ++ (readSign c cs).2 = c :: cs := by
  unfold readSign
  split <;> rfl

theorem chars_readSymbol (c : Char) (cs : List Char) :
    (readSymbol c cs).1.chars ++ (readSymbol c cs).2 = c :: cs := by
  cases cs with
  | nil => exact chars_readSign c []
  | cons d rest =>
    rw [readSymbol]
    split
    · rfl
    · exact chars_readSign c (d :: rest)

/-- Nothing is lost and nothing repeated. -/
theorem chars_read (c : Char) (cs : List Char) :
    (read c cs).1.chars ++ (read c cs).2 = c :: cs := by
  unfold read
  split
  · rfl
  split
  · rename_i h
    simp only [chars, List.cons_append, List.takeWhile_append_dropWhile, h]
  split
  · rename_i h
    rw [chars_readString, h]
  split
  · exact chars_readNumber _
  split
  · exact chars_readName _
  · exact chars_readSymbol _ _

theorem chars_readNumber_ne_nil {c : Char} (hc : c.isDigit = true) (cs : List Char) :
    (readNumber (c :: cs)).1.chars ≠ [] := by
  simp only [readNumber]
  split
  · split <;> simp [chars, hc]
  · simp [chars, hc]

theorem chars_readName_ne_nil {c : Char} (hc : isNamePart c = true) (cs : List Char) :
    (readName (c :: cs)).1.chars ≠ [] := by
  simp only [readName, nameKind]
  split <;> simp [chars, hc]

theorem chars_readString_ne_nil (cs : List Char) : (readString cs).1.chars ≠ [] := by
  simp only [readString]
  split <;> simp [chars]

theorem chars_readSign_ne_nil (c : Char) (cs : List Char) : (readSign c cs).1.chars ≠ [] := by
  unfold readSign
  split <;> simp [chars]

theorem chars_readSymbol_ne_nil (c : Char) (cs : List Char) : (readSymbol c cs).1.chars ≠ [] := by
  cases cs with
  | nil => exact chars_readSign_ne_nil c []
  | cons d rest =>
    rw [readSymbol]
    split
    · simp [chars]
    · exact chars_readSign_ne_nil c _

theorem chars_read_ne_nil (c : Char) (cs : List Char) : (read c cs).1.chars ≠ [] := by
  unfold read
  split
  · simp [chars]
  split
  · simp [chars]
  split
  · exact chars_readString_ne_nil _
  split
  · exact chars_readNumber_ne_nil ‹_› _
  split
  · exact chars_readName_ne_nil (isNamePart_of_isNameStart ‹_›) _
  · exact chars_readSymbol_ne_nil _ _

theorem length_read (c : Char) (cs : List Char) : (read c cs).2.length < (c :: cs).length := by
  have h := congrArg List.length (chars_read c cs)
  have hp := List.length_pos_iff.2 (chars_read_ne_nil c cs)
  simp only [List.length_append] at h
  omega

end Piece

def pieces : List Char → List Piece
  | [] => []
  | c :: cs => (Piece.read c cs).1 :: pieces (Piece.read c cs).2
termination_by cs => cs.length
decreasing_by exact Piece.length_read c cs

@[simp] theorem pieces_nil : pieces [] = [] := by rw [pieces]

theorem pieces_cons (c : Char) (cs : List Char) :
    pieces (c :: cs) = (Piece.read c cs).1 :: pieces (Piece.read c cs).2 := by rw [pieces]

theorem flatMap_chars_pieces (cs : List Char) : (pieces cs).flatMap Piece.chars = cs := by
  fun_induction pieces cs with
  | case1 => rfl
  | case2 c cs ih => rw [List.flatMap_cons, ih, Piece.chars_read]

end ScriptKit
