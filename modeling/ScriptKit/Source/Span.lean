/-! Places in a source text. Rows and columns count from one, columns in characters. The counters
have thirty-two bits, and after the greatest number comes zero. -/
namespace ScriptKit

def maxCoordinate : Nat := 4294967295

/-- How far a text has been read: the characters before the place, its row and its column. -/
structure Position where
  offset : Nat
  row : UInt32
  col : UInt32
deriving DecidableEq, Repr

namespace Position

def start : Position := ⟨0, 1, 1⟩

/-- The place after one character: a line feed begins the next row. -/
def next (p : Position) (c : Char) : Position :=
  if c = '\n' then ⟨p.offset + 1, p.row + 1, 1⟩ else ⟨p.offset + 1, p.row, p.col + 1⟩

def advance (p : Position) (cs : List Char) : Position := cs.foldl next p

@[simp] theorem advance_nil (p : Position) : p.advance [] = p := rfl

@[simp] theorem advance_cons (p : Position) (c : Char) (cs : List Char) :
    p.advance (c :: cs) = (p.next c).advance cs := rfl

theorem advance_append (p : Position) (cs ds : List Char) :
    p.advance (cs ++ ds) = (p.advance cs).advance ds := by
  simp [advance, List.foldl_append]

end Position

/-- The stretch from a first to a last character, both included. -/
structure Span where
  startLine : UInt32
  startCol : UInt32
  endLine : UInt32
  endCol : UInt32
deriving DecidableEq, Repr

namespace Span

def point (row col : UInt32) : Span := ⟨row, col, row, col⟩

/-- The stretch between a place and the place after its last character; a stretch that ends at a
line's start keeps column one. -/
def between (first after : Position) : Span :=
  ⟨first.row, first.col, after.row, UInt32.ofNat (max (after.col.toNat - 1) 1)⟩

def row (s : Span) : Nat := s.startLine.toNat

def col (s : Span) : Nat := s.startCol.toNat

def text (s : Span) : String := toString s.row ++ ":" ++ toString s.col

theorem row_le (s : Span) : s.row ≤ maxCoordinate := Nat.le_of_lt_succ s.startLine.toNat_lt

end Span

end ScriptKit
