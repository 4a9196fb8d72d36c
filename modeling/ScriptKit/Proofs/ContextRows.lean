import Mathlib.Order.Bounds.Defs
import ScriptKit.Proofs.Drawing

/-! Which rows are drawn around a token. They are the nearest rows with tokens above and below it,
and its own with the carets under it, each once. The only exception is the last row that a span can
name: if it holds tokens it is found again as the row below itself, and drawn twice. -/
namespace ScriptKit
namespace Diagnostic

def Populated (tokens : List Token) (row : Nat) : Prop :=
  ∃ u ∈ tokens, u.kind ≠ .eof ∧ u.row = row

/-- The nearest row with tokens above a row, if there is one. -/
def IsRowAbove (tokens : List Token) (row : Nat) (above : Option Nat) : Prop :=
  ∀ r, above = some r ↔ IsGreatest {r | Populated tokens r ∧ r < row} r

def IsRowBelow (tokens : List Token) (row : Nat) (below : Option Nat) : Prop :=
  ∀ r, below = some r ↔ IsLeast {r | Populated tokens r ∧ row < r} r

section Rows

variable {tokens : List Token} {row : Nat}

theorem mem_populatedRows : row ∈ populatedRows tokens ↔ Populated tokens row := by
  simp [populatedRows, Populated, Token.isEof, and_assoc]

theorem isRowAbove_rowBefore? : IsRowAbove tokens row (rowBefore? tokens row) := by
  intro r
  rw [rowBefore?, List.max?_eq_some_iff]
  simp [IsGreatest, upperBounds, mem_populatedRows]

theorem IsRowAbove.unique {above above' : Option Nat} (h : IsRowAbove tokens row above)
    (h' : IsRowAbove tokens row above') : above = above' :=
  Option.ext fun r => (h r).trans (h' r).symm

theorem IsRowBelow.unique {below below' : Option Nat} (h : IsRowBelow tokens row below)
    (h' : IsRowBelow tokens row below') : below = below' :=
  Option.ext fun r => (h r).trans (h' r).symm

theorem isRowBelow_rowAfter? (h : row < maxCoordinate) :
    IsRowBelow tokens row (rowAfter? tokens row) := by
  have hstart : searchStart row = row + 1 := Nat.min_eq_left h
  intro r
  rw [rowAfter?, hstart, List.min?_eq_some_iff]
  simp only [List.mem_filter, decide_eq_true_eq, Nat.succ_le_iff, mem_populatedRows, IsLeast,
    lowerBounds, Set.mem_ofPred_eq]

/-- The search below the last row finds that row itself, if it holds tokens. -/
theorem rowAfter?_last (h : Populated tokens maxCoordinate) :
    rowAfter? tokens maxCoordinate = some maxCoordinate := by
  have hstart : searchStart maxCoordinate = maxCoordinate := rfl
  rw [rowAfter?, hstart, List.min?_eq_some_iff]
  simp [mem_populatedRows, h]

theorem Populated.le (h : Populated tokens row) : row ≤ maxCoordinate := by
  obtain ⟨u, -, -, rfl⟩ := h
  exact u.row_le

theorem isRowBelow_none : IsRowBelow tokens maxCoordinate none := by
  intro r
  refine iff_of_false (by simp) fun h => ?_
  exact absurd (h.1.1.le) (Nat.not_le_of_lt h.1.2)

theorem rowAfter?_last_eq_none (h : ¬ Populated tokens maxCoordinate) :
    rowAfter? tokens maxCoordinate = none := by
  have hstart : searchStart maxCoordinate = maxCoordinate := rfl
  rw [rowAfter?, hstart, List.min?_eq_none_iff, List.filter_eq_nil_iff]
  intro r hr hle
  have hpopulated := mem_populatedRows.1 hr
  have hlast : r = maxCoordinate := Nat.le_antisymm hpopulated.le (by simpa using hle)
  exact h (hlast ▸ hpopulated)

end Rows

theorem IsRowAbove.pairwise {tokens : List Token} {row : Nat} {above below : Option Nat}
    (habove : IsRowAbove tokens row above) (hbelow : IsRowBelow tokens row below) :
    (above.toList ++ row :: below.toList).Pairwise (· < ·) := by
  have hlow : ∀ r ∈ above.toList, r < row := fun r hr =>
    ((habove r).1 (Option.mem_toList.1 hr)).1.2
  have hhigh : ∀ r ∈ below.toList, row < r := fun r hr =>
    ((hbelow r).1 (Option.mem_toList.1 hr)).1.2
  refine List.pairwise_append.2 ⟨?_, List.pairwise_cons.2 ⟨hhigh, ?_⟩, ?_⟩
  · cases above <;> simp
  · cases below <;> simp
  · intro r hr q hq
    rcases List.mem_cons.1 hq with rfl | hq
    · exact hlow r hr
    · exact Nat.lt_trans (hlow r hr) (hhigh q hq)

/-- What a line between place and message shows: a row, or carets. -/
inductive Line
  | row (n : Nat)
  | carets
deriving DecidableEq, Repr

def Line.chars (palette : Palette) (tokens : List Token) (t : Token) : Line → List Char
  | row n => rowLine tokens n
  | carets => caretLine palette t

def linesOf (t : Token) (row : Nat) : List Line := .row row :: if row = t.row then [.carets] else []

/-- The row above, the token's own row, the carets, and the row below. -/
def contextLines (above : Option Nat) (row : Nat) (below : Option Nat) : List Line :=
  above.toList.map .row ++ [.row row, .carets] ++ below.toList.map .row

theorem flatMap_linesOf {t : Token} {other : Option Nat} (h : ∀ r, other = some r → r ≠ t.row) :
    other.toList.flatMap (linesOf t) = other.toList.map .row := by
  cases other with
  | none => rfl
  | some r => simp [linesOf, h r rfl]

end Diagnostic

namespace Collector

open Diagnostic

/-- The lines that a collector draws for a token, whatever the message. -/
def Shows (c : Collector) (t : Token) (lines : List Line) : Prop :=
  ∀ message, c.render t message = String.ofList (placeLine c.palette c.file t ++ ['\n', '\n'] ++
    lines.flatMap (fun line => line.chars c.palette c.tokens t ++ ['\n']) ++ message.toList)

variable {c : Collector} {t : Token}

theorem shows_contextRows (c : Collector) (t : Token) :
    c.Shows t ((contextRows c.tokens t.row).flatMap (linesOf t)) := by
  have hrow : drawRow c.palette c.tokens t = fun row =>
      (linesOf t row).flatMap fun line => line.chars c.palette c.tokens t ++ ['\n'] := by
    funext row
    by_cases h : row = t.row <;> simp [drawRow, linesOf, Line.chars, h]
  intro message
  rw [render, Diagnostic.render, List.flatMap_assoc, hrow]

theorem Shows.not_append {lines : List Line} {line : Line} {rest : List Line}
    (h : c.Shows t (lines ++ line :: rest)) : ¬ c.Shows t lines := by
  intro hfewer
  have heq := congrArg List.length (String.ofList_injective ((h "").symm.trans (hfewer "")))
  simp at heq

theorem shows_rowBefore? (c : Collector) (t : Token) :
    c.Shows t ((rowBefore? c.tokens t.row).toList.map .row ++ [.row t.row, .carets] ++
      (rowAfter? c.tokens t.row).toList.flatMap (linesOf t)) := by
  have habove : ∀ r, rowBefore? c.tokens t.row = some r → r ≠ t.row := fun r hr =>
    Nat.ne_of_lt (lt_of_mem_rowBefore? hr)
  have hself : linesOf t t.row = [.row t.row, .carets] := by simp [linesOf]
  have hlines := c.shows_contextRows t
  rwa [contextRows, List.flatMap_append, List.flatMap_cons, flatMap_linesOf habove, hself,
    ← List.append_assoc] at hlines

theorem shows_contextLines (hbelow : IsRowBelow c.tokens t.row (rowAfter? c.tokens t.row)) :
    c.Shows t (contextLines (rowBefore? c.tokens t.row) t.row (rowAfter? c.tokens t.row)) := by
  have hne : ∀ r, rowAfter? c.tokens t.row = some r → r ≠ t.row := fun r hr =>
    Nat.ne_of_gt ((hbelow r).1 hr).1.2
  have hlines := c.shows_rowBefore? t
  rwa [flatMap_linesOf hne] at hlines

theorem shows_last_twice (hlast : t.row = maxCoordinate) (h : Populated c.tokens maxCoordinate) :
    c.Shows t (contextLines (rowBefore? c.tokens t.row) t.row none ++ [.row t.row, .carets]) := by
  have hafter : (rowAfter? c.tokens t.row).toList.flatMap (linesOf t) = [.row t.row, .carets] := by
    rw [hlast, rowAfter?_last h]
    simp [linesOf, hlast]
  have hlines := c.shows_rowBefore? t
  rw [hafter] at hlines
  simpa [contextLines] using hlines

/-- The rows drawn for a token are the nearest row with tokens above its own, its own, and the
nearest one below, in ascending order, with one line of carets, right under its own row. This fails
exactly if the token is on the last row that a span can name and that row holds tokens: then there
is no row below, and row and carets are drawn twice. -/
theorem shows_context_iff (c : Collector) (t : Token) :
    ∃ above below, IsRowAbove c.tokens t.row above ∧ IsRowBelow c.tokens t.row below ∧
      (above.toList ++ t.row :: below.toList).Pairwise (· < ·) ∧
      (c.Shows t (contextLines above t.row below) ↔
        ¬ (t.row = maxCoordinate ∧ Populated c.tokens maxCoordinate)) ∧
      (t.row = maxCoordinate ∧ Populated c.tokens maxCoordinate →
        below = none ∧ c.Shows t (contextLines above t.row none ++ [.row t.row, .carets])) := by
  have habove : IsRowAbove c.tokens t.row (rowBefore? c.tokens t.row) := isRowAbove_rowBefore?
  by_cases hlast : t.row = maxCoordinate ∧ Populated c.tokens maxCoordinate
  · have hbelow : IsRowBelow c.tokens t.row none := hlast.1 ▸ isRowBelow_none
    have htwice := shows_last_twice hlast.1 hlast.2
    exact ⟨_, none, habove, hbelow, habove.pairwise hbelow,
      iff_of_false htwice.not_append (not_not_intro hlast), fun _ => ⟨rfl, htwice⟩⟩
  · have hbelow : IsRowBelow c.tokens t.row (rowAfter? c.tokens t.row) := by
      rcases Nat.lt_or_eq_of_le t.row_le with hlt | heq
      · exact isRowBelow_rowAfter? hlt
      · have hnone := rowAfter?_last_eq_none fun h => hlast ⟨heq, h⟩
        rw [heq, hnone]
        exact isRowBelow_none
    exact ⟨_, _, habove, hbelow, habove.pairwise hbelow,
      iff_of_true (shows_contextLines hbelow) hlast, fun h => absurd h hlast⟩

/-- Names on rows apart, two of them on the last row that a span can name. -/
def scattered : List Token :=
  [⟨.identifier, "a", .point 2 1⟩, ⟨.identifier, "b", .point 4 1⟩, ⟨.identifier, "c", .point 4 3⟩,
   ⟨.identifier, "d", .point 9 1⟩, ⟨.identifier, "x", .point 4294967295 1⟩,
   ⟨.identifier, "y", .point 4294967295 5⟩]

/-- Between other rows a name is drawn with both of them, and on the last row twice. -/
theorem shows_context_iff_scattered :
    let c := new "" scattered .plain
    c.Shows ⟨.identifier, "c", .point 4 3⟩ (contextLines (some 2) 4 (some 9)) ∧
      c.Shows ⟨.identifier, "y", .point 4294967295 5⟩
        (contextLines (some 9) 4294967295 none ++ [.row 4294967295, .carets]) := by
  intro c
  constructor
  · obtain ⟨above, below, habove, hbelow, -, hshows, -⟩ :=
      shows_context_iff c ⟨.identifier, "c", .point 4 3⟩
    rw [habove.unique isRowAbove_rowBefore?, hbelow.unique (isRowBelow_rowAfter? (by decide))]
      at hshows
    exact hshows.2 fun h => absurd h.1 (by decide)
  · obtain ⟨above, below, habove, -, -, -, htwice⟩ :=
      shows_context_iff c ⟨.identifier, "y", .point 4294967295 5⟩
    rw [habove.unique isRowAbove_rowBefore?] at htwice
    exact (htwice ⟨rfl, ⟨_, List.mem_of_getElem? (i := 4) rfl, by decide, rfl⟩⟩).2

/-- A name that stands alone on the last row that a span can name. -/
def lastRowName : Token := ⟨.identifier, "x", .point 4294967295 1⟩

/-- There is no row above or below that name, but it is not drawn with one row and one line of
carets. -/
theorem lastRowName_not_shown_once :
    let c := new "" [lastRowName] .plain
    IsRowAbove c.tokens lastRowName.row none ∧ IsRowBelow c.tokens lastRowName.row none ∧
      ¬ c.Shows lastRowName (contextLines none lastRowName.row none) := by
  intro c
  have hnone : rowBefore? c.tokens lastRowName.row = none := by decide
  have hlast : Populated c.tokens maxCoordinate :=
    ⟨lastRowName, List.mem_singleton.2 rfl, by decide, rfl⟩
  have habove : IsRowAbove c.tokens lastRowName.row _ := isRowAbove_rowBefore?
  have htwice : c.Shows lastRowName _ := shows_last_twice rfl hlast
  rw [hnone] at habove htwice
  exact ⟨habove, isRowBelow_none, htwice.not_append⟩

end Collector
end ScriptKit
