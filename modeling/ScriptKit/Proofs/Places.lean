import ScriptKit.Source.Span

/-! Where characters stand. The row and the column of a character are numbers without a limit, told
by the characters before it. The counters of a reader are these numbers modulo their size, so that a
stretch is given its true place exactly if the counters can hold it. -/
namespace ScriptKit

/-- One more than the line feeds among the characters. -/
def rowAfter (before : List Char) : Nat := 1 + before.count '\n'

/-- One more than the characters since the last line feed. -/
def colAfter (before : List Char) : Nat := 1 + (before.reverse.takeWhile (· ≠ '\n')).length

structure Place where
  row : Nat
  col : Nat

namespace Place

/-- Rows count before columns. -/
instance : LE Place := ⟨fun p q => p.row < q.row ∨ p.row = q.row ∧ p.col ≤ q.col⟩

instance : LT Place := ⟨fun p q => p.row < q.row ∨ p.row = q.row ∧ p.col < q.col⟩

variable {p q r : Place}

theorem le_def : p ≤ q ↔ p.row < q.row ∨ p.row = q.row ∧ p.col ≤ q.col := Iff.rfl

theorem lt_def : p < q ↔ p.row < q.row ∨ p.row = q.row ∧ p.col < q.col := Iff.rfl

theorem le_refl (p : Place) : p ≤ p := .inr ⟨rfl, Nat.le_refl _⟩

theorem le_trans (hpq : p ≤ q) (hqr : q ≤ r) : p ≤ r := by
  rw [le_def] at *
  omega

theorem le_of_lt (h : p < q) : p ≤ q := h.imp_right fun h => ⟨h.1, Nat.le_of_lt h.2⟩

theorem lt_irrefl (p : Place) : ¬ p < p := by
  rw [lt_def]
  omega

theorem lt_of_lt_of_le (hpq : p < q) (hqr : q ≤ r) : p < r := by
  rw [lt_def, le_def] at *
  omega

end Place

def placeAfter (before : List Char) : Place := ⟨rowAfter before, colAfter before⟩

def Position.place (p : Position) : Place := ⟨p.row.toNat, p.col.toNat⟩

def Span.place (s : Span) : Place := ⟨s.row, s.col⟩

section Forward

variable (before : List Char) {cs : List Char}

theorem rowAfter_append (h : '\n' ∉ cs) : rowAfter (before ++ cs) = rowAfter before := by
  simp [rowAfter, List.count_eq_zero.2 h]

theorem colAfter_append (h : '\n' ∉ cs) :
    colAfter (before ++ cs) = colAfter before + cs.length := by
  have hrun : ∀ c ∈ cs.reverse, (decide (c ≠ '\n')) = true := by
    intro c hc
    have hmem : c ∈ cs := List.mem_reverse.1 hc
    exact decide_eq_true fun he => h (he ▸ hmem)
  rw [colAfter, colAfter, List.reverse_append, List.takeWhile_append_of_pos hrun,
    List.length_append, List.length_reverse]
  omega

theorem rowAfter_lt_append (h : '\n' ∈ cs) : rowAfter before < rowAfter (before ++ cs) := by
  have hcount := List.count_pos_iff.2 h
  rw [rowAfter, rowAfter, List.count_append]
  omega

theorem rowAfter_le_of_prefix {before : List Char} (h : before <+: cs) :
    rowAfter before ≤ rowAfter cs :=
  Nat.add_le_add_left (h.sublist.count_le '\n') 1

theorem placeAfter_lt_append (hne : cs ≠ []) :
    placeAfter before < placeAfter (before ++ cs) := by
  by_cases h : '\n' ∈ cs
  · exact .inl (rowAfter_lt_append before h)
  · refine .inr ⟨(rowAfter_append before h).symm, ?_⟩
    rw [placeAfter, placeAfter, colAfter_append before h]
    exact Nat.lt_add_of_pos_right (List.length_pos_iff.2 hne)

theorem placeAfter_le_append (cs : List Char) :
    placeAfter before ≤ placeAfter (before ++ cs) := by
  by_cases hne : cs = []
  · rw [hne, List.append_nil]
    exact Place.le_refl _
  · exact Place.le_of_lt (placeAfter_lt_append before hne)

end Forward

section Counters

def positionAfter (before : List Char) : Position :=
  ⟨before.length, UInt32.ofNat (rowAfter before), UInt32.ofNat (colAfter before)⟩

theorem next_positionAfter (before : List Char) (c : Char) :
    (positionAfter before).next c = positionAfter (before ++ [c]) := by
  by_cases hc : c = '\n'
  · simp [positionAfter, Position.next, rowAfter, colAfter, hc, UInt32.add_assoc]
  · have hn : '\n' ∉ [c] := by simpa using Ne.symm hc
    rw [positionAfter, positionAfter, rowAfter_append before hn, colAfter_append before hn,
      Position.next, if_neg hc, List.length_append, UInt32.ofNat_add]
    rfl

theorem advance_positionAfter (before cs : List Char) :
    (positionAfter before).advance cs = positionAfter (before ++ cs) := by
  induction cs generalizing before with
  | nil => simp
  | cons c cs ih =>
    rw [Position.advance_cons, next_positionAfter, ih, List.append_assoc, List.singleton_append]

/-- Counting follows the places modulo the size of the counters, whatever is read. -/
theorem start_advance (cs : List Char) : Position.start.advance cs = positionAfter cs :=
  advance_positionAfter [] cs

/-- The stretch of some characters after others, as counted. -/
def spanAfter (before chars : List Char) : Span :=
  .between (positionAfter before) (positionAfter (before ++ chars))

theorem spanAfter_eq (before : List Char) {chars : List Char} (hn : '\n' ∉ chars) :
    spanAfter before chars =
      ⟨.ofNat (rowAfter before), .ofNat (colAfter before), .ofNat (rowAfter before),
        .ofNat (max ((UInt32.ofNat (colAfter before + chars.length)).toNat - 1) 1)⟩ := by
  rw [spanAfter, Span.between, positionAfter, positionAfter, rowAfter_append before hn,
    colAfter_append before hn]

/-- The stretch of some characters of one row after others, as it is. -/
structure Span.Covers (s : Span) (before chars : List Char) : Prop where
  row : s.row = rowAfter before
  col : s.col = colAfter before
  endRow : s.endLine.toNat = rowAfter before
  endCol : s.endCol.toNat = colAfter before + chars.length - 1

theorem Span.Covers.place {s : Span} {before chars : List Char} (h : s.Covers before chars) :
    s.place = placeAfter before := by
  rw [Span.place, placeAfter, h.row, h.col]

theorem Span.toNat_ofNat_eq_iff {n : Nat} : (UInt32.ofNat n).toNat = n ↔ n < UInt32.size :=
  ⟨fun h => h ▸ (UInt32.ofNat n).toNat_lt_size, UInt32.toNat_ofNat_of_lt'⟩

theorem endCol_spanAfter (before chars : List Char) :
    (spanAfter before chars).endCol.toNat =
      max ((UInt32.ofNat (colAfter (before ++ chars))).toNat - 1) 1 := by
  have hlt := (positionAfter (before ++ chars)).col.toNat_lt_size
  have hsize : 1 < UInt32.size := by decide
  exact UInt32.toNat_ofNat_of_lt' (by omega)

/-- Characters of one row are given their true stretch exactly if the counters can hold the row and
the column after them. -/
theorem covers_spanAfter_iff (before : List Char) {chars : List Char} (hn : '\n' ∉ chars)
    (hne : chars ≠ []) :
    (spanAfter before chars).Covers before chars ↔
      rowAfter before < UInt32.size ∧ colAfter (before ++ chars) < UInt32.size := by
  have hlength : 0 < chars.length := List.length_pos_iff.2 hne
  have hcol : 0 < colAfter before := Nat.lt_add_right _ Nat.one_pos
  have hend := endCol_spanAfter before chars
  rw [colAfter_append before hn] at hend ⊢
  constructor
  · intro h
    refine ⟨Span.toNat_ofNat_eq_iff.1 h.row, ?_⟩
    have hlt := (UInt32.ofNat (colAfter before + chars.length)).toNat_lt_size
    have hsize : 2 < UInt32.size := by decide
    rw [h.endCol] at hend
    omega
  · rintro ⟨hrow, hafter⟩
    rw [Span.toNat_ofNat_eq_iff.2 hafter] at hend
    refine ⟨Span.toNat_ofNat_eq_iff.2 hrow, Span.toNat_ofNat_eq_iff.2 (by omega), ?_, by omega⟩
    exact (congrArg (UInt32.toNat ∘ UInt32.ofNat) (rowAfter_append before hn)).trans
      (Span.toNat_ofNat_eq_iff.2 hrow)

/-- All places on the way through a text are within the counters. -/
def InRange (cs : List Char) : Prop :=
  ∀ before, before <+: cs → rowAfter before < UInt32.size ∧ colAfter before < UInt32.size

theorem InRange.place_positionAfter {cs before : List Char} (h : InRange cs) (hb : before <+: cs) :
    (positionAfter before).place = placeAfter before := by
  obtain ⟨hrow, hcol⟩ := h before hb
  rw [Position.place, placeAfter, positionAfter, Span.toNat_ofNat_eq_iff.2 hrow,
    Span.toNat_ofNat_eq_iff.2 hcol]

theorem inRange_of_length {cs : List Char} (h : cs.length + 1 < UInt32.size) : InRange cs := by
  intro before hbefore
  have hlength := hbefore.length_le
  have hcount : before.count '\n' ≤ before.length := List.count_le_length
  have hrun := (List.takeWhile_sublist (l := before.reverse) (· ≠ '\n')).length_le
  rw [List.length_reverse] at hrun
  rw [rowAfter, colAfter]
  omega

end Counters

end ScriptKit
