import Mathlib.Data.List.TakeWhile
import ScriptKit.Proofs.SourceLines

/-! Lines as slices of bytes. Every line up to the last is found, whatever characters the text
holds: the bytes that the table of line starts asks for lie in the text, in order, and they begin
and end between characters. -/
namespace ScriptKit

namespace Text

theorem byteLength_eq_size (cs : List Char) : byteLength cs = cs.utf8Encode.size := by
  induction cs with
  | nil => rfl
  | cons c cs ih =>
    rw [byteLength_cons, List.utf8Encode_cons, ByteArray.size_append, List.utf8Encode_singleton, ih]
    simp

/-- The bytes of a text from one offset to another are those of the given characters. Both offsets
lie in the text, in order, and neither of them inside a character. -/
structure IsSlice (text : String) (first stop : Nat) (slice : List Char) : Prop where
  ordered : first ≤ stop
  inside : stop ≤ text.utf8ByteSize
  firstBetween : String.Pos.Raw.IsValid text ⟨first⟩
  stopBetween : String.Pos.Raw.IsValid text ⟨stop⟩
  bytes : text.toByteArray.extract first stop = slice.utf8Encode

variable {text : String} {before slice after : List Char}

theorem isValid_byteLength (h : text.toList = before ++ after) :
    String.Pos.Raw.IsValid text ⟨byteLength before⟩ := by
  apply String.Pos.Raw.isValid_iff_exists_append.2
  refine ⟨String.ofList before, String.ofList after, ?_, ?_⟩
  · rw [← String.ofList_append, ← h, String.ofList_toList]
  · rw [byteLength_eq_size, ← String.toByteArray_ofList]
    rfl

theorem isSlice_append (h : text.toList = before ++ (slice ++ after)) :
    IsSlice text (byteLength before) (byteLength before + byteLength slice) slice := by
  have hstop : String.Pos.Raw.IsValid text ⟨byteLength before + byteLength slice⟩ := by
    rw [← byteLength_append]
    exact isValid_byteLength (h.trans (List.append_assoc ..).symm)
  have hbytes : text.toByteArray = before.utf8Encode ++ (slice.utf8Encode ++ after.utf8Encode) := by
    rw [← String.utf8Encode_toList, h, List.utf8Encode_append, List.utf8Encode_append]
  refine ⟨Nat.le_add_right .., hstop.le_utf8ByteSize, isValid_byteLength h, hstop, ?_⟩
  rw [hbytes, byteLength_eq_size, byteLength_eq_size]
  exact (ByteArray.extract_append_size_add (i := 0)).trans (ByteArray.extract_append_eq_left rfl)

end Text

namespace SourceFile

/-- A piece is the line and carriage returns after it, all that there are. -/
def WithoutReturns (piece line : List Char) : Prop :=
  (∃ k, piece = line ++ List.replicate k '\r') ∧ line.getLast? ≠ some '\r'

theorem withoutReturns_dropReturns (piece : List Char) :
    WithoutReturns piece (dropReturns piece) := by
  constructor
  · have hreturns : ∀ c ∈ piece.reverse.takeWhile (· = '\r'), c = '\r' := by
      intro c hc
      simpa using List.mem_takeWhile_imp hc
    refine ⟨(piece.reverse.takeWhile (· = '\r')).length, ?_⟩
    calc
      piece =
        (piece.reverse.takeWhile (· = '\r') ++ piece.reverse.dropWhile (· = '\r')).reverse := by
        rw [List.takeWhile_append_dropWhile, List.reverse_reverse]
      _ = dropReturns piece ++ (piece.reverse.takeWhile (· = '\r')).reverse := by
        rw [List.reverse_append, dropReturns]
      _ = dropReturns piece ++ List.replicate _ '\r' := by
        rw [List.eq_replicate_of_mem hreturns, List.reverse_replicate, List.length_replicate]
  · intro hlast
    have hhead := List.head?_dropWhile_not (· = '\r') piece.reverse
    rw [dropReturns, List.getLast?_reverse] at hlast
    rw [hlast] at hhead
    simp at hhead

theorem WithoutReturns.dropReturns_eq {piece line : List Char} (h : WithoutReturns piece line) :
    dropReturns piece = line := by
  obtain ⟨⟨k, rfl⟩, hlast⟩ := h
  have hreturns : ∀ c ∈ List.replicate k '\r', decide (c = '\r') = true := by
    intro c hc
    exact decide_eq_true (List.eq_of_mem_replicate hc)
  have hkeep : line.reverse.dropWhile (· = '\r') = line.reverse := by
    cases hline : line.reverse with
    | nil => rfl
    | cons c cs =>
      have hc : c ≠ '\r' := by
        rintro rfl
        rw [← List.head?_reverse, hline] at hlast
        exact hlast rfl
      exact List.dropWhile_cons_of_neg (by simpa using hc)
  rw [dropReturns, List.reverse_append, List.reverse_replicate,
    List.dropWhile_append_of_pos hreturns, hkeep, List.reverse_reverse]

theorem withoutReturns_iff {piece : List Char} {line : String} :
    WithoutReturns piece line.toList ↔ String.ofList (dropReturns piece) = line := by
  constructor
  · intro h
    rw [h.dropReturns_eq, String.ofList_toList]
  · rintro rfl
    rw [String.toList_ofList]
    exact withoutReturns_dropReturns piece

section Found

variable {file : SourceFile} {n : Nat}

theorem line?_eq_some {line : String} :
    file.line? n = some line ↔
      ∃ piece, 0 < n ∧ (file.text.toList.splitOn '\n')[n - 1]? = some piece ∧
        WithoutReturns piece line.toList := by
  cases n with
  | zero => exact ⟨fun h => (by cases h), fun ⟨_, h, _⟩ => absurd h (Nat.lt_irrefl 0)⟩
  | succ i =>
    rw [line?_succ, Option.map_eq_some_iff]
    simp only [withoutReturns_iff, Nat.add_sub_cancel, Nat.succ_pos, true_and]

/-- The stretches between the line feeds are one more than the line feeds. -/
theorem line?_eq_none_iff :
    file.line? n = none ↔ n = 0 ∨ 1 + file.text.toList.count '\n' < n := by
  cases n with
  | zero => exact ⟨fun _ => .inl rfl, fun _ => rfl⟩
  | succ i =>
    rw [line?_succ, Option.map_eq_none_iff, List.getElem?_eq_none_iff, length_splitOn_newline]
    omega

theorem lineBounds?_eq_none_iff : file.lineBounds? n = none ↔ file.line? n = none := by
  cases n with
  | zero => exact ⟨fun _ => rfl, fun _ => rfl⟩
  | succ i =>
    rw [line?_succ, Option.map_eq_none_iff]
    cases h : (file.text.toList.splitOn '\n')[i]? with
    | none => simp [lineBounds?_succ_eq_none h]
    | some piece =>
      obtain ⟨before, after, -, hbounds⟩ := exists_lineBounds? h
      simp [hbounds]

theorem isSlice_of_lineBounds? {first stop : Nat} (h : file.lineBounds? n = some (first, stop)) :
    ∃ piece, (file.text.toList.splitOn '\n')[n - 1]? = some piece ∧
      Text.IsSlice file.text first stop piece := by
  cases n with
  | zero => cases h
  | succ i =>
    rw [Nat.add_sub_cancel]
    cases hpiece : (file.text.toList.splitOn '\n')[i]? with
    | none =>
      rw [lineBounds?_succ_eq_none hpiece] at h
      cases h
    | some piece =>
      obtain ⟨before, after, htext, hbounds⟩ := exists_lineBounds? hpiece
      rw [hbounds] at h
      cases h
      exact ⟨piece, rfl, Text.isSlice_append htext⟩

end Found

/-- Line `n` is the `n`-th of the pieces into which line feeds split a text, without the carriage
returns at its end. There is none exactly if `n` is zero or passes the number of line feeds by more
than one. Wherever bounds are found there is a line, and the bytes between them are those of its
piece: bounds lie in the text, in order, and between characters. -/
theorem line_split_at_feeds (file : SourceFile) (n : Nat) :
    (∀ line : String, file.line? n = some line ↔
      ∃ piece, 0 < n ∧ (file.text.toList.splitOn '\n')[n - 1]? = some piece ∧
        WithoutReturns piece line.toList) ∧
    (file.line? n = none ↔ n = 0 ∨ 1 + file.text.toList.count '\n' < n) ∧
    (file.lineBounds? n = none ↔ file.line? n = none) ∧
    ∀ first stop, file.lineBounds? n = some (first, stop) →
      ∃ piece, (file.text.toList.splitOn '\n')[n - 1]? = some piece ∧
        Text.IsSlice file.text first stop piece := by
  refine ⟨fun _ => line?_eq_some, line?_eq_none_iff, lineBounds?_eq_none_iff, ?_⟩
  intro first stop h
  exact isSlice_of_lineBounds? h

example : [0, 1, 2, 3, 4].map (SourceFile.mk "main" "é\r\r\n\nx").line? =
    [none, some "é", some "", some "x", none] := by cbv

end SourceFile

end ScriptKit
