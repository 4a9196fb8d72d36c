import ScriptKit.Source.File

/-! The lines of a source. The table of line starts counts bytes; what it cuts out of the text are
the stretches between the line feeds. -/
namespace ScriptKit

theorem Text.sliceBytes?_append (before slice after : List Char) :
    sliceBytes? (before ++ (slice ++ after)) (byteLength before)
      (byteLength before + byteLength slice) = some slice := by
  have hlength : byteLength before + byteLength slice - byteLength before = byteLength slice :=
    Nat.add_sub_cancel_left ..
  rw [sliceBytes?, if_pos (Nat.le_add_right ..), splitAtByte?_byteLength, hlength]
  simp [splitAtByte?_byteLength]

theorem utf8Size_newline : '\n'.utf8Size = 1 := by decide

theorem length_splitOn_newline (cs : List Char) :
    (cs.splitOn '\n').length = cs.count '\n' + 1 := by
  induction cs with
  | nil => rfl
  | cons c cs ih =>
    rw [List.splitOn_cons_eq_if_modifyHead]
    by_cases hc : c = '\n' <;> simp [hc, ih]

namespace SourceFile

open Text (byteLength)

theorem length_startsAfter (offset : Nat) (cs : List Char) :
    (startsAfter offset cs).length = cs.count '\n' := by
  induction cs generalizing offset with
  | nil => rfl
  | cons c cs ih => by_cases hc : c = '\n' <;> simp [startsAfter, hc, ih]

theorem startsAfter_line {line : List Char} (h : '\n' ∉ line) (offset : Nat) (cs : List Char) :
    startsAfter offset (line ++ '\n' :: cs) =
      (offset + byteLength line + 1) :: startsAfter (offset + byteLength line + 1) cs := by
  induction line generalizing offset with
  | nil => simp [startsAfter, utf8Size_newline]
  | cons c line ih =>
    have hc : c ≠ '\n' := fun he => h (he ▸ List.mem_cons_self)
    have hline : '\n' ∉ line := fun hmem => h (List.mem_cons_of_mem c hmem)
    rw [List.cons_append, startsAfter, if_neg hc, ih hline, Text.byteLength_cons,
      Nat.add_assoc offset]

/-- Line `i` stands between its start and the line feed before the next start. -/
theorem exists_of_getElem?_splitOn {cs line : List Char} {i : Nat}
    (h : (cs.splitOn '\n')[i]? = some line) (offset : Nat) :
    ∃ before after, cs = before ++ (line ++ after) ∧
      (offset :: startsAfter offset cs)[i]? = some (offset + byteLength before) ∧
      (after = [] ∧ (offset :: startsAfter offset cs)[i + 1]? = none ∨
        (offset :: startsAfter offset cs)[i + 1]? =
          some (offset + byteLength before + byteLength line + 1)) := by
  induction i generalizing offset cs with
  | zero =>
    by_cases hmem : '\n' ∈ cs
    · obtain ⟨first, rest, rfl, hfirst⟩ := List.eq_append_cons_of_mem hmem
      rw [List.splitOn_append_cons_self_of_not_mem hfirst] at h
      cases h
      refine ⟨[], '\n' :: rest, rfl, rfl, .inr ?_⟩
      rw [startsAfter_line hfirst]
      rfl
    · rw [List.splitOn_eq_singleton hmem] at h
      cases h
      have hnil : startsAfter offset line = [] := by
        rw [← List.length_eq_zero_iff, length_startsAfter, List.count_eq_zero.2 hmem]
      exact ⟨[], [], by simp, rfl, .inl ⟨rfl, by rw [hnil]; rfl⟩⟩
  | succ i ih =>
    by_cases hmem : '\n' ∈ cs
    · obtain ⟨first, rest, rfl, hfirst⟩ := List.eq_append_cons_of_mem hmem
      rw [List.splitOn_append_cons_self_of_not_mem hfirst] at h
      obtain ⟨before, after, rfl, hstart, hnext⟩ := ih h (offset + byteLength first + 1)
      have hoffset : offset + byteLength (first ++ '\n' :: before) =
          offset + byteLength first + 1 + byteLength before := by
        rw [Text.byteLength_append, Text.byteLength_cons, utf8Size_newline]
        omega
      refine ⟨first ++ '\n' :: before, after, by simp, ?_, ?_⟩
      · rw [startsAfter_line hfirst, hoffset]
        exact hstart
      · rw [startsAfter_line hfirst, hoffset]
        exact hnext
    · rw [List.splitOn_eq_singleton hmem] at h
      cases h

section Bounds

variable {file : SourceFile} {i first : Nat}

theorem lineBounds?_of_next {next : Nat} (h : file.lineStarts[i]? = some first)
    (hnext : file.lineStarts[i + 1]? = some next) :
    file.lineBounds? (i + 1) = some (first, next - 1) := by
  simp [lineBounds?, h, hnext]

theorem lineBounds?_of_last (h : file.lineStarts[i]? = some first)
    (hnext : file.lineStarts[i + 1]? = none) :
    file.lineBounds? (i + 1) = some (first, byteLength file.text.toList) := by
  simp [lineBounds?, h, hnext]

theorem lineBounds?_eq_none (h : file.lineStarts[i]? = none) : file.lineBounds? (i + 1) = none := by
  simp [lineBounds?, h]

end Bounds

theorem exists_lineBounds? {file : SourceFile} {i : Nat} {line : List Char}
    (h : (file.text.toList.splitOn '\n')[i]? = some line) :
    ∃ before after, file.text.toList = before ++ (line ++ after) ∧
      file.lineBounds? (i + 1) = some (byteLength before, byteLength before + byteLength line) := by
  obtain ⟨before, after, htext, hstart, hnext⟩ := exists_of_getElem?_splitOn h 0
  rw [Nat.zero_add] at hstart hnext
  refine ⟨before, after, htext, ?_⟩
  rcases hnext with ⟨rfl, hnone⟩ | hsome
  · rw [lineBounds?_of_last hstart hnone, htext, List.append_nil, Text.byteLength_append]
  · rw [lineBounds?_of_next hstart hsome, Nat.add_sub_cancel]

theorem lineBounds?_succ_eq_none {file : SourceFile} {i : Nat}
    (h : (file.text.toList.splitOn '\n')[i]? = none) : file.lineBounds? (i + 1) = none := by
  have hlength := List.getElem?_eq_none_iff.1 h
  rw [length_splitOn_newline] at hlength
  apply lineBounds?_eq_none
  rw [List.getElem?_eq_none_iff, lineStarts, List.length_cons, length_startsAfter]
  exact hlength

/-- The lines are the stretches between line feeds, without the carriage returns at their ends. -/
theorem line?_succ (file : SourceFile) (i : Nat) :
    file.line? (i + 1) =
      (file.text.toList.splitOn '\n')[i]?.map fun line => String.ofList (dropReturns line) := by
  cases hline : (file.text.toList.splitOn '\n')[i]? with
  | none =>
    rw [line?, lineBounds?_succ_eq_none hline]
    rfl
  | some line =>
    obtain ⟨before, after, htext, hbounds⟩ := exists_lineBounds? hline
    have hslice := Text.sliceBytes?_append before line after
    rw [← htext] at hslice
    simp [line?, hbounds, hslice]

end SourceFile

end ScriptKit
