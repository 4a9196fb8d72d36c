import ScriptKit.Token.Piece

/-! The character classes of the language keep apart: no letter or number is a blank, no letter is
a decimal digit, and the signs belong to no class of name characters. -/
namespace ScriptKit
namespace Text

/-- No range of the first list meets a range of the second. -/
def Ranges.apart (rs ss : Ranges) : Bool :=
  rs.all fun r => ss.all fun s => r.2 < s.1 || s.2 < r.1

theorem Ranges.exists_of_holds {rs : Ranges} {n : Nat} (h : rs.holds n = true) :
    ∃ r ∈ rs, r.1 ≤ n ∧ n ≤ r.2 := by
  induction rs with
  | nil => cases h
  | cons r rs ih =>
    rw [Ranges.holds] at h
    split at h
    · cases h
    · rename_i hlow
      rcases Bool.or_eq_true _ _ ▸ h with hhigh | hrest
      · exact ⟨r, List.mem_cons_self, Nat.le_of_not_lt hlow, of_decide_eq_true hhigh⟩
      · obtain ⟨s, hs, hn⟩ := ih hrest
        exact ⟨s, List.mem_cons_of_mem r hs, hn⟩

theorem Ranges.contains_eq_false {rs ss : Ranges} (hap : rs.apart ss = true) {c : Char}
    (h : rs.contains c = true) : ss.contains c = false := by
  cases hc : ss.contains c with
  | false => rfl
  | true =>
    obtain ⟨r, hr, hlow, hhigh⟩ := exists_of_holds h
    obtain ⟨s, hs, hlow', hhigh'⟩ := exists_of_holds hc
    have hrs := List.all_eq_true.1 (List.all_eq_true.1 hap r hr) s hs
    simp only [Bool.or_eq_true, decide_eq_true_eq] at hrs
    omega

def digitRanges : Ranges := [(0x30, 0x39)]

theorem contains_digitRanges (c : Char) : digitRanges.contains c = c.isDigit := by
  rw [Bool.eq_iff_iff]
  simp only [digitRanges, Ranges.contains, Ranges.holds, Char.isDigit, Bool.and_eq_true,
    Bool.or_false, decide_eq_true_eq, ge_iff_le, UInt32.le_iff_toNat_le, Bool.if_false_left,
    Bool.not_eq_eq_eq_not, Bool.not_true, decide_eq_false_iff_not, Nat.not_lt]
  exact Iff.rfl

theorem isBlank_of_isAlphabetic {c : Char} (h : isAlphabetic c = true) : isBlank c = false :=
  Ranges.contains_eq_false (by decide +kernel) h

theorem isBlank_of_isNumeric {c : Char} (h : isNumeric c = true) : isBlank c = false :=
  Ranges.contains_eq_false (by decide +kernel) h

theorem isBlank_of_isDigit {c : Char} (h : c.isDigit = true) : isBlank c = false := by
  rw [← contains_digitRanges] at h
  exact Ranges.contains_eq_false (by decide +kernel) h

theorem isDigit_of_isAlphabetic {c : Char} (h : isAlphabetic c = true) : c.isDigit = false := by
  rw [← contains_digitRanges]
  exact Ranges.contains_eq_false (by decide +kernel) h

end Text

theorem isBlank_of_isNamePart {c : Char} (h : isNamePart c = true) : Text.isBlank c = false := by
  simp only [isNamePart, Bool.or_eq_true, decide_eq_true_eq] at h
  rcases h with (h | h) | rfl
  · exact Text.isBlank_of_isAlphabetic h
  · exact Text.isBlank_of_isNumeric h
  · decide

theorem isDigit_of_isNameStart {c : Char} (h : isNameStart c = true) : c.isDigit = false := by
  simp only [isNameStart, Bool.or_eq_true, decide_eq_true_eq] at h
  rcases h with h | rfl
  · exact Text.isDigit_of_isAlphabetic h
  · decide

theorem ne_of_class {p : Char → Bool} {c d : Char} (hc : p c = true) (hd : p d = false) :
    c ≠ d := by
  rintro rfl
  rw [hc] at hd
  cases hd

end ScriptKit
