import ScriptKit.Proofs.Absorption

/-! The errors of both stages of reading a type. Each stage keeps all errors that it counts, so
their logs together count every error and keep the first of them; and a text that is not read as a
type always has one. -/
namespace ScriptKit

namespace Descriptor

theorem totalErrors_parse (file : SourceFile) (tokens : List Token) :
    (parse file tokens).errors.totalErrors = 0 ∨ (parse file tokens).errors.totalErrors = 1 := by
  rcases errors_parse_cases file tokens with h | ⟨fault, h⟩ <;> simp [h]

theorem Parsed.eq_clean_iff {parsed : Parsed} {d : Descriptor} :
    parsed = ⟨some d, .empty⟩ ↔ parsed.type? = some d ∧ parsed.errors = .empty := by
  cases parsed
  simp

section Stages

variable (text : String)

theorem keepsAll_lexedText : (lexedText text).errors.KeepsAll := SourceFile.keepsAll_lex _

theorem keepsAll_parsedText : (parsedText text).errors.KeepsAll := keepsAll_parse _ _

theorem joinedErrors_eq :
    joinedErrors text =
      ⟨((lexedText text).errors.errors ++ (parsedText text).errors.errors).take maxErrors, [],
        (lexedText text).errors.totalErrors + (parsedText text).errors.totalErrors, 0⟩ :=
  (keepsAll_lexedText text).append (keepsAll_parsedText text)

theorem errors_joinedErrors_ne_nil {text : String}
    (h : 0 < (joinedErrors text).totalErrors.toNat) : (joinedErrors text).errors ≠ [] := by
  rw [totalErrors_joinedErrors, (keepsAll_lexedText text).counted,
    (keepsAll_parsedText text).counted, ← List.length_append] at h
  have hne := List.ne_nil_of_length_pos h
  rw [joinedErrors_eq]
  simpa [maxErrors] using hne

theorem eq_joinedErrors_of_error {text : String} {log : ErrorLog} (h : ofText text = .error log) :
    log = joinedErrors text ∧ 0 < (joinedErrors text).totalErrors.toNat := by
  rcases ofText_cases text with ⟨d, hok, -⟩ | ⟨herror, hpos⟩
  · rw [hok] at h
    cases h
  · rw [herror] at h
    exact ⟨(Except.error.inj h).symm, hpos⟩

/-- A text is read as a type exactly if the first stage meets no error and the second gives that
type without one. The second stage meets at most one error. What is returned in place of a type
counts the errors of both stages, of which there is one at least, and keeps the first twenty; an
error of the second stage is counted even if the first stage has taken all the room. -/
theorem ofText_accounts :
    (∀ d, ofText text = .ok d ↔
      (lexedText text).errors = .empty ∧ parsedText text = ⟨some d, .empty⟩) ∧
    ((parsedText text).errors.totalErrors = 0 ∨ (parsedText text).errors.totalErrors = 1) ∧
    ∀ log, ofText text = .error log →
      log.totalErrors.toNat =
        (lexedText text).errors.totalErrors.toNat + (parsedText text).errors.totalErrors.toNat ∧
      1 ≤ log.totalErrors.toNat ∧
      log.errors =
        ((lexedText text).errors.errors ++ (parsedText text).errors.errors).take 20 ∧
      log.errors ≠ [] ∧
      ((lexedText text).errors.errors.length = 20 → (parsedText text).errors.totalErrors = 1 →
        log.totalErrors = 21) := by
  have hlexed := keepsAll_lexedText text
  have hparsed := keepsAll_parsedText text
  have htotal := totalErrors_joinedErrors text
  refine ⟨fun d => ?_, totalErrors_parse _ _, fun log hlog => ?_⟩
  · rw [Parsed.eq_clean_iff, hlexed.eq_empty_iff, hparsed.eq_empty_iff]
    rcases ofText_cases text with ⟨d', hok, htype, hzero⟩ | ⟨herror, hpos⟩
    · have hstages := Nat.add_eq_zero_iff.1 (htotal.symm.trans hzero)
      simp [hok, htype, hstages]
    · simp only [herror, reduceCtorEq, false_iff]
      omega
  · obtain ⟨rfl, hpos⟩ := eq_joinedErrors_of_error hlog
    refine ⟨htotal, hpos, by rw [joinedErrors_eq]; rfl, errors_joinedErrors_ne_nil hpos, ?_⟩
    intro hfull hone
    apply UInt64.toNat_inj.1
    rw [htotal, hlexed.counted, hfull, hone]
    rfl

end Stages

end Descriptor

end ScriptKit
