import ScriptKit.Proofs.Log

/-! A log and its history. However a log is filled, with errors, warnings and other logs that were
filled before, it keeps the first errors of its history and all of its warnings. It counts both
right exactly if its counters can hold the numbers, and so long joining logs is joining their
histories. -/
namespace ScriptKit

/-- What is beyond the cut may be cut before lists are joined. -/
theorem take_append_take {α : Type} (n : Nat) (as bs : List α) :
    (as.take n ++ bs.take n).take n = (as ++ bs).take n := by
  rw [List.take_append, List.take_append, List.take_take, List.take_take, List.length_take]
  congr 2 <;> omega

theorem take_take_append {α : Type} (n : Nat) (as bs : List α) :
    (as.take n ++ bs).take n = (as ++ bs).take n := by
  have h := take_append_take n (as.take n) bs
  rw [List.take_take, Nat.min_self, take_append_take] at h
  exact h.symm

namespace ErrorLog

theorem length_errors_ofLists (es ws : List SourceError) :
    (ofLists es ws).errors.length ≤ maxErrors := by
  rw [ofLists_eq]
  exact List.length_take_le _ _

theorem append_ofLists {log : ErrorLog} {es : List SourceError} (ws : List SourceError)
    (hroom : log.errors.length ≤ maxErrors) (hes : es.length < UInt64.size) :
    log ++ ofLists es ws =
      ⟨(log.errors ++ es).take maxErrors, log.warnings ++ ws,
        log.totalErrors + UInt64.ofNat es.length,
        log.totalWarnings + UInt64.ofNat ws.length⟩ := by
  have hcut := take_append_take maxErrors log.errors es
  have hmax : max (es.take maxErrors).length es.length = es.length :=
    Nat.max_eq_right (List.length_take_le' _ _)
  rw [List.take_of_length_le hroom] at hcut
  rw [append_eq log _ hroom, ofLists_eq, toNat_ofNat_eq_iff.2 hes, hmax, hcut]

theorem ofLists_append_ofLists (es ws : List SourceError) {es' : List SourceError}
    (ws' : List SourceError) (h : es'.length < UInt64.size) :
    ofLists es ws ++ ofLists es' ws' = ofLists (es ++ es') (ws ++ ws') := by
  rw [append_ofLists ws' (length_errors_ofLists es ws) h, ofLists_eq, ofLists_eq, take_take_append,
    List.length_append, List.length_append, UInt64.ofNat_add, UInt64.ofNat_add]

theorem append_empty {log : ErrorLog} (h : log.errors.length ≤ maxErrors) : log ++ empty = log := by
  rw [append_eq log _ h]
  simp [empty, List.take_of_length_le h]

end ErrorLog

/-- The ways to fill a log that starts empty. -/
inductive LogHistory
  | empty
  | addError (before : LogHistory) (e : SourceError)
  | addWarning (before : LogHistory) (w : SourceError)
  /-- The other log was filled before and is added as it is then. -/
  | append (before other : LogHistory)

namespace LogHistory

def log : LogHistory → ErrorLog
  | empty => .empty
  | addError before e => before.log.addError e
  | addWarning before w => before.log.addWarning w
  | append before other => before.log ++ other.log

def errors : LogHistory → List SourceError
  | empty => []
  | addError before e => before.errors ++ [e]
  | addWarning before _ => before.errors
  | append before other => before.errors ++ other.errors

def warnings : LogHistory → List SourceError
  | empty => []
  | addError before _ => before.warnings
  | addWarning before w => before.warnings ++ [w]
  | append before other => before.warnings ++ other.warnings

theorem errors_addError {log : ErrorLog} {es : List SourceError} (e : SourceError)
    (h : log.errors = es.take maxErrors) :
    (log.addError e).errors = (es ++ [e]).take maxErrors := by
  have hroom : log.errors.length ≤ maxErrors := h ▸ List.length_take_le _ _
  have hadd := congrArg ErrorLog.errors (ErrorLog.foldl_addError [e] log hroom)
  exact hadd.trans (by rw [h, take_take_append])

/-- A log keeps the first errors of its history and all warnings, which it counts by its counter. -/
theorem kept_log (h : LogHistory) :
    h.log.errors = h.errors.take maxErrors ∧ h.log.warnings = h.warnings ∧
      h.log.totalWarnings = UInt64.ofNat h.warnings.length := by
  induction h with
  | empty => exact ⟨rfl, rfl, rfl⟩
  | addError before e ih =>
    obtain ⟨herrors, hwarnings, htotal⟩ := ih
    exact ⟨errors_addError e herrors, hwarnings, htotal⟩
  | addWarning before w ih =>
    obtain ⟨herrors, hwarnings, htotal⟩ := ih
    refine ⟨herrors, congrArg (· ++ [w]) hwarnings, ?_⟩
    rw [warnings, List.length_append, UInt64.ofNat_add, ← htotal]
    rfl
  | append before other ihb iho =>
    obtain ⟨herrors, hwarnings, htotal⟩ := ihb
    obtain ⟨herrors', hwarnings', -⟩ := iho
    have hroom : before.log.errors.length ≤ maxErrors := herrors ▸ List.length_take_le _ _
    rw [log, ErrorLog.append_eq _ _ hroom, errors, warnings]
    refine ⟨?_, by rw [hwarnings, hwarnings'], ?_⟩
    · rw [herrors, herrors', take_append_take]
    · rw [htotal, hwarnings', List.length_append, UInt64.ofNat_add]

theorem length_errors_log (h : LogHistory) : h.log.errors.length ≤ maxErrors := by
  rw [h.kept_log.1]
  exact List.length_take_le _ _

theorem totalErrors_log {h : LogHistory} (hlt : h.errors.length < UInt64.size) :
    h.log.totalErrors = UInt64.ofNat h.errors.length := by
  induction h with
  | empty => rfl
  | addError before e ih =>
    rw [errors, List.length_append, List.length_singleton] at hlt
    rw [log, ErrorLog.totalErrors_addError, ih (by omega), errors, List.length_append,
      UInt64.ofNat_add]
    rfl
  | addWarning before w ih => exact ih hlt
  | append before other ihb iho =>
    rw [errors, List.length_append] at hlt
    have hother : other.errors.length < UInt64.size := by omega
    have hmax : max (other.errors.take maxErrors).length other.errors.length =
        other.errors.length := Nat.max_eq_right (List.length_take_le' _ _)
    rw [log, ErrorLog.append_eq _ _ before.length_errors_log, ihb (by omega), iho hother,
      ErrorLog.toNat_ofNat_eq_iff.2 hother, other.kept_log.1, hmax, errors, List.length_append,
      UInt64.ofNat_add]

theorem log_eq_ofLists {h : LogHistory} (hlt : h.errors.length < UInt64.size) :
    h.log = .ofLists h.errors h.warnings := by
  obtain ⟨herrors, hwarnings, hcount⟩ := h.kept_log
  rw [ErrorLog.ofLists_eq, ← herrors, ← totalErrors_log hlt, ← hcount, ← hwarnings]

/-- However a log is filled, it keeps the first twenty errors and all warnings. It counts either
right exactly if there are fewer than its counter's size. Joining logs is associative, and the empty
log is its unit, as long as the errors of the logs that are added can be counted. -/
theorem log_refines_history (h : LogHistory) :
    (h.log.errors = h.errors.take 20 ∧ h.log.warnings = h.warnings ∧
      (h.log.totalErrors.toNat = h.errors.length ↔ h.errors.length < UInt64.size) ∧
      (h.log.totalWarnings.toNat = h.warnings.length ↔ h.warnings.length < UInt64.size)) ∧
    (∀ h₁ h₂ : LogHistory, h₁.errors.length + h₂.errors.length < UInt64.size →
      (h.log ++ h₁.log) ++ h₂.log = h.log ++ (h₁.log ++ h₂.log)) ∧
    (h.errors.length < UInt64.size → ErrorLog.empty ++ h.log = h.log) ∧
    h.log ++ ErrorLog.empty = h.log := by
  obtain ⟨herrors, hwarnings, hcount⟩ := h.kept_log
  refine ⟨⟨herrors, hwarnings, ?_, ?_⟩, fun h₁ h₂ hlt => ?_, fun hlt => ?_,
    ErrorLog.append_empty h.length_errors_log⟩
  · refine ⟨fun heq => heq ▸ h.log.totalErrors.toNat_lt_size, fun hlt => ?_⟩
    rw [totalErrors_log hlt, ErrorLog.toNat_ofNat_eq_iff.2 hlt]
  · rw [hcount, ErrorLog.toNat_ofNat_eq_iff]
  · have hlt₁ : h₁.errors.length < UInt64.size := by omega
    have hlt₂ : h₂.errors.length < UInt64.size := by omega
    have hlt₁₂ : (h₁.errors ++ h₂.errors).length < UInt64.size := by rwa [List.length_append]
    have hroom := (append h h₁).length_errors_log
    rw [log, log_eq_ofLists hlt₁] at hroom
    rw [log_eq_ofLists hlt₁, log_eq_ofLists hlt₂, ErrorLog.ofLists_append_ofLists _ _ _ hlt₂,
      ErrorLog.append_ofLists _ hroom hlt₂, ErrorLog.append_ofLists _ h.length_errors_log hlt₁,
      ErrorLog.append_ofLists _ h.length_errors_log hlt₁₂]
    simp only [take_take_append, List.append_assoc, List.length_append, UInt64.ofNat_add,
      UInt64.add_assoc]
  · rw [log_eq_ofLists hlt]
    exact ErrorLog.ofLists_append_ofLists [] [] _ hlt

/-- One error in a log that is then joined with itself time and again. -/
def doubled : Nat → LogHistory
  | 0 => addError empty (.ofCode "" .unexpectedToken "" (.point 1 1) "" none)
  | n + 1 => append (doubled n) (doubled n)

theorem length_errors_doubled (n : Nat) : (doubled n).errors.length = Nat.pow 2 n := by
  induction n with
  | zero => rfl
  | succ n ih =>
    rw [doubled, errors, List.length_append, ih]
    exact (Nat.mul_two _).symm

/-- After sixty-four times there are as many errors as the counter has values, and it is back at
zero: none seems to be there, and the empty log is no unit. -/
theorem doubled_counts_zero :
    (doubled 64).errors.length = 18446744073709551616 ∧ (doubled 64).log.totalErrors = 0 ∧
      (doubled 64).log.hasErrors = false ∧
      ErrorLog.empty ++ (doubled 64).log ≠ (doubled 64).log := by
  have hhalf : (doubled 63).errors.length = 9223372036854775808 := length_errors_doubled 63
  have hlt : (doubled 63).errors.length < UInt64.size := hhalf ▸ by decide
  have htotal : (doubled 64).log.totalErrors = 0 := by
    have hstep : (doubled 64).log = (doubled 63).log ++ (doubled 63).log := rfl
    rw [hstep, log_eq_ofLists hlt, ErrorLog.ofLists_append_ofLists _ _ _ hlt, ErrorLog.ofLists_eq,
      List.length_append, UInt64.ofNat_add, hhalf]
    decide
  refine ⟨length_errors_doubled 64, htotal, ?_, fun hunit => ?_⟩
  · rw [ErrorLog.hasErrors, htotal]
    rfl
  · have hkept : (doubled 64).log.errors.length = 20 := by
      rw [(kept_log _).1, List.length_take, length_errors_doubled]
      rfl
    have hcount := congrArg ErrorLog.totalErrors hunit
    rw [ErrorLog.append_eq .empty _ (Nat.zero_le _), htotal, hkept] at hcount
    exact absurd hcount (by decide)

end LogHistory

end ScriptKit
