import ScriptKit.Report.Log

/-! What a log keeps and counts after many additions. -/
namespace ScriptKit
namespace ErrorLog

theorem foldl_addError (es : List SourceError) (log : ErrorLog)
    (h : log.errors.length ≤ maxErrors) :
    es.foldl addError log =
      { log with
        errors := (log.errors ++ es).take maxErrors
        totalErrors := log.totalErrors + UInt64.ofNat es.length } := by
  induction es generalizing log with
  | nil => simp [List.take_of_length_le h]
  | cons e es ih =>
    rw [List.foldl_cons]
    by_cases hroom : log.errors.length < maxErrors
    · have hadd : log.addError e =
          { log with errors := log.errors ++ [e], totalErrors := log.totalErrors + 1 } := by
        rw [addError, if_pos hroom]
      have hlen : (log.errors ++ [e]).length ≤ maxErrors := by
        rw [List.length_append, List.length_singleton]
        omega
      rw [hadd, ih _ hlen]
      simp [UInt64.add_assoc, UInt64.add_comm 1]
    · have hfull : log.errors.length = maxErrors := by omega
      have hadd : log.addError e = { log with totalErrors := log.totalErrors + 1 } := by
        rw [addError, if_neg hroom]
      rw [hadd, ih ⟨log.errors, log.warnings, log.totalErrors + 1, log.totalWarnings⟩ h]
      simp [← hfull, UInt64.add_assoc, UInt64.add_comm 1]

theorem foldl_addWarning (ws : List SourceError) (log : ErrorLog) :
    ws.foldl addWarning log =
      { log with
        warnings := log.warnings ++ ws
        totalWarnings := log.totalWarnings + UInt64.ofNat ws.length } := by
  induction ws generalizing log with
  | nil => simp
  | cons w ws ih =>
    rw [List.foldl_cons, ih, addWarning]
    simp [UInt64.add_assoc, UInt64.add_comm 1]

theorem ofLists_eq (es ws : List SourceError) :
    ofLists es ws =
      ⟨es.take maxErrors, ws, UInt64.ofNat es.length, UInt64.ofNat ws.length⟩ := by
  have h := foldl_addError es empty (Nat.zero_le _)
  rw [ofLists, h, foldl_addWarning]
  simp [empty]

theorem ofLists_errors (es : List SourceError) :
    ofLists es [] = ⟨es.take maxErrors, [], UInt64.ofNat es.length, 0⟩ := ofLists_eq es []

/-- Joined to a log, another adds its errors as long as there is room, its warnings, and the greater
of the number of errors it has counted and that of those it keeps. -/
theorem append_eq (log other : ErrorLog) (h : log.errors.length ≤ maxErrors) :
    log ++ other =
      ⟨(log.errors ++ other.errors).take maxErrors, log.warnings ++ other.warnings,
        log.totalErrors + UInt64.ofNat (max other.errors.length other.totalErrors.toNat),
        log.totalWarnings + UInt64.ofNat other.warnings.length⟩ := by
  have hmax : max other.errors.length other.totalErrors.toNat =
      other.errors.length + (other.totalErrors.toNat - other.errors.length) := by omega
  change append log other = _
  rw [append, foldl_addWarning, foldl_addError other.errors log h, hmax, UInt64.ofNat_add,
    UInt64.add_assoc]

theorem toNat_ofNat_eq_iff {n : Nat} : (UInt64.ofNat n).toNat = n ↔ n < UInt64.size :=
  ⟨fun h => h ▸ (UInt64.ofNat n).toNat_lt_size, UInt64.toNat_ofNat_of_lt'⟩

/-- A log without warnings that keeps every error it has counted. -/
structure KeepsAll (log : ErrorLog) : Prop where
  counted : log.totalErrors.toNat = log.errors.length
  room : log.errors.length ≤ maxErrors
  noWarnings : log.warnings = []
  noneCounted : log.totalWarnings = 0

namespace KeepsAll

variable {log other : ErrorLog}

theorem eq_empty_iff (h : log.KeepsAll) : log = .empty ↔ log.totalErrors.toNat = 0 := by
  refine ⟨fun he => by rw [he]; rfl, fun hzero => ?_⟩
  have htotal : log.totalErrors = 0 := UInt64.toNat_inj.1 hzero
  have hnil : log.errors = [] := List.length_eq_zero_iff.1 (h.counted.symm.trans hzero)
  obtain ⟨errors, warnings, totalErrors, totalWarnings⟩ := log
  obtain ⟨-, -, hwarnings, hcount⟩ := h
  simp only at htotal hnil hwarnings hcount
  rw [htotal, hnil, hwarnings, hcount]
  rfl

theorem append (h : log.KeepsAll) (h' : other.KeepsAll) :
    log ++ other = ⟨(log.errors ++ other.errors).take maxErrors, [],
      log.totalErrors + other.totalErrors, 0⟩ := by
  rw [append_eq log other h.room, h.noWarnings, h'.noWarnings, h.noneCounted, ← h'.counted,
    Nat.max_self, UInt64.ofNat_toNat]
  rfl

theorem toNat_totalErrors_append (h : log.KeepsAll) (h' : other.KeepsAll) :
    (log ++ other).totalErrors.toNat = log.totalErrors.toNat + other.totalErrors.toNat := by
  have hle := h.room
  have hle' := h'.room
  have hsize : maxErrors + maxErrors < UInt64.size := by decide
  rw [h.append h']
  refine (UInt64.toNat_add _ _).trans (Nat.mod_eq_of_lt (?_ : _ < UInt64.size))
  rw [h.counted, h'.counted]
  omega

end KeepsAll

theorem hasErrors_iff {log : ErrorLog} : log.hasErrors = true ↔ 0 < log.totalErrors.toNat := by
  rw [hasErrors, decide_eq_true_eq, UInt64.lt_iff_toNat_lt]
  rfl

end ErrorLog
end ScriptKit
