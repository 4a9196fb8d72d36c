import ScriptKit.Numeral.Integer
import ScriptKit.Proofs.Lexeme
import ScriptKit.Proofs.TypeGrammar
import ScriptKit.Text.Class

/-! Texts of integers. Reading accepts exactly an optional sign and digits whose number fits, and
trimming takes off exactly the blanks around such a text. -/
namespace ScriptKit

namespace Integer

/-- The number that decimal digits write, the first of them weighing most. -/
def decimal (ds : List Char) : Nat := ds.foldl (fun n c => 10 * n + digitValue c) 0

/-- Digits, alone or after a sign, and the integer that they write. -/
inductive Denotes : List Char → Int → Prop
  | digits {ds : List Char} (h : IsDigits ds) : Denotes ds (decimal ds)
  | plus {ds : List Char} (h : IsDigits ds) : Denotes ('+' :: ds) (decimal ds)
  | minus {ds : List Char} (h : IsDigits ds) : Denotes ('-' :: ds) (-(decimal ds : Int))

section Inversion

variable {cs : List Char} {n : Int}

theorem not_isDigits_cons {c : Char} (hc : c.isDigit = false) : ¬ IsDigits (c :: cs) := by
  intro h
  have hd := h.2 c List.mem_cons_self
  rw [hc] at hd
  cases hd

theorem denotes_minus : Denotes ('-' :: cs) n ↔ IsDigits cs ∧ n = -(decimal cs : Int) := by
  constructor
  · intro h
    cases h with
    | digits h => exact absurd h (not_isDigits_cons (by decide))
    | minus h => exact ⟨h, rfl⟩
  · rintro ⟨h, rfl⟩
    exact .minus h

theorem denotes_plus : Denotes ('+' :: cs) n ↔ IsDigits cs ∧ n = decimal cs := by
  constructor
  · intro h
    cases h with
    | digits h => exact absurd h (not_isDigits_cons (by decide))
    | plus h => exact ⟨h, rfl⟩
  · rintro ⟨h, rfl⟩
    exact .plus h

theorem denotes_unsigned (hminus : ∀ ds, cs ≠ '-' :: ds) (hplus : ∀ ds, cs ≠ '+' :: ds) :
    Denotes cs n ↔ IsDigits cs ∧ n = decimal cs := by
  constructor
  · intro h
    cases h with
    | digits h => exact ⟨h, rfl⟩
    | plus h => exact absurd rfl (hplus _)
    | minus h => exact absurd rfl (hminus _)
  · rintro ⟨h, rfl⟩
    exact .digits h

theorem Denotes.ne_nil (h : Denotes cs n) : cs ≠ [] := by
  cases h with
  | digits h => exact h.1
  | plus h | minus h => exact List.cons_ne_nil _ _

theorem Denotes.isBlank (h : Denotes cs n) : ∀ c ∈ cs, Text.isBlank c = false := by
  have hdigits : ∀ {ds}, IsDigits ds → ∀ c ∈ ds, Text.isBlank c = false :=
    fun h c hc => Text.isBlank_of_isDigit (h.2 c hc)
  cases h with
  | digits h => exact hdigits h
  | plus h | minus h => exact List.forall_mem_cons.2 ⟨by decide, hdigits h⟩

end Inversion

section Reading

variable {limit value n : Nat} {beyond : IntegerFault} {cs : List Char}

theorem le_foldl_digitValue (cs : List Char) (value : Nat) :
    value ≤ cs.foldl (fun n c => 10 * n + digitValue c) value := by
  induction cs generalizing value with
  | nil => exact Nat.le_refl value
  | cons c cs ih =>
    have h := ih (10 * value + digitValue c)
    rw [List.foldl_cons]
    omega

/-- The limit is tested after each digit, which is the same as testing it at the end. -/
theorem readDigits_eq_ok (hv : value ≤ limit) :
    readDigits limit beyond value cs = .ok n ↔
      (∀ c ∈ cs, c.isDigit = true) ∧ cs.foldl (fun n c => 10 * n + digitValue c) value = n ∧
        n ≤ limit := by
  induction cs generalizing value with
  | nil =>
    simp only [readDigits, Except.ok.injEq, List.foldl_nil]
    constructor
    · rintro rfl
      exact ⟨by simp, rfl, hv⟩
    · rintro ⟨-, h, -⟩
      exact h
  | cons c cs ih =>
    rw [readDigits, List.forall_mem_cons, List.foldl_cons]
    by_cases hc : c.isDigit = true
    · by_cases hnext : 10 * value + digitValue c ≤ limit
      · simp only [hc, hnext, if_true, ih hnext, true_and]
      · -- The limit is passed, and the digits that follow cannot bring the number back.
        have hle := le_foldl_digitValue cs (10 * value + digitValue c)
        simp only [hc, hnext, if_true, if_false, true_and]
        refine ⟨fun h => ?_, fun ⟨_, hn, hlimit⟩ => ?_⟩
        · cases h
        · omega
    · simp [hc]

theorem readMagnitude_eq_ok :
    readMagnitude limit beyond cs = .ok n ↔ IsDigits cs ∧ decimal cs = n ∧ n ≤ limit := by
  cases cs with
  | nil => simp [readMagnitude, IsDigits]
  | cons c cs =>
    rw [readMagnitude, readDigits_eq_ok (Nat.zero_le limit), IsDigits, decimal,
      and_iff_right (List.cons_ne_nil c cs)]

end Reading

theorem ofInt_eq_iff {n : Int} {v : Int64} (hlow : -(greatest + 1 : Nat) ≤ n)
    (hhigh : n ≤ greatest) : Int64.ofInt n = v ↔ v.toInt = n := by
  simp only [greatest] at hlow hhigh
  constructor
  · rintro rfl
    exact Int64.toInt_ofInt_of_le (by omega) (by omega)
  · rintro rfl
    exact Int64.ofInt_toInt v

theorem neg_le_toInt (v : Int64) : -(greatest + 1 : Nat) ≤ v.toInt := v.le_toInt

theorem toInt_le (v : Int64) : v.toInt ≤ greatest := Int.le_of_lt_add_one v.toInt_lt

theorem map_ofNat_eq_ok {beyond : IntegerFault} {cs : List Char} {v : Int64} :
    (readMagnitude greatest beyond cs).map Int64.ofNat = .ok v ↔
      IsDigits cs ∧ v.toInt = decimal cs := by
  simp only [Outcome.map_eq_ok, readMagnitude_eq_ok, ← Int64.ofInt_eq_ofNat]
  constructor
  · rintro ⟨n, ⟨h, rfl, hle⟩, hv⟩
    exact ⟨h, (ofInt_eq_iff (by omega) (by omega)).1 hv⟩
  · rintro ⟨h, hv⟩
    have hle := toInt_le v
    exact ⟨decimal cs, ⟨h, rfl, by omega⟩, (ofInt_eq_iff (by omega) (by omega)).2 hv⟩

theorem map_neg_eq_ok {beyond : IntegerFault} {cs : List Char} {v : Int64} :
    (readMagnitude (greatest + 1) beyond cs).map (fun n : Nat => Int64.ofInt (-n)) = .ok v ↔
      IsDigits cs ∧ v.toInt = -(decimal cs : Int) := by
  simp only [Outcome.map_eq_ok, readMagnitude_eq_ok]
  constructor
  · rintro ⟨n, ⟨h, rfl, hle⟩, hv⟩
    exact ⟨h, (ofInt_eq_iff (by omega) (by omega)).1 hv⟩
  · rintro ⟨h, hv⟩
    have hle := neg_le_toInt v
    exact ⟨decimal cs, ⟨h, rfl, by omega⟩, (ofInt_eq_iff (by omega) (by omega)).2 hv⟩

theorem read_eq_ok {cs : List Char} {v : Int64} : read cs = .ok v ↔ Denotes cs v.toInt := by
  fun_cases read cs with
  | case1 => exact ⟨fun h => (by cases h), fun h => absurd rfl h.ne_nil⟩
  | case2 cs => rw [map_neg_eq_ok, denotes_minus]
  | case3 cs => rw [map_ofNat_eq_ok, denotes_plus]
  | case4 c cs hminus hplus =>
    rw [map_ofNat_eq_ok, denotes_unsigned]
    · rintro ds ⟨⟩
      exact hminus rfl
    · rintro ds ⟨⟩
      exact hplus rfl

end Integer

namespace Text

variable {cs : List Char}

theorem exists_append_trim (cs : List Char) :
    ∃ left right, cs = left ++ trim cs ++ right ∧ (∀ c ∈ left, isBlank c = true) ∧
      ∀ c ∈ right, isBlank c = true := by
  refine ⟨cs.takeWhile isBlank, ((cs.dropWhile isBlank).reverse.takeWhile isBlank).reverse,
    ?_, fun c hc => List.mem_takeWhile_imp hc,
    fun c hc => List.mem_takeWhile_imp (List.mem_reverse.1 hc)⟩
  have hright : trim cs ++ ((cs.dropWhile isBlank).reverse.takeWhile isBlank).reverse =
      cs.dropWhile isBlank := by
    rw [trim, ← List.reverse_append, List.takeWhile_append_dropWhile, List.reverse_reverse]
  rw [List.append_assoc, hright, List.takeWhile_append_dropWhile]

theorem trim_append (hcs : ∀ c ∈ cs, isBlank c = false) (hne : cs ≠ []) {left right : List Char}
    (hleft : ∀ c ∈ left, isBlank c = true) (hright : ∀ c ∈ right, isBlank c = true) :
    trim (left ++ cs ++ right) = cs := by
  have hstart : Stops isBlank (cs ++ right) := by
    obtain ⟨c, tail, rfl⟩ := List.exists_cons_of_ne_nil hne
    exact stops_cons.2 (hcs c List.mem_cons_self)
  have hend : Stops isBlank cs.reverse := fun c hc =>
    hcs c (List.mem_reverse.1 (List.mem_of_mem_head? hc))
  have hreverse : ∀ c ∈ right.reverse, isBlank c = true := fun c hc =>
    hright c (List.mem_reverse.1 hc)
  rw [trim, List.append_assoc, dropWhile_append_of_stops hleft hstart, List.reverse_append,
    dropWhile_append_of_stops hreverse hend, List.reverse_reverse]

end Text

end ScriptKit
