import Mathlib.Algebra.Order.Ring.Int
import Mathlib.Data.List.Basic
import ScriptKit.Proofs.IntegerText
import ScriptKit.Store.Builtins

/-! Conversions between integers and texts. Of the texts that denote an integer exactly one is
canonical, and the integer is written as that one. A text is read exactly if it denotes an integer
that fits; so what was written is read back, and what was read is written as the canonical text of
the same integer. -/
namespace ScriptKit

namespace Integer

section Digits

variable {c : Char} {ds : List Char} {n : Nat}

theorem digitValue_lt (h : c.isDigit = true) : digitValue c < 10 := by
  obtain ⟨-, hhigh⟩ := Char.isDigit_iff_toNat.1 h
  rw [digitValue]
  simp only [Char.reduceToNat] at hhigh ⊢
  omega

theorem digitChar_digitValue (h : c.isDigit = true) : (digitValue c).digitChar = c := by
  obtain ⟨hlow, hhigh⟩ := Char.isDigit_iff_toNat.1 h
  apply Char.toNat_inj.1
  rw [Nat.toNat_digitChar_of_lt_ten (digitValue_lt h), digitValue]
  simp only [Char.reduceToNat] at hlow ⊢
  omega

theorem toDigits_digitValue (h : c.isDigit = true) : Nat.toDigits 10 (digitValue c) = [c] := by
  rw [Nat.toDigits_of_lt_base (digitValue_lt h), digitChar_digitValue h]

theorem isDigits_toDigits (n : Nat) : IsDigits (Nat.toDigits 10 n) := by
  refine ⟨Nat.toDigits_ne_nil, fun c hc => ?_⟩
  exact Nat.isDigit_of_mem_toDigits (by decide) (by decide) hc

theorem decimal_toDigits (n : Nat) : decimal (Nat.toDigits 10 n) = n := by
  have h := Nat.ofDigitChars_ten_toDigits (n := n)
  rwa [Nat.ofDigitChars_eq_foldl] at h

theorem head?_toDigits (hn : 0 < n) : (Nat.toDigits 10 n).head? ≠ some '0' := by
  induction n using Nat.strongRecOn with
  | ind n ih =>
    by_cases hlt : n < 10
    · rw [Nat.toDigits_of_lt_base hlt, List.head?_cons, ne_eq, Option.some.injEq,
        Nat.digitChar_eq_zero]
      exact Nat.ne_of_gt hn
    · rw [Nat.toDigits_of_base_le (by decide) (Nat.le_of_not_lt hlt),
        List.head?_append_of_ne_nil _ Nat.toDigits_ne_nil]
      exact ih (n / 10) (by omega) (by omega)

/-- Digits that follow those of a number are the last digits of the number that all of them
write. -/
theorem toDigits_append (hn : 0 < n) (h : ∀ c ∈ ds, c.isDigit = true) :
    Nat.toDigits 10 n ++ ds =
      Nat.toDigits 10 (ds.foldl (fun n c => 10 * n + digitValue c) n) := by
  induction ds generalizing n with
  | nil => rw [List.append_nil, List.foldl_nil]
  | cons c ds ih =>
    obtain ⟨hc, hds⟩ := List.forall_mem_cons.1 h
    have hnext : Nat.toDigits 10 n ++ [c] = Nat.toDigits 10 (10 * n + digitValue c) := by
      rw [← toDigits_digitValue hc]
      exact Nat.toDigits_append_toDigits (by decide) hn (digitValue_lt hc)
    rw [List.foldl_cons, ← ih (by omega) hds, ← hnext, List.append_assoc, List.singleton_append]

theorem toDigits_decimal (h : IsDigits ds) (hlead : ds.head? ≠ some '0') :
    Nat.toDigits 10 (decimal ds) = ds ∧ 0 < decimal ds := by
  obtain ⟨c, ds, rfl⟩ := List.exists_cons_of_ne_nil h.1
  obtain ⟨hc, hds⟩ := List.forall_mem_cons.1 h.2
  have hpos : 0 < digitValue c := by
    apply Nat.pos_of_ne_zero
    intro hzero
    have hchar := digitChar_digitValue hc
    rw [hzero] at hchar
    exact hlead (congrArg some hchar.symm)
  have hdecimal : decimal (c :: ds) =
      ds.foldl (fun n c => 10 * n + digitValue c) (digitValue c) := by
    rw [decimal, List.foldl_cons, Nat.mul_zero, Nat.zero_add]
  rw [hdecimal]
  constructor
  · rw [← toDigits_append hpos hds, toDigits_digitValue hc]
    rfl
  · exact Nat.lt_of_lt_of_le hpos (le_foldl_digitValue ds _)

end Digits

/-- Digits, alone or after a minus sign, that begin with zero only if zero is all they are. -/
inductive IsCanonical : List Char → Prop
  | zero : IsCanonical ['0']
  | digits {ds : List Char} (h : IsDigits ds) (hlead : ds.head? ≠ some '0') : IsCanonical ds
  | minus {ds : List Char} (h : IsDigits ds) (hlead : ds.head? ≠ some '0') :
      IsCanonical ('-' :: ds)

section Canonical

variable {cs : List Char} {n : Int} {k : Nat}

theorem denotes_of_isDigits (h : IsDigits cs) : Denotes cs n ↔ n = decimal cs := by
  have hsign : ∀ c ds, c.isDigit = false → cs ≠ c :: ds := by
    rintro c ds hc rfl
    exact not_isDigits_cons hc h
  rw [denotes_unsigned (fun ds => hsign '-' ds (by decide)) fun ds => hsign '+' ds (by decide),
    and_iff_right h]

theorem toList_toString_natCast (k : Nat) : (toString (k : Int)).toList = Nat.toDigits 10 k := by
  rw [Int.toString_eq_repr, Int.repr_eq_if, if_pos (Int.natCast_nonneg k), Int.toNat_natCast,
    Nat.toList_repr]

theorem toList_toString_neg (hk : 0 < k) :
    (toString (-(k : Int))).toList = '-' :: Nat.toDigits 10 k := by
  have hneg : ¬ (0 : Int) ≤ -(k : Int) := by omega
  rw [Int.toString_eq_repr, Int.repr_eq_if, if_neg hneg, Int.neg_neg, Int.toNat_natCast,
    String.toList_append, Nat.toList_repr]
  rfl

theorem isCanonical_toString (n : Int) :
    IsCanonical (toString n).toList ∧ Denotes (toString n).toList n := by
  by_cases hn : 0 ≤ n
  · obtain ⟨k, rfl⟩ := Int.eq_ofNat_of_zero_le hn
    rw [toList_toString_natCast, denotes_of_isDigits (isDigits_toDigits k), decimal_toDigits]
    refine ⟨?_, rfl⟩
    by_cases hk : k = 0
    · rw [hk, Nat.toDigits_zero]
      exact .zero
    · exact .digits (isDigits_toDigits k) (head?_toDigits (Nat.pos_of_ne_zero hk))
  · obtain ⟨k, rfl⟩ : ∃ k : Nat, n = -(k : Int) := ⟨n.natAbs, by omega⟩
    have hk : 0 < k := by omega
    rw [toList_toString_neg hk, denotes_minus, decimal_toDigits]
    exact ⟨.minus (isDigits_toDigits k) (head?_toDigits hk), isDigits_toDigits k, rfl⟩

/-- No other canonical text denotes the integer. -/
theorem IsCanonical.eq_toString (h : IsCanonical cs) (hn : Denotes cs n) :
    cs = (toString n).toList := by
  cases h with
  | zero =>
    rw [← Nat.toDigits_zero 10] at hn ⊢
    rw [denotes_of_isDigits (isDigits_toDigits 0), decimal_toDigits] at hn
    rw [hn, toList_toString_natCast]
  | digits h hlead =>
    rw [denotes_of_isDigits h] at hn
    rw [hn, toList_toString_natCast, (toDigits_decimal h hlead).1]
  | minus h hlead =>
    obtain ⟨hdigits, hpos⟩ := toDigits_decimal h hlead
    rw [denotes_minus] at hn
    rw [hn.2, toList_toString_neg hpos, hdigits]

end Canonical

def Fits (n : Int) : Prop := -2 ^ 63 ≤ n ∧ n ≤ 2 ^ 63 - 1

theorem exists_toInt_iff {n : Int} : (∃ i : Int64, i.toInt = n) ↔ Fits n := by
  constructor
  · rintro ⟨i, rfl⟩
    exact ⟨i.le_toInt, Int.le_sub_one_of_lt i.toInt_lt⟩
  · rintro ⟨hlow, hhigh⟩
    exact ⟨.ofInt n, Int64.toInt_ofInt_of_le hlow (Int.lt_of_le_sub_one hhigh)⟩

end Integer

namespace Builtin

open Integer (Denotes Fits IsCanonical)

variable {s : Store} {t : String} {i : Int64}

theorem call_int_of_read (h : Integer.read t.toList = .ok i) :
    call s int [.string t] = some (.int i, s) := by
  simp [call, run, answer, toInt, Value.unbindOnce, h]

theorem call_int_of_fault {fault : IntegerFault} (h : Integer.read t.toList = .error fault) :
    call s int [.string t] = some (.error (BuiltinFault.noInteger t fault).message, s) := by
  simp [call, run, answer, toInt, Value.unbindOnce, h]

theorem call_int_eq_int : call s int [.string t] = some (.int i, s) ↔ Denotes t.toList i.toInt := by
  rw [← Integer.read_eq_ok]
  cases h : Integer.read t.toList with
  | ok j => simp [call_int_of_read h]
  | error fault => simp [call_int_of_fault h]

theorem exists_call_int_iff {n : Int} :
    (∃ i : Int64, i.toInt = n ∧ call s int [.string t] = some (.int i, s)) ↔
      Denotes t.toList n ∧ Fits n := by
  rw [← Integer.exists_toInt_iff]
  constructor
  · rintro ⟨i, rfl, h⟩
    exact ⟨call_int_eq_int.1 h, i, rfl⟩
  · rintro ⟨h, i, rfl⟩
    exact ⟨i, rfl, call_int_eq_int.2 h⟩

theorem exists_fault_iff :
    (∃ fault, call s int [.string t] =
      some (.error (BuiltinFault.noInteger t fault).message, s)) ↔
      ¬ ∃ n : Int, Denotes t.toList n ∧ Fits n := by
  cases h : Integer.read t.toList with
  | ok i =>
    have hread := call_int_of_read (s := s) h
    have hfits : ∃ n : Int, Denotes t.toList n ∧ Fits n :=
      ⟨i.toInt, exists_call_int_iff.1 ⟨i, rfl, hread⟩⟩
    simp [hread, hfits]
  | error fault =>
    have hnone : ¬ ∃ n : Int, Denotes t.toList n ∧ Fits n := by
      rintro ⟨n, hn⟩
      obtain ⟨i, -, hcall⟩ := exists_call_int_iff.2 hn
      rw [call_int_of_fault (s := s) h] at hcall
      cases hcall
    exact ⟨fun _ => hnone, fun _ => ⟨fault, call_int_of_fault h⟩⟩

/-- An integer that is turned into a text and back stays the same. A text is turned into an integer
exactly if it is digits, alone or after a sign, which denote that integer, and the integer fits; any
other text gives an error. An integer that came from a text is turned into the only canonical text
that denotes it. -/
theorem integer_conversions (s : Store) :
    (∀ i : Int64, ∃ t : String, call s string [.int i] = some (.string t, s) ∧
      call s int [.string t] = some (.int i, s)) ∧
    ∀ t : String,
      (∀ n : Int, (∃ i : Int64, i.toInt = n ∧ call s int [.string t] = some (.int i, s)) ↔
        Denotes t.toList n ∧ Fits n) ∧
      ((∃ fault, call s int [.string t] =
          some (.error (BuiltinFault.noInteger t fault).message, s)) ↔
        ¬ ∃ n : Int, Denotes t.toList n ∧ Fits n) ∧
      ∀ n : Int, Denotes t.toList n → Fits n →
        ∃ (v : Value) (u : String), call s int [.string t] = some (v, s) ∧
          call s string [v] = some (.string u, s) ∧ IsCanonical u.toList ∧ Denotes u.toList n ∧
          ∀ cs, IsCanonical cs → Denotes cs n → cs = u.toList := by
  have hstring : ∀ i : Int64, call s string [.int i] = some (.string (Integer.text i), s) := by
    intro i
    rfl
  constructor
  · intro i
    obtain ⟨-, hdenotes⟩ := Integer.isCanonical_toString i.toInt
    exact ⟨Integer.text i, hstring i, call_int_eq_int.2 hdenotes⟩
  · intro t
    refine ⟨fun n => exists_call_int_iff, exists_fault_iff, fun n hn hfits => ?_⟩
    obtain ⟨i, rfl, hint⟩ := exists_call_int_iff.2 ⟨hn, hfits⟩
    obtain ⟨hcanonical, hdenotes⟩ := Integer.isCanonical_toString i.toInt
    refine ⟨.int i, Integer.text i, hint, hstring i, hcanonical, hdenotes, ?_⟩
    intro cs hcs hsame
    exact hcs.eq_toString hsame

example (s : Store) : call s int [.string "+007"] = some (.int 7, s) ∧
    call s string [.int 7] = some (.string "7", s) := ⟨rfl, rfl⟩

end Builtin

end ScriptKit
