import Mathlib.Algebra.Order.Ring.Int
import Mathlib.Order.Monotone.Basic
import Mathlib.Tactic.Linarith
import Mathlib.Tactic.Ring
import ScriptKit.Numeral.Binary64

/-! Floating-point numbers on the number line. Every finite number is a whole multiple of the least
positive one, `2 ^ (-1074)`, so its place is an integer. The order of bit patterns is the order of
places, and numbers at one place are equal. -/
namespace ScriptKit.Binary64

/-- How many times the least positive number goes into the number of that magnitude. The infinities
take the place after the greatest number. -/
def stepsAt (magnitude : Nat) : Nat :=
  if magnitude / exponentWeight = 0 then magnitude
  else (exponentWeight + magnitude % exponentWeight) * 2 ^ (magnitude / exponentWeight - 1)

/-- The place of a number, in multiples of the least positive number. -/
def place (x : Binary64) : Int :=
  if x.isNegative then -(stepsAt x.magnitude : Int) else stepsAt x.magnitude

/-- A significand of fifty-three digits, or fewer at the least exponent, and an exponent give the
place. The first significand beyond them continues the count. -/
theorem stepsAt_mul_add {e s : Nat} (hs : s ≤ 2 * exponentWeight) (h : e = 0 ∨ exponentWeight ≤ s) :
    stepsAt (e * exponentWeight + s) = s * 2 ^ e := by
  have hpos : 0 < exponentWeight := by decide
  rcases Nat.lt_or_ge s exponentWeight with hlow | hlow
  · obtain rfl : e = 0 := by omega
    simp [stepsAt, Nat.div_eq_of_lt hlow]
  · rcases Nat.lt_or_eq_of_le hs with hlt | rfl
    · have hsplit : e * exponentWeight + s = (s - exponentWeight) + exponentWeight * (e + 1) := by
        rw [Nat.mul_succ, Nat.mul_comm e]
        omega
      have hrest : s - exponentWeight < exponentWeight := by omega
      have hquotient : (e * exponentWeight + s) / exponentWeight = e + 1 := by
        rw [hsplit, Nat.add_mul_div_left _ _ hpos, Nat.div_eq_of_lt hrest, Nat.zero_add]
      have hfraction : (e * exponentWeight + s) % exponentWeight = s - exponentWeight := by
        rw [hsplit, Nat.add_mul_mod_self_left, Nat.mod_eq_of_lt hrest]
      simp [stepsAt, hquotient, hfraction, Nat.add_sub_of_le hlow]
    · have hsplit : e * exponentWeight + 2 * exponentWeight = exponentWeight * (e + 2) := by ring
      rw [stepsAt, hsplit, Nat.mul_div_cancel_left _ hpos, Nat.mul_mod_right, if_neg (by omega)]
      have hexp : e + 2 - 1 = e + 1 := by omega
      rw [hexp, pow_succ]
      ring

theorem exists_stepsAt (magnitude : Nat) :
    ∃ e s, magnitude = e * exponentWeight + s ∧ s < 2 * exponentWeight ∧
      (e = 0 ∨ exponentWeight ≤ s) ∧ stepsAt magnitude = s * 2 ^ e := by
  have hpos : 0 < exponentWeight := by decide
  have hmod := Nat.mod_lt magnitude hpos
  have hdiv := Nat.div_add_mod' magnitude exponentWeight
  rcases Nat.eq_zero_or_pos (magnitude / exponentWeight) with hzero | hexp
  · refine ⟨0, magnitude, by simp, ?_, .inl rfl, by simp [stepsAt, hzero]⟩
    rw [hzero] at hdiv
    omega
  · obtain ⟨e, he⟩ : ∃ e, magnitude / exponentWeight = e + 1 :=
      ⟨magnitude / exponentWeight - 1, by omega⟩
    have hsplit :
        magnitude = e * exponentWeight + (exponentWeight + magnitude % exponentWeight) := by
      rw [he, Nat.succ_mul] at hdiv
      omega
    refine ⟨e, exponentWeight + magnitude % exponentWeight, hsplit, by omega, .inr (by omega), ?_⟩
    simp [stepsAt, he]

theorem strictMono_stepsAt : StrictMono stepsAt := by
  apply strictMono_nat_of_lt_succ
  intro magnitude
  obtain ⟨e, s, rfl, hs, h, hsteps⟩ := exists_stepsAt magnitude
  have hnext : stepsAt (e * exponentWeight + (s + 1)) = (s + 1) * 2 ^ e :=
    stepsAt_mul_add (by omega) (by omega)
  rw [hsteps, Nat.add_assoc, hnext]
  exact Nat.mul_lt_mul_of_pos_right (Nat.lt_succ_self s) (Nat.two_pow_pos e)

section Signs

variable {x y : Binary64}

theorem stepsAt_pos (magnitude : Nat) : 0 < stepsAt magnitude ↔ 0 < magnitude :=
  strictMono_stepsAt.lt_iff_lt (a := 0)

theorem eq_of_magnitude_eq (h : x.magnitude = y.magnitude) (hsign : x.isNegative = y.isNegative) :
    x = y := by
  apply orderKey_injective
  rw [orderKey, orderKey, h, hsign]

theorem place_eq_iff : x.place = y.place ↔ x = y ∨ x.isZero = true ∧ y.isZero = true := by
  have hzero (z : Binary64) : z.isZero = true ↔ stepsAt z.magnitude = 0 := by
    have hpos := stepsAt_pos z.magnitude
    simp only [isZero, decide_eq_true_eq]
    omega
  constructor
  · intro h
    rw [hzero, hzero]
    by_cases hsign : x.isNegative = y.isNegative
    · left
      apply eq_of_magnitude_eq (strictMono_stepsAt.injective ?_) hsign
      simp only [place, hsign] at h
      split at h <;> omega
    · right
      simp only [place] at h
      cases hx : x.isNegative <;> cases hy : y.isNegative <;> simp_all
  · rintro (rfl | ⟨hx, hy⟩)
    · rfl
    · rw [hzero] at hx hy
      simp [place, hx, hy]

/-- The order of bit patterns follows the places, and puts the negative zero first. -/
theorem orderKey_le (hplace : x.place ≤ y.place)
    (hsign : y.isNegative = true → x.isNegative = true) : x.orderKey ≤ y.orderKey := by
  simp only [place, orderKey] at hplace ⊢
  by_cases hx : x.isNegative = true
  · by_cases hy : y.isNegative = true
    · have hle : stepsAt y.magnitude ≤ stepsAt x.magnitude := by
        simp only [hx, hy, if_true] at hplace
        omega
      have := strictMono_stepsAt.le_iff_le.1 hle
      simp only [hx, hy, if_true]
      omega
    · simp only [hx, hy, if_true]
      simp
      omega
  · have hy : ¬ y.isNegative = true := fun hy => hx (hsign hy)
    simp only [hx, hy] at hplace ⊢
    simpa using strictMono_stepsAt.le_iff_le.1 (by simpa using hplace)

end Signs

end ScriptKit.Binary64
