import Mathlib.Algebra.Order.Group.Abs
import Mathlib.Algebra.Group.Int.Even
import Mathlib.Algebra.Order.Ring.Abs
import Mathlib.Tactic.Linarith
import Mathlib.Tactic.Positivity
import ScriptKit.Numeral.Binary64
import ScriptKit.Proofs.NumberLine

/-! Rounding an integer to a floating-point number. The result is a finite number than which none is
nearer, and of two that are equally near it is the even one. So rounding keeps the order of
integers, and it keeps every integer of at most fifty-three binary digits. -/
namespace ScriptKit

namespace Numeral

section RoundDiv

variable {num den : Nat}

theorem roundDiv_cases (num den : Nat) :
    roundDiv num den = num / den ∧ 2 * (num % den) ≤ den ∨
      roundDiv num den = num / den + 1 ∧ den ≤ 2 * (num % den) := by
  simp only [roundDiv]
  split
  · omega
  · split <;> omega

/-- A rounded quotient is within half a divisor of the exact one, and it is even at the half. -/
theorem roundDiv_half (num : Nat) {den : Nat} (hden : 0 < den) :
    2 * |(num : Int) - den * roundDiv num den| ≤ den ∧
      (2 * |(num : Int) - den * roundDiv num den| = den → Even (roundDiv num den)) := by
  have hmod := Nat.mod_lt num hden
  have hnum : (num : Int) = den * (num / den : Nat) + (num % den : Nat) := by
    exact_mod_cast (Nat.div_add_mod num den).symm
  have htie : 2 * (num % den) = den → Even (roundDiv num den) := by
    intro htie
    simp only [roundDiv, htie, lt_irrefl, if_false, Nat.even_iff]
    omega
  rcases roundDiv_cases num den with ⟨hround, hle⟩ | ⟨hround, hle⟩
  · have hdiff : (num : Int) - den * roundDiv num den = (num % den : Nat) := by
      rw [hround]
      linarith
    rw [hdiff, abs_of_nonneg (by omega)]
    exact ⟨by omega, fun h => htie (by omega)⟩
  · have hdiff : (num : Int) - den * roundDiv num den = -(den - (num % den : Nat)) := by
      rw [hround, Nat.cast_add_one]
      linarith
    rw [hdiff, abs_neg, abs_of_nonneg (by omega)]
    exact ⟨by omega, fun h => htie (by omega)⟩

/-- Multiples of the divisor are a divisor apart, so one of two is half of it away. -/
theorem le_abs_sub_mul_add (num den : Nat) {k r : Int} (h : k ≠ r) :
    (den : Int) ≤ |(num : Int) - den * k| + |(num : Int) - den * r| := by
  have hone : 1 ≤ |k - r| := Int.one_le_abs (sub_ne_zero.2 h)
  calc (den : Int) ≤ den * |k - r| := le_mul_of_one_le_right (by omega) hone
    _ = |((num : Int) - den * r) - ((num : Int) - den * k)| := by
      rw [sub_sub_sub_cancel_left, ← mul_sub, abs_mul, abs_of_nonneg (by omega : (0 : Int) ≤ den)]
    _ ≤ |(num : Int) - den * r| + |(num : Int) - den * k| := abs_sub _ _
    _ = |(num : Int) - den * k| + |(num : Int) - den * r| := add_comm _ _

theorem abs_sub_mul_roundDiv_le (hden : 0 < den) (k : Int) :
    |(num : Int) - den * roundDiv num den| ≤ |(num : Int) - den * k| := by
  by_cases hk : k = roundDiv num den
  · rw [hk]
  · have happart := le_abs_sub_mul_add num den hk
    have hhalf := (roundDiv_half num hden).1
    linarith

theorem even_roundDiv (hden : 0 < den) {k : Int} (hk : k ≠ roundDiv num den)
    (h : |(num : Int) - den * k| = |(num : Int) - den * roundDiv num den|) :
    Even (roundDiv num den) := by
  have happart := le_abs_sub_mul_add num den hk
  have hhalf := roundDiv_half num hden
  exact hhalf.2 (by linarith [hhalf.1])

theorem mul_roundDiv_of_dvd (hden : 0 < den) (h : den ∣ num) : den * roundDiv num den = num := by
  rw [roundDiv, Nat.mod_eq_zero_of_dvd h]
  simp [hden, Nat.mul_div_cancel' h]

end RoundDiv

end Numeral

namespace Binary64

/-- The number one, in multiples of the least positive number. -/
def oneSteps : Nat := 2 ^ 1074

theorem oneSteps_pos : 0 < oneSteps := pow_pos two_pos _

def IsFinite (x : Binary64) : Prop := x.magnitude < infinityMagnitude

instance : DecidablePred IsFinite :=
  fun x => inferInstanceAs (Decidable (x.magnitude < infinityMagnitude))

/-- No finite number is nearer to the integer, and none other is as near unless this one is even. -/
structure IsNearest (n : Int) (x : Binary64) : Prop where
  finite : x.IsFinite
  le : ∀ y : Binary64, y.IsFinite → |n * oneSteps - x.place| ≤ |n * oneSteps - y.place|
  even : ∀ y : Binary64, y.IsFinite → y.place ≠ x.place →
    |n * oneSteps - y.place| = |n * oneSteps - x.place| → Even x.magnitude

/-- Rounding never turns two integers round. -/
theorem IsNearest.place_le {m n : Int} {x y : Binary64} (hx : IsNearest m x) (hy : IsNearest n y)
    (h : m < n) : x.place ≤ y.place := by
  by_contra hlt
  have hsteps : m * (oneSteps : Int) < n * oneSteps :=
    mul_lt_mul_of_pos_right h (Int.natCast_pos.2 oneSteps_pos)
  -- The first integer is not below the middle between the places, the second not above it.
  have hm : x.place + y.place ≤ 2 * (m * oneSteps) := by
    by_contra hlow
    have hnear : |m * oneSteps - y.place| < x.place - m * oneSteps :=
      abs_lt.2 ⟨by linarith, by linarith⟩
    linarith [hx.le y hy.finite, neg_le_abs (m * oneSteps - x.place)]
  have hn : 2 * (n * oneSteps) ≤ x.place + y.place := by
    by_contra hhigh
    have hnear : |n * oneSteps - x.place| < n * oneSteps - y.place :=
      abs_lt.2 ⟨by linarith, by linarith⟩
    linarith [hy.le x hx.finite, le_abs_self (n * oneSteps - y.place)]
  linarith

section Integer

variable {n : Nat}

theorem exponentWeight_eq : exponentWeight = 2 ^ 52 := by decide

/-- The significand to which a positive integer is rounded. -/
def significandOf (n : Nat) : Nat :=
  Numeral.roundDiv (n * 2 ^ (52 - n.log2)) (2 ^ (n.log2 - 52))

theorem floorLog2_one (hn : 0 < n) : Numeral.floorLog2 n 1 = n.log2 := by
  have hle : 2 ^ n.log2 ≤ n := Nat.log2_self_le (Nat.ne_of_gt hn)
  have hone : Nat.log2 1 = 0 := by decide
  simp [Numeral.floorLog2, hone, Nat.shiftLeft_eq, hle]

/-- Between powers of two, significands have fifty-three digits; one more is the next power. -/
theorem significandOf_bounds (hn : 0 < n) :
    exponentWeight ≤ significandOf n ∧ significandOf n ≤ 2 * exponentWeight := by
  have hden : 0 < 2 ^ (n.log2 - 52) := Nat.two_pow_pos _
  have hscale : 2 ^ 52 * 2 ^ (n.log2 - 52) = 2 ^ n.log2 * 2 ^ (52 - n.log2) := by
    rw [← pow_add, ← pow_add]
    congr 1
    omega
  have hlow : 2 ^ 52 ≤ n * 2 ^ (52 - n.log2) / 2 ^ (n.log2 - 52) := by
    rw [Nat.le_div_iff_mul_le hden, hscale]
    exact Nat.mul_le_mul_right _ (Nat.log2_self_le (Nat.ne_of_gt hn))
  have hhigh : n * 2 ^ (52 - n.log2) / 2 ^ (n.log2 - 52) < 2 * 2 ^ 52 := by
    rw [Nat.div_lt_iff_lt_mul hden, mul_assoc, hscale, ← mul_assoc, ← pow_succ']
    exact Nat.mul_lt_mul_of_pos_right Nat.lt_log2_self (Nat.two_pow_pos _)
  rw [exponentWeight_eq, significandOf]
  rcases Numeral.roundDiv_cases (n * 2 ^ (52 - n.log2)) (2 ^ (n.log2 - 52)) with ⟨h, -⟩ | ⟨h, -⟩
  · omega
  · omega

theorem magnitudeOfRatio_one (hn : 0 < n) (hlog : n.log2 < 64) :
    magnitudeOfRatio n 1 = (n.log2 + 1022) * exponentWeight + significandOf n := by
  have hbound := (significandOf_bounds hn).2
  have hunit : max ((n.log2 : Int) - 52) (-1074) = n.log2 - 52 := by omega
  have hneg : (-((n.log2 : Int) - 52)).toNat = 52 - n.log2 := by omega
  have hpos : ((n.log2 : Int) - 52).toNat = n.log2 - 52 := by omega
  have hexp : ((n.log2 : Int) - 52 + 1074).toNat = n.log2 + 1022 := by omega
  have hsig : Numeral.roundDiv (n <<< (52 - n.log2)) (1 <<< (n.log2 - 52)) = significandOf n := by
    simp [significandOf, Nat.shiftLeft_eq]
  rw [magnitudeOfRatio, if_neg (Nat.ne_of_gt hn)]
  simp only [floorLog2_one hn, hunit, hneg, hpos, hexp, hsig]
  apply min_eq_left
  simp only [exponentWeight, infinityMagnitude] at hbound ⊢
  omega

theorem exponentWeight_mul_two_pow (e : Nat) :
    exponentWeight * 2 ^ (e + 1022) = 2 ^ e * oneSteps := by
  have hexp : 52 + (e + 1022) = e + 1074 := by omega
  rw [exponentWeight_eq, oneSteps, ← pow_add, ← pow_add, hexp]

/-- On the line, a multiple of an integer's last place is as far from the integer as the multiple of
the divisor is from the dividend in rounding it. -/
theorem abs_sub_mul_two_pow (n : Nat) (k : Int) :
    |(n * oneSteps : Int) - k * 2 ^ (n.log2 + 1022)| =
      2 ^ (1074 - (52 - n.log2)) *
        |((n * 2 ^ (52 - n.log2) : Nat) : Int) - (2 ^ (n.log2 - 52) : Nat) * k| := by
  have hone : (oneSteps : Int) = 2 ^ (1074 - (52 - n.log2)) * 2 ^ (52 - n.log2) := by
    rw [oneSteps, Nat.cast_pow, Nat.cast_two, ← pow_add]
    congr 1
    omega
  have hunit : (2 : Int) ^ (n.log2 + 1022) = 2 ^ (1074 - (52 - n.log2)) * 2 ^ (n.log2 - 52) := by
    rw [← pow_add]
    congr 1
    omega
  have hfactor : (n * oneSteps : Int) - k * 2 ^ (n.log2 + 1022) =
      2 ^ (1074 - (52 - n.log2)) *
        (((n * 2 ^ (52 - n.log2) : Nat) : Int) - (2 ^ (n.log2 - 52) : Nat) * k) := by
    rw [hone, hunit]
    push_cast
    ring
  rw [hfactor, abs_mul, abs_of_pos (by positivity)]

/-- A number has no digits below the last place of the integer, or it is smaller than the power of
two below the integer. -/
theorem stepsAt_cases (n magnitude : Nat) :
    (∃ k : Nat, stepsAt magnitude = k * 2 ^ (n.log2 + 1022)) ∨
      stepsAt magnitude < exponentWeight * 2 ^ (n.log2 + 1022) := by
  obtain ⟨e, s, -, hs, -, hsteps⟩ := exists_stepsAt magnitude
  rw [hsteps]
  rcases Nat.lt_or_ge e (n.log2 + 1022) with hlt | hge
  · right
    calc s * 2 ^ e < 2 * exponentWeight * 2 ^ e :=
          Nat.mul_lt_mul_of_pos_right hs (Nat.two_pow_pos e)
      _ = exponentWeight * 2 ^ (e + 1) := by ring
      _ ≤ exponentWeight * 2 ^ (n.log2 + 1022) :=
        Nat.mul_le_mul_left _ (Nat.pow_le_pow_right two_pos hlt)
  · left
    refine ⟨s * 2 ^ (e - (n.log2 + 1022)), ?_⟩
    rw [mul_assoc, ← pow_add, Nat.sub_add_cancel hge]

/-- No number is nearer to a positive integer than the one with its rounded significand, and that
one is even if another number is as near. -/
theorem nearest_significandOf (hn : 0 < n) (magnitude : Nat) :
    |(n * oneSteps : Int) - significandOf n * 2 ^ (n.log2 + 1022)| ≤
        |(n * oneSteps : Int) - stepsAt magnitude| ∧
      (stepsAt magnitude ≠ significandOf n * 2 ^ (n.log2 + 1022) →
        |(n * oneSteps : Int) - stepsAt magnitude| =
          |(n * oneSteps : Int) - significandOf n * 2 ^ (n.log2 + 1022)| →
        Even (significandOf n)) := by
  have hden : 0 < 2 ^ (n.log2 - 52) := Nat.two_pow_pos _
  have hle (k : Int) : |(n * oneSteps : Int) - significandOf n * 2 ^ (n.log2 + 1022)| ≤
      |(n * oneSteps : Int) - k * 2 ^ (n.log2 + 1022)| := by
    rw [abs_sub_mul_two_pow, abs_sub_mul_two_pow]
    exact mul_le_mul_of_nonneg_left (Numeral.abs_sub_mul_roundDiv_le hden k) (by positivity)
  rcases stepsAt_cases n magnitude with ⟨k, hk⟩ | hlt
  · rw [hk, Nat.cast_mul, Nat.cast_pow, Nat.cast_two]
    refine ⟨hle k, fun hne heq => ?_⟩
    have hpow : (2 : Int) ^ (1074 - (52 - n.log2)) ≠ 0 := by positivity
    rw [abs_sub_mul_two_pow, abs_sub_mul_two_pow] at heq
    refine Numeral.even_roundDiv hden (k := k) ?_ (mul_left_cancel₀ hpow heq)
    intro hsame
    exact hne (by rw [Nat.cast_inj.1 hsame, significandOf])
  · have hpower : exponentWeight * 2 ^ (n.log2 + 1022) ≤ n * oneSteps := by
      rw [exponentWeight_mul_two_pow]
      exact Nat.mul_le_mul_right _ (Nat.log2_self_le (Nat.ne_of_gt hn))
    zify at hlt hpower
    have hstrict := calc
      |(n * oneSteps : Int) - significandOf n * 2 ^ (n.log2 + 1022)|
        ≤ |(n * oneSteps : Int) - exponentWeight * 2 ^ (n.log2 + 1022)| := hle exponentWeight
      _ = n * oneSteps - exponentWeight * 2 ^ (n.log2 + 1022) := abs_of_nonneg (sub_nonneg.2 hpower)
      _ < n * oneSteps - stepsAt magnitude := sub_lt_sub_left hlt _
      _ ≤ |(n * oneSteps : Int) - stepsAt magnitude| := le_abs_self _
    exact ⟨hstrict.le, fun _ heq => absurd heq hstrict.ne'⟩

end Integer

section OfInt

variable {negative : Bool} {m : Nat} {n : Int}

theorem magnitude_ofMagnitude (hm : m < signWeight) : (ofMagnitude negative m).magnitude = m := by
  simp only [signWeight] at hm
  cases negative <;> simp [ofMagnitude, magnitude, signWeight] <;> omega

theorem isNegative_ofMagnitude (hm : m < signWeight) :
    (ofMagnitude negative m).isNegative = negative := by
  simp only [signWeight] at hm
  cases negative <;> simp [ofMagnitude, isNegative, signWeight] <;> omega

/-- The integers that have at most sixty-four binary digits beside their sign. -/
def IsWord (n : Int) : Prop := n.natAbs < 2 ^ 64

theorem magnitudeOfRatio_one_lt (hm : m < 2 ^ 64) : magnitudeOfRatio m 1 < infinityMagnitude := by
  rcases Nat.eq_zero_or_pos m with rfl | hpos
  · decide
  · have hlog : m.log2 < 64 := (Nat.log2_lt (Nat.ne_of_gt hpos)).2 hm
    have hbound := (significandOf_bounds hpos).2
    rw [magnitudeOfRatio_one hpos hlog]
    simp only [exponentWeight, infinityMagnitude] at hbound ⊢
    omega

theorem magnitude_ofInt (h : IsWord n) : (ofInt n).magnitude = magnitudeOfRatio n.natAbs 1 :=
  magnitude_ofMagnitude ((magnitudeOfRatio_one_lt h).trans (by decide))

theorem isNegative_ofInt (h : IsWord n) : (ofInt n).isNegative = decide (n < 0) :=
  isNegative_ofMagnitude ((magnitudeOfRatio_one_lt h).trans (by decide))

theorem place_ofInt_zero : (ofInt 0).place = 0 := by decide

theorem magnitude_ofInt_of_ne_zero (h : IsWord n) (hn : n ≠ 0) :
    (ofInt n).magnitude =
      (n.natAbs.log2 + 1022) * exponentWeight + significandOf n.natAbs := by
  have hpos : 0 < n.natAbs := Int.natAbs_pos.2 hn
  have hlog : n.natAbs.log2 < 64 := (Nat.log2_lt (Nat.ne_of_gt hpos)).2 h
  rw [magnitude_ofInt h, magnitudeOfRatio_one hpos hlog]

theorem stepsAt_ofInt (h : IsWord n) (hn : n ≠ 0) :
    stepsAt (ofInt n).magnitude =
      significandOf n.natAbs * 2 ^ (n.natAbs.log2 + 1022) := by
  have hbounds := significandOf_bounds (Int.natAbs_pos.2 hn)
  rw [magnitude_ofInt_of_ne_zero h hn, stepsAt_mul_add hbounds.2 (.inr hbounds.1)]

theorem abs_place (x : Binary64) : |x.place| = stepsAt x.magnitude := by
  rw [place]
  split <;> simp

/-- An integer and the number to which it is rounded have one sign, so they are as far apart as
their sizes. -/
theorem abs_sub_place_ofInt (h : IsWord n) :
    |n * oneSteps - (ofInt n).place| =
      |(n.natAbs * oneSteps : Int) - stepsAt (ofInt n).magnitude| := by
  rw [place, isNegative_ofInt h]
  by_cases hneg : n < 0
  · have hn : n = -(n.natAbs : Int) := by omega
    rw [if_pos (by simpa using hneg), ← abs_neg]
    nth_rewrite 1 [hn]
    congr 1
    ring
  · have hn : n = (n.natAbs : Int) := by omega
    rw [if_neg (by simpa using hneg)]
    nth_rewrite 1 [hn]
    rfl

theorem even_magnitude_ofInt (h : IsWord n) (hn : n ≠ 0) (heven : Even (significandOf n.natAbs)) :
    Even (ofInt n).magnitude := by
  have hweight : Even exponentWeight := by decide
  rw [magnitude_ofInt_of_ne_zero h hn]
  exact (hweight.mul_left _).add heven

theorem isNearest_ofInt (h : IsWord n) : IsNearest n (ofInt n) := by
  have hfinite : (ofInt n).IsFinite := by
    rw [IsFinite, magnitude_ofInt h]
    exact magnitudeOfRatio_one_lt h
  by_cases hn : n = 0
  · subst hn
    refine ⟨hfinite, fun y _ => ?_, fun y _ hne heq => ?_⟩
    · rw [place_ofInt_zero, zero_mul, sub_zero, abs_zero]
      exact abs_nonneg _
    · rw [place_ofInt_zero, zero_mul, sub_zero, abs_zero, abs_eq_zero, zero_sub,
        neg_eq_zero] at heq
      exact absurd (heq.trans place_ofInt_zero.symm) hne
  have hsize : |n * (oneSteps : Int)| = n.natAbs * oneSteps := by
    rw [abs_mul, Int.abs_eq_natAbs, Nat.abs_cast]
  have hfar (y : Binary64) :
      |(n.natAbs * oneSteps : Int) - stepsAt y.magnitude| ≤ |n * oneSteps - y.place| := by
    rw [← hsize, ← abs_place]
    exact abs_abs_sub_abs_le _ _
  have hnear (y : Binary64) := nearest_significandOf (Int.natAbs_pos.2 hn) y.magnitude
  have hsteps : (significandOf n.natAbs * 2 ^ (n.natAbs.log2 + 1022) : Int) =
      stepsAt (ofInt n).magnitude := by
    rw [stepsAt_ofInt h hn]
    push_cast
    rfl
  refine ⟨hfinite, fun y _ => ?_, fun y _ hne heq => ?_⟩
  · rw [abs_sub_place_ofInt h, ← hsteps]
    exact (hnear y).1.trans (hfar y)
  · refine even_magnitude_ofInt h hn ((hnear y).2 ?_ (le_antisymm ?_ (hnear y).1))
    · intro hsame
      have habs : |y.place| = |(ofInt n).place| := by
        rw [abs_place, abs_place, hsame, stepsAt_ofInt h hn]
      have hopposite : y.place = -(ofInt n).place := (abs_eq_abs.1 habs).resolve_left hne
      have hzero : n * (oneSteps : Int) ≠ 0 :=
        mul_ne_zero hn (Int.natCast_ne_zero.2 oneSteps_pos.ne')
      rw [hopposite] at hne heq
      rcases abs_eq_abs.1 heq with hplus | hminus
      · exact hne (by linarith)
      · exact hzero (by linarith)
    · rw [hsteps, ← abs_sub_place_ofInt h, ← heq]
      exact hfar y

theorem eq_zero_of_isZero_ofInt (h : IsWord n) (hzero : (ofInt n).isZero = true) : n = 0 := by
  by_contra hn
  have hbound := (significandOf_bounds (Int.natAbs_pos.2 hn)).1
  have hsteps : 0 < stepsAt (ofInt n).magnitude := by
    rw [stepsAt_ofInt h hn]
    exact Nat.mul_pos (lt_of_lt_of_le (by decide) hbound) (Nat.two_pow_pos _)
  rw [stepsAt_pos] at hsteps
  simp only [isZero, decide_eq_true_eq] at hzero
  omega

theorem place_ofInt (h : n.natAbs ≤ 2 ^ 53) : (ofInt n).place = n * oneSteps := by
  have hword : IsWord n := lt_of_le_of_lt h (by decide)
  by_cases hn : n = 0
  · subst hn
    rw [place_ofInt_zero, zero_mul]
  have hpos : 0 < n.natAbs := Int.natAbs_pos.2 hn
  have hdvd : 2 ^ (n.natAbs.log2 - 52) ∣ n.natAbs * 2 ^ (52 - n.natAbs.log2) := by
    rcases Nat.lt_or_eq_of_le h with hlt | heq
    · have hlog : n.natAbs.log2 < 53 := (Nat.log2_lt (Nat.ne_of_gt hpos)).2 hlt
      simp [Nat.sub_eq_zero_of_le (Nat.lt_succ_iff.1 hlog)]
    · rw [heq]
      decide
  have hexact := Numeral.mul_roundDiv_of_dvd (Nat.two_pow_pos _) hdvd
  have hdist : |n * oneSteps - (ofInt n).place| = 0 := by
    rw [abs_sub_place_ofInt hword, stepsAt_ofInt hword hn, Nat.cast_mul, Nat.cast_pow, Nat.cast_two,
      abs_sub_mul_two_pow, significandOf, ← Nat.cast_mul, hexact, sub_self, abs_zero, mul_zero]
  exact (sub_eq_zero.1 (abs_eq_zero.1 hdist)).symm

end OfInt

section Rounded

variable {m n : Int} {x y : Binary64}

theorem place_ofMagnitude (negative : Bool) {magnitude : Nat} (h : magnitude < infinityMagnitude) :
    (ofMagnitude negative magnitude).IsFinite ∧ (ofMagnitude negative magnitude).place =
      if negative then -(stepsAt magnitude : Int) else stepsAt magnitude := by
  have hsign : magnitude < signWeight := h.trans (by decide)
  rw [IsFinite, place, magnitude_ofMagnitude hsign, isNegative_ofMagnitude hsign]
  exact ⟨h, rfl⟩

/-- Two even numbers are not neighbours. -/
theorem exists_place_between (hx : x.IsFinite) (hy : y.IsFinite) (hxe : Even x.magnitude)
    (hye : Even y.magnitude) (h : x.place < y.place) :
    ∃ z : Binary64, z.IsFinite ∧ x.place < z.place ∧ z.place < y.place := by
  have habs (z : Binary64) := z.abs_place
  rw [IsFinite] at hx hy
  rw [Nat.even_iff] at hxe hye
  by_cases hxs : 0 ≤ x.place
  · have hxp := (abs_of_nonneg hxs).symm.trans (habs x)
    have hyp := (abs_of_nonneg (hxs.trans h.le)).symm.trans (habs y)
    rw [hxp, hyp, Nat.cast_lt, strictMono_stepsAt.lt_iff_lt] at h
    have hmagnitude : x.magnitude + 1 < infinityMagnitude := by omega
    obtain ⟨hfinite, hplace⟩ := place_ofMagnitude false hmagnitude
    refine ⟨_, hfinite, ?_⟩
    simp only [hplace, hxp, hyp, Bool.false_eq_true, if_false, Nat.cast_lt]
    exact ⟨strictMono_stepsAt (Nat.lt_succ_self _), strictMono_stepsAt (by omega)⟩
  by_cases hys : y.place ≤ 0
  · have hxp := (abs_of_nonpos (h.le.trans hys)).symm.trans (habs x)
    have hyp := (abs_of_nonpos hys).symm.trans (habs y)
    have hlt : y.magnitude < x.magnitude := strictMono_stepsAt.lt_iff_lt.1 (by omega)
    have hmagnitude : y.magnitude + 1 < infinityMagnitude := by omega
    obtain ⟨hfinite, hplace⟩ := place_ofMagnitude true hmagnitude
    have hlow : stepsAt y.magnitude < stepsAt (y.magnitude + 1) :=
      strictMono_stepsAt (Nat.lt_succ_self _)
    have hhigh : stepsAt (y.magnitude + 1) < stepsAt x.magnitude := strictMono_stepsAt (by omega)
    refine ⟨_, hfinite, ?_⟩
    simp only [hplace, if_true]
    exact ⟨by omega, by omega⟩
  · have hzero : zero.place = 0 := by decide
    exact ⟨zero, by decide, by omega, by omega⟩

/-- Only one place is nearest to an integer. -/
theorem IsNearest.place_eq (hx : IsNearest n x) (hy : IsNearest n y) : x.place = y.place := by
  -- Of two nearest places both would be even, and a nearer one would be between them.
  have hfalse {x y : Binary64} (hx : IsNearest n x) (hy : IsNearest n y) :
      ¬ x.place < y.place := by
    intro hlt
    have hdist := le_antisymm (hx.le y hy.finite) (hy.le x hx.finite)
    have hxe := hx.even y hy.finite hlt.ne' hdist.symm
    have hye := hy.even x hx.finite hlt.ne hdist
    obtain ⟨z, hz, hxz, hzy⟩ := exists_place_between hx.finite hy.finite hxe hye hlt
    have hmiddle : n * oneSteps - x.place = y.place - n * oneSteps := by
      rcases abs_eq_abs.1 hdist with h | h
      · exact absurd hlt (by linarith)
      · linarith
    have hnear : |n * oneSteps - z.place| < n * oneSteps - x.place :=
      abs_lt.2 ⟨by linarith, by linarith⟩
    exact absurd (hx.le z hz) (not_le.2 (hnear.trans_le (le_abs_self _)))
  exact le_antisymm (not_lt.1 (hfalse hy hx)) (not_lt.1 (hfalse hx hy))

/-- Two integers are rounded to one number exactly if some number is nearest to both. -/
theorem ofInt_eq_ofInt_iff (hm : IsWord m) (hn : IsWord n) :
    ofInt m = ofInt n ↔ ∃ x, IsNearest m x ∧ IsNearest n x := by
  constructor
  · intro h
    exact ⟨ofInt m, isNearest_ofInt hm, h ▸ isNearest_ofInt hn⟩
  · rintro ⟨x, hxm, hxn⟩
    have hplace : (ofInt m).place = (ofInt n).place :=
      ((isNearest_ofInt hm).place_eq hxm).trans (hxn.place_eq (isNearest_ofInt hn))
    rcases place_eq_iff.1 hplace with heq | ⟨hmz, hnz⟩
    · exact heq
    · rw [eq_zero_of_isZero_ofInt hm hmz, eq_zero_of_isZero_ofInt hn hnz]

theorem orderKey_ofInt_le (hm : IsWord m) (hn : IsWord n) (h : m ≤ n) :
    (ofInt m).orderKey ≤ (ofInt n).orderKey := by
  rcases h.eq_or_lt with rfl | hlt
  · exact le_rfl
  · apply orderKey_le ((isNearest_ofInt hm).place_le (isNearest_ofInt hn) hlt)
    rw [isNegative_ofInt hm, isNegative_ofInt hn]
    simpa using fun hneg => hlt.trans hneg

/-- Rounding tells an integer of at most fifty-three digits from all others, and from its opposite
the one after them. -/
theorem ofInt_ne_ofInt (hn : IsWord n) (hne : m ≠ n)
    (hm : m.natAbs < 2 ^ 53 ∨ m.natAbs ≤ 2 ^ 53 ∧ n.natAbs ≤ 2 ^ 53) : ofInt m ≠ ofInt n := by
  intro heq
  have hone : (0 : Int) < oneSteps := Int.natCast_pos.2 oneSteps_pos
  have hplace : (ofInt n).place = m * oneSteps := by
    rw [← heq]
    exact place_ofInt (by omega)
  have hlimit (k : Int) (hk : k.natAbs = 2 ^ 53) :
      IsNearest k (ofInt k) ∧ (ofInt k).place = k * oneSteps :=
    ⟨isNearest_ofInt (by rw [IsWord, hk]; decide), place_ofInt hk.le⟩
  have hnearest := isNearest_ofInt hn
  by_cases hsmall : n.natAbs ≤ 2 ^ 53
  · rw [place_ofInt hsmall] at hplace
    exact hne (mul_right_cancel₀ hone.ne' hplace.symm)
  rcases Int.lt_or_lt_of_ne (a := n) (b := 0) (by omega) with hneg | hpos
  · obtain ⟨hlow, hlowPlace⟩ := hlimit (-2 ^ 53) (by decide)
    have hle := hnearest.place_le hlow (by omega)
    rw [hplace, hlowPlace] at hle
    have := le_of_mul_le_mul_right hle hone
    omega
  · obtain ⟨hhigh, hhighPlace⟩ := hlimit (2 ^ 53) (by decide)
    have hle := hhigh.place_le hnearest (by omega)
    rw [hplace, hhighPlace] at hle
    have := le_of_mul_le_mul_right hle hone
    omega

theorem orderKey_ofInt_lt (hm : m.natAbs ≤ 2 ^ 53) (hn : n.natAbs ≤ 2 ^ 53) (h : m < n) :
    (ofInt m).orderKey < (ofInt n).orderKey := by
  have hword {k : Int} (hk : k.natAbs ≤ 2 ^ 53) : IsWord k := lt_of_le_of_lt hk (by decide)
  apply lt_of_le_of_ne (orderKey_ofInt_le (hword hm) (hword hn) h.le)
  intro heq
  exact ofInt_ne_ofInt (hword hn) h.ne (.inr ⟨hm, hn⟩) (orderKey_injective heq)

end Rounded

end Binary64

end ScriptKit
