import Mathlib
import RecordFilter.Number.Double

namespace RecordFilter.Double

theorem roundDiv_le (num den : Nat) : roundDiv num den ≤ num / den + 1 := by
  unfold roundDiv
  split_ifs <;> omega

theorem le_roundDiv (num den : Nat) : num / den ≤ roundDiv num den := by
  unfold roundDiv
  split_ifs <;> omega

/-- A quotient halfway below an even number is rounded up to it. -/
theorem le_roundDiv_iff (num k : Nat) {den : Nat} (hd : 0 < den) :
    2 * (k + 1) ≤ roundDiv num den ↔ (4 * k + 3) * den ≤ 2 * num := by
  have hn : num = den * (num / den) + num % den := (Nat.div_add_mod num den).symm
  have hr : num % den < den := Nat.mod_lt num hd
  obtain ⟨q, hq⟩ : ∃ q, q = num / den := ⟨_, rfl⟩
  obtain ⟨r, hrr⟩ : ∃ r, r = num % den := ⟨_, rfl⟩
  have hround : roundDiv num den =
      if 2 * r < den then q else if den < 2 * r then q + 1 else q + q % 2 := by rw [hq, hrr, roundDiv]
  rw [hround]
  rw [← hq, ← hrr] at hn
  rw [← hrr] at hr
  have hlow : q ≤ 2 * k → num * 2 < (4 * k + 2) * den := by
    intro h
    nlinarith
  have hhigh : 2 * k + 2 ≤ q → (4 * k + 4) * den ≤ 2 * num := by
    intro h
    nlinarith
  have hmid : q = 2 * k + 1 → 2 * num = (4 * k + 2) * den + 2 * r := by
    rintro rfl
    rw [hn]
    ring
  have hdist : (4 * k + 3) * den = (4 * k + 2) * den + den := by ring
  have hdist' : (4 * k + 4) * den = (4 * k + 2) * den + 2 * den := by ring
  rcases Nat.lt_trichotomy q (2 * k + 1) with hlt | heq | hgt
  · have := hlow (by omega)
    split_ifs <;> omega
  · have := hmid heq
    split_ifs <;> omega
  · have := hhigh (by omega)
    split_ifs <;> omega

theorem roundDiv_mul_le (num den : Nat) : roundDiv num den * den ≤ num + den := by
  have hr := Nat.mul_le_mul_right den (roundDiv_le num den)
  have hm := Nat.div_mul_le_self num den
  rw [Nat.add_mul, Nat.one_mul] at hr
  omega

theorem two_pow_log2_le {n : Nat} (h : 52 ≤ n.log2) : 2 ^ 52 * 2 ^ excess n ≤ n := by
  have hpos : n ≠ 0 := by
    rintro rfl
    simp at h
  have hexp : 52 + excess n = n.log2 := by unfold excess; omega
  rw [← pow_add, hexp]
  exact Nat.log2_self_le hpos

/-- Rounding to 53 bits reaches a power of two from the middle between it and the number before it on. -/
theorem rounded_lt_iff (n t : Nat) :
    roundDiv n (2 ^ excess n) * 2 ^ excess n < 2 ^ 54 * 2 ^ t ↔ n + 2 ^ t < 2 ^ 54 * 2 ^ t := by
  have hstep : 0 < 2 ^ excess n := Nat.two_pow_pos _
  rcases Nat.lt_trichotomy n.log2 (t + 53) with hlt | heq | hgt
  · have hn : n < 2 ^ 53 * 2 ^ t := by
      rw [← pow_add, Nat.add_comm]
      rcases Nat.eq_zero_or_pos n with rfl | hpos
      · exact Nat.two_pow_pos _
      · exact (Nat.log2_lt hpos.ne').mp hlt
    have hsmall : 2 ^ excess n ≤ 2 ^ t := Nat.pow_le_pow_right (by omega) (by unfold excess; omega)
    have hround := roundDiv_mul_le n (2 ^ excess n)
    generalize roundDiv n (2 ^ excess n) * 2 ^ excess n = rounded at hround ⊢
    generalize 2 ^ excess n = step at hsmall hround
    generalize 2 ^ t = half at hn hsmall ⊢
    constructor <;> intro _ <;> omega
  · have hexp : excess n = t + 1 := by unfold excess; omega
    have hiff := le_roundDiv_iff n (2 ^ 52 - 1) (Nat.two_pow_pos (t + 1))
    have htwo : 2 ^ 54 * 2 ^ t = 2 ^ 53 * 2 ^ (t + 1) := by rw [pow_succ 2 t]; ring
    rw [hexp, htwo, Nat.mul_lt_mul_right (Nat.two_pow_pos _)]
    rw [pow_succ 2 t] at hiff ⊢
    generalize roundDiv n (2 ^ t * 2) = rounded at hiff ⊢
    generalize 2 ^ t = half at hiff ⊢
    constructor <;> intro _ <;> omega
  · have hle : 2 ^ 52 * 2 ^ excess n ≤ n := two_pow_log2_le (by omega)
    have hq : 2 ^ 52 ≤ roundDiv n (2 ^ excess n) :=
      ((Nat.le_div_iff_mul_le hstep).mpr hle).trans (le_roundDiv n _)
    have hprod := Nat.mul_le_mul_right (2 ^ excess n) hq
    have hbig : 4 * 2 ^ t ≤ 2 ^ excess n := by
      have h := Nat.pow_le_pow_right (show 0 < 2 by omega) (show t + 2 ≤ excess n by unfold excess; omega)
      rw [pow_add] at h
      omega
    generalize roundDiv n (2 ^ excess n) * 2 ^ excess n = rounded at hprod ⊢
    generalize 2 ^ excess n = step at hle hprod hbig
    generalize 2 ^ t = half at hbig ⊢
    constructor <;> intro _ <;> omega

/-- The same for a whole number of ones, each of `2 ^ ones` units. -/
theorem rounded_scaled_lt_iff (m t ones : Nat) :
    roundDiv (m * 2 ^ ones) (2 ^ excess (m * 2 ^ ones)) * 2 ^ excess (m * 2 ^ ones)
      < 2 ^ 54 * 2 ^ (t + ones) ↔ m + 2 ^ t < 2 ^ 54 * 2 ^ t := by
  rw [rounded_lt_iff, pow_add, ← Nat.mul_assoc, ← Nat.add_mul, Nat.mul_lt_mul_right (Nat.two_pow_pos ones)]

/-- The first integer above zero that is too large for a double: the middle between the largest double
and the power of two after it. -/
@[irreducible] def overflowBound : Nat := Nat.pow 2 1024 - Nat.pow 2 970

theorem limit_eq : limit = 2 ^ 54 * 2 ^ (970 + 1074) := by decide +kernel

theorem overflowBound_eq : overflowBound = 2 ^ 54 * 2 ^ 970 - 2 ^ 970 := by decide +kernel

theorem finite?_ofUnits (negative : Bool) (num den : Nat) :
    (ofUnits negative num den).finite? = none ↔
      ¬ roundDiv num (den * Nat.pow 2 (excess (num / den))) * Nat.pow 2 (excess (num / den)) < limit := by
  by_cases h : roundDiv num (den * Nat.pow 2 (excess (num / den))) * Nat.pow 2 (excess (num / den)) < limit
  · obtain ⟨units, hfinite⟩ : ∃ units, ofUnits negative num den = .finite negative units := by
      unfold ofUnits
      exact ⟨_, if_pos h⟩
    rw [hfinite]
    constructor
    · intro hn
      cases hn
    · exact fun hn => absurd h hn
  · have hinfinite : ofUnits negative num den = .infinite negative := by
      unfold ofUnits
      exact if_neg h
    rw [hinfinite]
    exact ⟨fun _ => h, fun _ => rfl⟩

/-- Converting an integer fails exactly when it is too large. -/
theorem ofInt?_eq_none_iff (n : Int) : ofInt? n = none ↔ overflowBound ≤ n.natAbs := by
  have hbound : overflowBound ≤ n.natAbs ↔ ¬ n.natAbs + 2 ^ 970 < 2 ^ 54 * 2 ^ 970 := by
    rw [overflowBound_eq]
    generalize 2 ^ 970 = half
    omega
  have hscale : scale = 2 ^ 1074 := by decide +kernel
  rw [hbound, ← rounded_scaled_lt_iff n.natAbs 970 1074, ← limit_eq, ← hscale]
  have hround := finite?_ofUnits (n < 0) (n.natAbs * scale) 1
  rw [Nat.div_one, Nat.one_mul] at hround
  exact hround

theorem ofInt?_overflowBound : ofInt? overflowBound = none :=
  (ofInt?_eq_none_iff _).mpr (Int.natAbs_natCast _).ge

end RecordFilter.Double
