import AgentGateway.Binary64.Basic
import Mathlib.Algebra.Order.Field.Power
import Mathlib.Algebra.Order.Field.Rat
import Mathlib.Data.Nat.Cast.Order.Field
import Mathlib.Tactic.FieldSimp
import Mathlib.Tactic.Linarith
import Mathlib.Tactic.NormNum
import Mathlib.Tactic.Positivity
import Mathlib.Tactic.Ring

/-!
# How far rounding can go up

A quotient is rounded to a mantissa of steps of a power of two, so it grows by at most half a step;
a quotient of at least one grows by at most one part in `2 ^ 53` (`size_round_le`). What lies below
the midpoint between the largest number and the next power of two stays finite
(`isFinite_round`), and so does a product below it.
-/

namespace AgentGateway

theorem twoTo_eq (n : Nat) : twoTo n = 2 ^ n := rfl

theorem tenTo_eq (n : Nat) : tenTo n = 10 ^ n := rfl

theorem cast_twoTo (n : Nat) : (twoTo n : ℚ) = 2 ^ n := by
  rw [twoTo_eq, Nat.cast_pow, Nat.cast_ofNat]

theorem cast_tenTo (n : Nat) : (tenTo n : ℚ) = 10 ^ n := by
  rw [tenTo_eq, Nat.cast_pow, Nat.cast_ofNat]

theorem tenTo_le_iff {k n : Nat} : tenTo k ≤ tenTo n ↔ k ≤ n :=
  Nat.pow_le_pow_iff_right (by decide)

theorem tenTo_lt_iff {k n : Nat} : tenTo k < tenTo n ↔ k < n :=
  Nat.pow_lt_pow_iff_right (by decide)

theorem roundHalfEven_le {num den : Nat} (hden : 0 < den) :
    (roundHalfEven num den : ℚ) ≤ num / den + 1 / 2 := by
  have hpos : (0 : ℚ) < den := by exact_mod_cast hden
  have hsplit : (num : ℚ) = den * (num / den : Nat) + (num % den : Nat) := by
    exact_mod_cast (Nat.div_add_mod num den).symm
  rw [← sub_le_iff_le_add, le_div_iff₀ hpos, hsplit]
  have hrest : (0 : ℚ) ≤ (num % den : Nat) := Nat.cast_nonneg _
  simp only [roundHalfEven]
  split_ifs with hlow hhigh
  · linarith
  · have : (den : ℚ) < 2 * (num % den : Nat) := by exact_mod_cast hhigh
    push_cast
    linarith
  · have : (den : ℚ) ≤ 2 * (num % den : Nat) := by exact_mod_cast Nat.le_of_not_lt hlow
    have hbit : ((num / den % 2 : Nat) : ℚ) ≤ 1 := by
      exact_mod_cast Nat.le_of_lt_succ (Nat.mod_lt _ two_pos)
    push_cast
    nlinarith

namespace Binary64

def size : Binary64 → ℚ
  | finite _ m e => m * 2 ^ e
  | _ => 0

theorem size_nonneg (x : Binary64) : 0 ≤ x.size := by
  cases x with
  | nan => exact le_rfl
  | infinite s => exact le_rfl
  | finite s m e => exact (by positivity : (0 : ℚ) ≤ m * 2 ^ e)

/-- Halfway between the largest number and the power of two above it. -/
def overflow : ℚ := (2 ^ 54 - 1) * 2 ^ (970 : Int)

theorem overflow_eq : overflow = ((twoTo 54 - 1) * twoTo 970 : Nat) := by
  have hsteps : ((2 : ℚ) ^ 54 - 1) = (twoTo 54 - 1 : Nat) := by norm_num [twoTo_eq]
  have hstep : (2 : ℚ) ^ (970 : Int) = (twoTo 970 : Nat) := by
    rw [cast_twoTo]
    exact zpow_natCast 2 970
  rw [overflow, hsteps, hstep, ← Nat.cast_mul]

theorem overflow_lt : overflow < 2 ^ (1024 : Int) := by
  rw [overflow, show (1024 : Int) = 54 + 970 by rfl, zpow_add₀ two_ne_zero]
  exact mul_lt_mul_of_pos_right (by norm_num) (by positivity)

theorem two_zpow_toNat {e : Int} (h : 0 ≤ e) : (2 : ℚ) ^ e.toNat = 2 ^ e := by
  rw [← zpow_natCast, Int.toNat_of_nonneg h]

theorem magnitude_ratio (m : Nat) (e : Int) :
    ((magnitude m e).1 : ℚ) / (magnitude m e).2 = m * 2 ^ e := by
  unfold magnitude
  split_ifs with h
  · simp [twoTo_eq, two_zpow_toNat h]
  · simp [twoTo_eq, two_zpow_toNat (Int.neg_nonneg_of_nonpos (Int.le_of_not_le h)), zpow_neg]

theorem magnitude_den_pos (m : Nat) (e : Int) : 0 < (magnitude m e).2 := by
  unfold magnitude
  split_ifs
  · exact Nat.one_pos
  · exact Nat.two_pow_pos _

theorem magnitude_num_pos {m : Nat} (hm : 0 < m) (e : Int) : 0 < (magnitude m e).1 := by
  unfold magnitude
  split_ifs
  · exact Nat.mul_pos hm (Nat.two_pow_pos _)
  · exact hm

theorem scaled_ratio (num den : Nat) (e : Int) :
    ((scaled num den e).1 : ℚ) / (scaled num den e).2 = num / den / 2 ^ e := by
  unfold scaled
  split_ifs with h
  · simp [twoTo_eq, two_zpow_toNat h, div_div]
  · have hneg := two_zpow_toNat (Int.neg_nonneg_of_nonpos (Int.le_of_not_le h))
    simp only [twoTo_eq, Nat.cast_mul, Nat.cast_pow, Nat.cast_ofNat, hneg, zpow_neg]
    ring

theorem scaled_den_pos (num : Nat) {den : Nat} (hden : 0 < den) (e : Int) :
    0 < (scaled num den e).2 := by
  unfold scaled
  split_ifs
  · exact Nat.mul_pos hden (Nat.two_pow_pos _)
  · exact hden

theorem two_zpow_log2_le {num : Nat} (hnum : num ≠ 0) : (2 : ℚ) ^ (num.log2 : Int) ≤ num := by
  rw [zpow_natCast]
  exact_mod_cast Nat.log2_self_le hnum

theorem lt_two_zpow_log2 (den : Nat) : (den : ℚ) < 2 ^ ((den.log2 : Int) + 1) := by
  have h : den < 2 ^ (den.log2 + 1) := Nat.lt_log2_self
  rw [← Nat.cast_succ, zpow_natCast]
  exact_mod_cast h

/-- Unless the exponent is the least one, the quotient has a mantissa of 53 bits. -/
theorem exponentFor_le {num den : Nat} (hnum : num ≠ 0) (hden : 0 < den) :
    exponentFor num den = minExponent ∨
      (2 : ℚ) ^ (exponentFor num den + 52) ≤ num / den := by
  have hpos : (0 : ℚ) < den := by exact_mod_cast hden
  unfold exponentFor
  generalize hguess : (num.log2 : Int) - (den.log2 : Int) - 52 = guess
  have hscaled := scaled_ratio num den guess
  have hdpos : (0 : ℚ) < (scaled num den guess).2 := by
    exact_mod_cast scaled_den_pos num hden guess
  have hstep : (0 : ℚ) < 2 ^ guess := by positivity
  simp only
  split_ifs with hlow
  · rcases max_choice (guess - 1) minExponent with hmax | hmax
    · right
      rw [hmax, le_div_iff₀ hpos]
      calc (2 : ℚ) ^ (guess - 1 + 52) * den
          ≤ 2 ^ (guess - 1 + 52) * 2 ^ ((den.log2 : Int) + 1) := by
            gcongr
            exact (lt_two_zpow_log2 den).le
        _ = 2 ^ (num.log2 : Int) := by
            rw [← zpow_add₀ two_ne_zero]
            congr 1
            omega
        _ ≤ num := two_zpow_log2_le hnum
    · exact Or.inl hmax
  · rcases max_choice guess minExponent with hmax | hmax
    · right
      rw [hmax, zpow_add₀ two_ne_zero, mul_comm, ← le_div_iff₀ hstep, ← hscaled, le_div_iff₀ hdpos]
      have hle : (scaled num den guess).2 * leastMantissa ≤ (scaled num den guess).1 :=
        Nat.le_of_not_lt hlow
      calc (2 : ℚ) ^ (52 : Int) * (scaled num den guess).2
          = ((scaled num den guess).2 * leastMantissa : Nat) := by
            norm_num [leastMantissa]
            ring
        _ ≤ (scaled num den guess).1 := by exact_mod_cast hle
    · exact Or.inl hmax

theorem stepsAt_le (num : Nat) {den : Nat} (hden : 0 < den) (e : Int) :
    (stepsAt num den e : ℚ) ≤ num / den / 2 ^ e + 1 / 2 := by
  rw [← scaled_ratio]
  exact roundHalfEven_le (scaled_den_pos num hden _)

theorem size_bounded_le (negative : Bool) (m : Nat) (e : Int) :
    (bounded negative m e).size ≤ m * 2 ^ e := by
  unfold bounded
  split_ifs
  · exact (by positivity : (0 : ℚ) ≤ m * 2 ^ e)
  · exact le_rfl

/-- A carry moves the mantissa down and the exponent up and keeps the number. -/
theorem size_round_le_steps (negative : Bool) {num den : Nat} (hnum : num ≠ 0) :
    (round negative num den).size ≤
      stepsAt num den (exponentFor num den) * 2 ^ exponentFor num den := by
  simp only [round, if_neg hnum]
  split_ifs with hcarry
  · refine (size_bounded_le _ _ _).trans_eq ?_
    rw [hcarry, zpow_add_one₀ two_ne_zero]
    push_cast
    ring
  · exact size_bounded_le _ _ _

/-- From the least number with a full mantissa on, every quotient has a full mantissa. -/
theorem exponentFor_full {num den : Nat} (hden : 0 < den)
    (hleast : (2 : ℚ) ^ (minExponent + 52) ≤ num / den) :
    (2 : ℚ) ^ exponentFor num den * 2 ^ 52 ≤ num / den := by
  have hnum : num ≠ 0 := by
    rintro rfl
    rw [Nat.cast_zero, zero_div] at hleast
    exact absurd hleast (not_le.mpr (by positivity))
  rcases exponentFor_le hnum hden with hmin | hle
  · rw [← hmin, zpow_add₀ two_ne_zero] at hleast
    exact_mod_cast hleast
  · rw [zpow_add₀ two_ne_zero] at hle
    exact_mod_cast hle

/-- A quotient of at least one grows by at most one part in `2 ^ 53`. -/
theorem size_round_le (negative : Bool) {num den : Nat} (hden : 0 < den)
    (hone : (1 : ℚ) ≤ num / den) :
    (round negative num den).size ≤ num / den * (1 + 1 / 2 ^ 53) := by
  have hnum : num ≠ 0 := by
    rintro rfl
    norm_num at hone
  have hstep : (0 : ℚ) < 2 ^ exponentFor num den := by positivity
  have hleast : (2 : ℚ) ^ (minExponent + 52) ≤ 1 :=
    zpow_le_one_of_nonpos₀ one_le_two (by decide)
  have hfull := exponentFor_full hden (hleast.trans hone)
  calc (round negative num den).size
      ≤ stepsAt num den (exponentFor num den) * 2 ^ exponentFor num den :=
        size_round_le_steps negative hnum
    _ ≤ (num / den / 2 ^ exponentFor num den + 1 / 2) * 2 ^ exponentFor num den := by
        gcongr
        exact stepsAt_le num hden _
    _ = num / den + 2 ^ exponentFor num den / 2 := by
        field_simp
    _ ≤ num / den * (1 + 1 / 2 ^ 53) := by
        linarith

/-- What lies below the midpoint above the largest number is rounded to a finite number. -/
theorem isFinite_round (negative : Bool) {num den : Nat} (hden : 0 < den)
    (hlt : (num / den : ℚ) < overflow) : (round negative num den).isFinite = true := by
  by_cases hnum : num = 0
  · simp [round, hnum, zero, isFinite]
  have hexponent : exponentFor num den ≤ maxExponent := by
    rcases exponentFor_le hnum hden with hmin | hle
    · rw [hmin]
      decide
    · have hpow : (2 : ℚ) ^ (exponentFor num den + 52) < 2 ^ (1024 : Int) :=
        lt_of_le_of_lt hle (hlt.trans overflow_lt)
      have := (zpow_lt_zpow_iff_right₀ one_lt_two).mp hpow
      unfold maxExponent
      omega
  simp only [round, if_neg hnum, bounded]
  split_ifs with hcarry hmax hmax
  · -- A carry at the largest exponent would need a quotient from the midpoint on.
    have htop : exponentFor num den = 971 := by
      unfold maxExponent at hexponent hmax
      omega
    have hle := stepsAt_le num hden (exponentFor num den)
    rw [hcarry, htop] at hle
    have hdiv : (num / den : ℚ) / 2 ^ (971 : Int) < (2 ^ 54 - 1) / 2 := by
      rw [div_lt_iff₀ (by positivity), show (971 : Int) = 970 + 1 by rfl,
        zpow_add_one₀ two_ne_zero]
      refine hlt.trans_eq ?_
      rw [overflow]
      ring
    have hmantissa : ((2 * leastMantissa : Nat) : ℚ) = 2 ^ 53 := by norm_num [leastMantissa]
    linarith
  · rfl
  · omega
  · rfl

theorem isFinite_mul {x y : Binary64} (hx : x.isFinite = true) (hy : y.isFinite = true)
    (hlt : x.size * y.size < overflow) : (x.mul y).isFinite = true := by
  cases x with
  | nan => simp [isFinite] at hx
  | infinite s => simp [isFinite] at hx
  | finite s m e =>
      cases y with
      | nan => simp [isFinite] at hy
      | infinite t => simp [isFinite] at hy
      | finite t n f =>
          change
            (round (s != t) (magnitude (m * n) (e + f)).1 (magnitude (m * n) (e + f)).2).isFinite
              = true
          refine isFinite_round _ (magnitude_den_pos (m * n) (e + f)) ?_
          rw [magnitude_ratio, zpow_add₀ two_ne_zero]
          refine lt_of_eq_of_lt ?_ hlt
          simp only [size]
          push_cast
          ring

end Binary64

end AgentGateway
