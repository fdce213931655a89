import AgentGateway.Proofs.Binary64.Rounding

/-!
# How far a computed number is off

A rounding to a full mantissa is off by at most one part in `2 ^ 53`, either way. So a number that
comes out of `k` roundings, none of which subtracts, is within `k` such factors of the exact number
(`Near`). Sums, products and quotients add up the roundings of what they are made of. The exact
numbers are far from both ends of the format here (`Moderate`), and so are the computed ones.
-/

namespace AgentGateway

theorem le_roundHalfEven {num den : Nat} (hden : 0 < den) :
    (num / den : ℚ) - 1 / 2 ≤ roundHalfEven num den := by
  have hpos : (0 : ℚ) < den := by exact_mod_cast hden
  have hsplit : (num : ℚ) = den * (num / den : Nat) + (num % den : Nat) := by
    exact_mod_cast (Nat.div_add_mod num den).symm
  have hrest : ((num % den : Nat) : ℚ) < den := by exact_mod_cast Nat.mod_lt num hden
  rw [sub_le_iff_le_add, div_le_iff₀ hpos, hsplit]
  simp only [roundHalfEven]
  split_ifs with hlow hhigh
  · have : 2 * ((num % den : Nat) : ℚ) < den := by exact_mod_cast hlow
    linarith
  · push_cast
    linarith
  · have : 2 * ((num % den : Nat) : ℚ) ≤ den := by exact_mod_cast Nat.le_of_not_lt hhigh
    have hbit : (0 : ℚ) ≤ (num / den % 2 : Nat) * den := by positivity
    push_cast at hbit ⊢
    linarith

namespace Binary64

/-! ## One rounding -/

/-- The part of a number by which one rounding may be off. -/
def roundoff : ℚ := 1 / 2 ^ 53

theorem le_stepsAt (num : Nat) {den : Nat} (hden : 0 < den) (e : Int) :
    (num / den / 2 ^ e - 1 / 2 : ℚ) ≤ stepsAt num den e := by
  rw [← scaled_ratio]
  exact le_roundHalfEven (scaled_den_pos num hden _)

theorem size_bounded {negative : Bool} {m : Nat} {e : Int}
    (h : (bounded negative m e).isFinite = true) : (bounded negative m e).size = m * 2 ^ e := by
  unfold bounded at h ⊢
  split_ifs at h ⊢
  · cases h
  · rfl

/-- A finite number that was rounded is the number of steps, with or without a carry. -/
theorem size_round {negative : Bool} {num den : Nat} (hnum : num ≠ 0)
    (h : (round negative num den).isFinite = true) :
    (round negative num den).size =
      stepsAt num den (exponentFor num den) * 2 ^ exponentFor num den := by
  simp only [round, if_neg hnum] at h ⊢
  split_ifs at h ⊢ with hcarry
  · rw [size_bounded h, hcarry, zpow_add_one₀ two_ne_zero]
    push_cast
    ring
  · exact size_bounded h

/-- A quotient with a full mantissa shrinks by at most one part in `2 ^ 53`, and grows by no
more. -/
theorem size_round_near {negative : Bool} {num den : Nat} (hden : 0 < den)
    (hleast : (2 : ℚ) ^ (minExponent + 52) ≤ num / den)
    (h : (round negative num den).isFinite = true) :
    num / den * (1 - roundoff) ≤ (round negative num den).size ∧
      (round negative num den).size ≤ num / den * (1 + roundoff) := by
  have hnum : num ≠ 0 := by
    rintro rfl
    rw [Nat.cast_zero, zero_div] at hleast
    exact absurd hleast (not_le.mpr (by positivity))
  have hfull := exponentFor_full hden hleast
  have hstep : (0 : ℚ) < 2 ^ exponentFor num den := by positivity
  have hlow := mul_le_mul_of_nonneg_right (le_stepsAt num hden (exponentFor num den)) hstep.le
  have hhigh := mul_le_mul_of_nonneg_right (stepsAt_le num hden (exponentFor num den)) hstep.le
  have hquotient : (num / den / 2 ^ exponentFor num den : ℚ) * 2 ^ exponentFor num den =
      num / den := div_mul_cancel₀ _ hstep.ne'
  rw [size_round hnum h]
  rw [sub_mul, hquotient] at hlow
  rw [add_mul, hquotient] at hhigh
  unfold roundoff
  constructor <;> linarith

theorem isNegative_round (negative : Bool) (num den : Nat) :
    (round negative num den).isNegative = negative := by
  simp only [round, bounded]
  split_ifs <;> rfl

/-! ## Several roundings -/

/-- A number is that far off an exact one at most, after `k` roundings. -/
structure Near (k : Nat) (q : ℚ) (x : Binary64) : Prop where
  nonneg : 0 ≤ q
  inRange : x.isFinite = true
  unsigned : x.isNegative = false
  le_size : q * (1 - roundoff) ^ k ≤ x.size
  size_le : x.size ≤ q * (1 + roundoff) ^ k

/-- Zero, or a number far from both ends of the format. -/
def Moderate (q : ℚ) : Prop := q = 0 ∨ 1 / 10 ^ 40 ≤ q ∧ q ≤ 10 ^ 40

theorem moderate_div {num den : Nat} (hnum : num ≤ 10 ^ 40) (hden : den ≤ 10 ^ 40) :
    Moderate (num / den) := by
  rcases Nat.eq_zero_or_pos num with rfl | hpos
  · exact .inl (by rw [Nat.cast_zero, zero_div])
  rcases Nat.eq_zero_or_pos den with rfl | hden'
  · exact .inl (by rw [Nat.cast_zero, div_zero])
  have hone : (1 : ℚ) ≤ num := by exact_mod_cast hpos
  have hone' : (1 : ℚ) ≤ den := by exact_mod_cast hden'
  have hmost : (num : ℚ) ≤ 10 ^ 40 := by exact_mod_cast hnum
  have hmost' : (den : ℚ) ≤ 10 ^ 40 := by exact_mod_cast hden
  refine .inr ⟨?_, (div_le_self (by linarith) hone').trans hmost⟩
  rw [div_le_div_iff₀ (by positivity) (by linarith)]
  linarith

def fewRoundings : Nat := 8

theorem half_le_pow {k : Nat} (hk : k ≤ fewRoundings) : (1 / 2 : ℚ) ≤ (1 - roundoff) ^ k :=
  calc (1 / 2 : ℚ) ≤ (1 - roundoff) ^ fewRoundings := by norm_num [roundoff, fewRoundings]
    _ ≤ (1 - roundoff) ^ k :=
      pow_le_pow_of_le_one (by norm_num [roundoff]) (by norm_num [roundoff]) hk

theorem pow_le_two {k : Nat} (hk : k ≤ fewRoundings) : (1 + roundoff) ^ k ≤ (2 : ℚ) :=
  calc (1 + roundoff) ^ k ≤ (1 + roundoff) ^ fewRoundings :=
        pow_le_pow_right₀ (by norm_num [roundoff]) hk
    _ ≤ 2 := by norm_num [roundoff, fewRoundings]

namespace Near

variable {j k : Nat} {p q r : ℚ} {x y : Binary64}

theorem mono (h : Near j p x) (hjk : j ≤ k) : Near k p x where
  nonneg := h.nonneg
  inRange := h.inRange
  unsigned := h.unsigned
  le_size := le_trans (mul_le_mul_of_nonneg_left
    (pow_le_pow_of_le_one (by norm_num [roundoff]) (by norm_num [roundoff]) hjk) h.nonneg) h.le_size
  size_le := h.size_le.trans (mul_le_mul_of_nonneg_left
    (pow_le_pow_right₀ (by norm_num [roundoff]) hjk) h.nonneg)

/-- One more rounding, of a number that is near an exact one itself. -/
theorem again (h : Near 1 r x) (hp : 0 ≤ p) (hlow : p * (1 - roundoff) ^ k ≤ r)
    (hhigh : r ≤ p * (1 + roundoff) ^ k) : Near (k + 1) p x where
  nonneg := hp
  inRange := h.inRange
  unsigned := h.unsigned
  le_size := by
    have hstep := mul_le_mul_of_nonneg_right hlow
      (show (0 : ℚ) ≤ 1 - roundoff by norm_num [roundoff])
    have hround := h.le_size
    rw [pow_one] at hround
    rw [pow_succ, ← mul_assoc]
    exact hstep.trans hround
  size_le := by
    have hstep := mul_le_mul_of_nonneg_right hhigh
      (show (0 : ℚ) ≤ 1 + roundoff by norm_num [roundoff])
    have hround := h.size_le
    rw [pow_one] at hround
    rw [pow_succ, ← mul_assoc]
    exact hround.trans hstep

theorem half_le (h : Near k p x) (hk : k ≤ fewRoundings) : p / 2 ≤ x.size :=
  calc p / 2 = p * (1 / 2) := by ring
    _ ≤ p * (1 - roundoff) ^ k := mul_le_mul_of_nonneg_left (half_le_pow hk) h.nonneg
    _ ≤ x.size := h.le_size

theorem le_double (h : Near k p x) (hk : k ≤ fewRoundings) : x.size ≤ p * 2 :=
  h.size_le.trans (mul_le_mul_of_nonneg_left (pow_le_two hk) h.nonneg)

end Near

/-- What is within a factor of four of a moderate number has a full mantissa and is in range. -/
theorem Moderate.near {p r : ℚ} (hp : Moderate p) (hlow : p / 4 ≤ r) (hhigh : r ≤ p * 4) :
    (r = 0 ∨ (2 : ℚ) ^ (minExponent + 52) ≤ r) ∧ r < overflow := by
  have hsmall : (2 : ℚ) ^ (minExponent + 52) ≤ 1 / 10 ^ 40 / 4 := by
    refine le_trans (zpow_le_zpow_right₀ one_le_two (show minExponent + 52 ≤ -140 by decide)) ?_
    norm_num
  have hlarge : (10 : ℚ) ^ 40 * 4 < overflow :=
    calc (10 : ℚ) ^ 40 * 4 < (2 ^ 54 - 1) * 2 ^ (110 : Int) := by norm_num
      _ ≤ overflow := by
        unfold overflow
        gcongr
        · norm_num
        · decide
  obtain rfl | ⟨hleast, hmost⟩ := hp
  · obtain rfl : r = 0 := le_antisymm (by linarith) (by linarith)
    exact ⟨.inl rfl, by linarith⟩
  · exact ⟨.inr (by linarith), by linarith⟩

theorem near_round {num den : Nat} (hden : 0 < den)
    (h : ((num / den : ℚ) = 0 ∨ (2 : ℚ) ^ (minExponent + 52) ≤ num / den) ∧
      (num / den : ℚ) < overflow) : Near 1 (num / den) (round false num den) := by
  have hfinite := isFinite_round false hden h.2
  have hbounds : num / den * (1 - roundoff) ≤ (round false num den).size ∧
      (round false num den).size ≤ num / den * (1 + roundoff) := by
    obtain hzero | hleast := h.1
    · have hpos : (den : ℚ) ≠ 0 := by exact_mod_cast hden.ne'
      obtain rfl : num = 0 := by simpa [hpos] using hzero
      simp [round, zero, size]
    · exact size_round_near hden hleast hfinite
  exact ⟨by positivity, hfinite, isNegative_round _ _ _, by simpa using hbounds.1,
    by simpa using hbounds.2⟩

/-- Two numbers without signs as steps of one size. -/
def commonSteps (m : Nat) (e : Int) (n : Nat) (f : Int) : Nat :=
  m * twoTo (e - min e f).toNat + n * twoTo (f - min e f).toNat

theorem add_finite (m : Nat) (e : Int) (n : Nat) (f : Int) :
    (finite false m e).add (finite false n f) =
      round false (magnitude (commonSteps m e n f) (min e f)).1
        (magnitude (commonSteps m e n f) (min e f)).2 := by
  have hsum : signedMantissa false m * twoTo (e - min e f).toNat +
      signedMantissa false n * twoTo (f - min e f).toNat = (commonSteps m e n f : Int) := by
    simp [signedMantissa, commonSteps]
  simp only [add, hsum]
  split_ifs with hzero
  · have hnone : commonSteps m e n f = 0 := by exact_mod_cast hzero
    have hnum : (magnitude 0 (min e f)).1 = 0 := by
      unfold magnitude
      split_ifs <;> simp
    rw [hnone, round, if_pos hnum]
    rfl
  · rw [decide_eq_false (by omega), Int.natAbs_natCast]

theorem commonSteps_ratio (m : Nat) (e : Int) (n : Nat) (f : Int) :
    ((magnitude (commonSteps m e n f) (min e f)).1 : ℚ) /
        (magnitude (commonSteps m e n f) (min e f)).2 =
      (finite false m e).size + (finite false n f).size := by
  have hscale (d : Int) (hd : min e f ≤ d) :
      (2 : ℚ) ^ (d - min e f).toNat * 2 ^ min e f = 2 ^ d := by
    rw [two_zpow_toNat (by omega), ← zpow_add₀ two_ne_zero]
    congr 1
    omega
  rw [magnitude_ratio, commonSteps]
  simp only [size]
  push_cast
  rw [cast_twoTo, cast_twoTo, add_mul, mul_assoc, mul_assoc, hscale e (min_le_left e f),
    hscale f (min_le_right e f)]

theorem near_ofNat {n : Nat} (hn : n ≤ 10 ^ 40) : Near 1 n (ofNat n) := by
  have hcast : ((n : ℚ) / (1 : Nat)) = n := by simp
  have hmoderate := moderate_div hn (show 1 ≤ 10 ^ 40 by norm_num)
  have hnonneg : (0 : ℚ) ≤ n / (1 : Nat) := by positivity
  have hrange := hmoderate.near (r := (n : ℚ) / (1 : Nat)) (by linarith) (by linarith)
  have h : Near 1 ((n : ℚ) / (1 : Nat)) (ofNat n) := near_round one_pos hrange
  rwa [hcast] at h

namespace Near

variable {j k : Nat} {p q : ℚ} {x y : Binary64}

/-- A number without a sign is its mantissa and exponent. -/
theorem exists_finite (h : Near k p x) : ∃ m e, x = finite false m e := by
  cases x with
  | nan => cases h.inRange
  | infinite s => cases h.inRange
  | finite s m e =>
      obtain rfl : s = false := h.unsigned
      exact ⟨m, e, rfl⟩

theorem mul (hx : Near j p x) (hy : Near k q y) (hj : j ≤ fewRoundings) (hk : k ≤ fewRoundings)
    (hpq : Moderate (p * q)) : Near (j + k + 1) (p * q) (x.mul y) := by
  have hlow := mul_le_mul hx.le_size hy.le_size
    (mul_nonneg hy.nonneg (pow_nonneg (by norm_num [roundoff]) k)) x.size_nonneg
  have hhigh := mul_le_mul hx.size_le hy.size_le y.size_nonneg
    (mul_nonneg hx.nonneg (pow_nonneg (by norm_num [roundoff]) j))
  have hrange : ((x.size * y.size = 0 ∨ (2 : ℚ) ^ (minExponent + 52) ≤ x.size * y.size) ∧
      x.size * y.size < overflow) := by
    refine hpq.near ?_ ?_
    · have h := mul_le_mul (hx.half_le hj) (hy.half_le hk) (by linarith [hy.nonneg]) x.size_nonneg
      linarith
    · have h := mul_le_mul (hx.le_double hj) (hy.le_double hk) y.size_nonneg
        (by linarith [hx.nonneg])
      linarith
  obtain ⟨m, e, rfl⟩ := hx.exists_finite
  obtain ⟨n, f, rfl⟩ := hy.exists_finite
  have hratio : ((magnitude (m * n) (e + f)).1 : ℚ) / (magnitude (m * n) (e + f)).2 =
      (finite false m e).size * (finite false n f).size := by
    rw [magnitude_ratio, zpow_add₀ two_ne_zero]
    simp only [size]
    push_cast
    ring
  rw [← hratio] at hlow hhigh hrange
  have hround := near_round (magnitude_den_pos (m * n) (e + f)) hrange
  refine hround.again (mul_nonneg hx.nonneg hy.nonneg) ?_ ?_
  · rw [pow_add]
    linarith
  · rw [pow_add]
    linarith

theorem add (hx : Near k p x) (hy : Near k q y) (hk : k ≤ fewRoundings)
    (hpq : Moderate (p + q)) : Near (k + 1) (p + q) (x.add y) := by
  have hrange : ((x.size + y.size = 0 ∨ (2 : ℚ) ^ (minExponent + 52) ≤ x.size + y.size) ∧
      x.size + y.size < overflow) := by
    refine hpq.near ?_ ?_
    · linarith [hx.half_le hk, hy.half_le hk, hx.nonneg, hy.nonneg]
    · linarith [hx.le_double hk, hy.le_double hk, hx.nonneg, hy.nonneg]
  have hlow : (p + q) * (1 - roundoff) ^ k ≤ x.size + y.size := by
    linarith [hx.le_size, hy.le_size]
  have hhigh : x.size + y.size ≤ (p + q) * (1 + roundoff) ^ k := by
    linarith [hx.size_le, hy.size_le]
  have hnonneg := add_nonneg hx.nonneg hy.nonneg
  obtain ⟨m, e, rfl⟩ := hx.exists_finite
  obtain ⟨n, f, rfl⟩ := hy.exists_finite
  rw [add_finite]
  rw [← commonSteps_ratio] at hlow hhigh hrange
  exact (near_round (magnitude_den_pos _ _) hrange).again hnonneg hlow hhigh

theorem div (hx : Near k p x) (hk : k ≤ fewRoundings) {n : Nat} {f : Int} (hn : 0 < n)
    (hpq : Moderate (p / (finite false n f).size)) :
    Near (k + 1) (p / (finite false n f).size) (x.div (finite false n f)) := by
  have hpos : 0 < (finite false n f).size := by
    have hcast : (0 : ℚ) < n := by exact_mod_cast hn
    exact mul_pos hcast (by positivity)
  have hrange : ((x.size / (finite false n f).size = 0 ∨
      (2 : ℚ) ^ (minExponent + 52) ≤ x.size / (finite false n f).size) ∧
      x.size / (finite false n f).size < overflow) := by
    refine hpq.near ?_ ?_
    · rw [div_div, mul_comm, ← div_div]
      gcongr
      linarith [hx.half_le hk, hx.nonneg]
    · rw [div_mul_eq_mul_div]
      gcongr
      linarith [hx.le_double hk, hx.nonneg]
  have hlow := div_le_div_of_nonneg_right hx.le_size hpos.le
  have hhigh := div_le_div_of_nonneg_right hx.size_le hpos.le
  rw [mul_div_right_comm] at hlow hhigh
  obtain ⟨m, e, rfl⟩ := hx.exists_finite
  have hratio : (((magnitude m e).1 * (magnitude n f).2 : Nat) : ℚ) /
      ((magnitude m e).2 * (magnitude n f).1 : Nat) =
      (finite false m e).size / (finite false n f).size := by
    have hm := magnitude_ratio m e
    have hn := magnitude_ratio n f
    simp only [size, ← hm, ← hn]
    push_cast
    rw [div_div_div_eq]
  have hden : 0 < (magnitude m e).2 * (magnitude n f).1 :=
    Nat.mul_pos (magnitude_den_pos m e) (magnitude_num_pos hn f)
  have hdiv : (finite false m e).div (finite false n f) =
      round false ((magnitude m e).1 * (magnitude n f).2)
        ((magnitude m e).2 * (magnitude n f).1) := by
    simp [Binary64.div, hn.ne']
  rw [← hratio] at hlow hhigh hrange
  rw [hdiv]
  exact (near_round hden hrange).again (div_nonneg hx.nonneg hpos.le) hlow hhigh

end Near

end Binary64

end AgentGateway
