import AgentGateway.Binary64.Shortest
import AgentGateway.Proofs.Binary64.Rounding

/-!
# How large the shortest digits can be

The digits chosen for a number lie in the interval of values that round to it, so they exceed the
number by half a step at most, and they are zero only when written without an exponent
(`shortest_fits`).
-/

namespace AgentGateway.Binary64

def Decimal.value (d : Decimal) : ℚ := d.digits * 10 ^ d.exponent

def above (m : Nat) (e : Int) : ℚ := (2 * m + 1) * 2 ^ (e - 1)

theorem ten_zpow_toNat {p : Int} (h : 0 ≤ p) : (10 : ℚ) ^ p.toNat = 10 ^ p := by
  rw [← zpow_natCast, Int.toNat_of_nonneg h]

theorem scaledTen_ratio (num den : Nat) (p : Int) :
    ((scaledTen num den p).1 : ℚ) / (scaledTen num den p).2 = num / den / 10 ^ p := by
  unfold scaledTen
  split_ifs with h
  · simp [tenTo_eq, ten_zpow_toNat h, div_div]
  · have hneg := ten_zpow_toNat (Int.neg_nonneg_of_nonpos (Int.le_of_not_le h))
    simp only [tenTo_eq, Nat.cast_mul, Nat.cast_pow, Nat.cast_ofNat, hneg, zpow_neg]
    ring

theorem scaledTen_den_pos (num : Nat) {den : Nat} (hden : 0 < den) (p : Int) :
    0 < (scaledTen num den p).2 := by
  unfold scaledTen
  split_ifs
  · exact Nat.mul_pos hden (Nat.pow_pos (by decide))
  · exact hden

/-- The two comparisons that place a decimal in the interval, their strictness dropped. -/
theorem inside_bounds {m : Nat} {e p : Int} {k : Nat} (h : inside m e p k = true) :
    (interval m e).1 * (scaledTen (k * (magnitude 1 (e - 2)).2) (magnitude 1 (e - 2)).1 (-p)).2 ≤
        (scaledTen (k * (magnitude 1 (e - 2)).2) (magnitude 1 (e - 2)).1 (-p)).1 ∧
      (scaledTen (k * (magnitude 1 (e - 2)).2) (magnitude 1 (e - 2)).1 (-p)).1 ≤
        (4 * m + 2) *
          (scaledTen (k * (magnitude 1 (e - 2)).2) (magnitude 1 (e - 2)).1 (-p)).2 := by
  simp only [inside] at h
  split_ifs at h
  · simp only [Bool.and_eq_true, decide_eq_true_eq] at h
    exact h
  · simp only [Bool.and_eq_true, decide_eq_true_eq] at h
    exact ⟨h.1.le, h.2.le⟩

theorem value_le_of_inside {m : Nat} {e p : Int} {k : Nat} (h : inside m e p k = true) :
    (k : ℚ) * 10 ^ p ≤ above m e := by
  have hunit := magnitude_num_pos one_pos (e - 2)
  have hden := scaledTen_den_pos (k * (magnitude 1 (e - 2)).2) hunit (-p)
  have hratio := scaledTen_ratio (k * (magnitude 1 (e - 2)).2) (magnitude 1 (e - 2)).1 (-p)
  have hstep := magnitude_ratio 1 (e - 2)
  have hle := (inside_bounds h).2
  generalize scaledTen (k * (magnitude 1 (e - 2)).2) (magnitude 1 (e - 2)).1 (-p) = q at *
  have hqpos : (0 : ℚ) < q.2 := by exact_mod_cast hden
  have hstepDen : (0 : ℚ) < (magnitude 1 (e - 2)).2 := by exact_mod_cast magnitude_den_pos _ _
  have hstepNum : (0 : ℚ) < (magnitude 1 (e - 2)).1 := by exact_mod_cast hunit
  -- The decimal, in steps of a quarter of `2 ^ e`.
  have hsteps : (k : ℚ) * 10 ^ p / 2 ^ (e - 2) = q.1 / q.2 := by
    rw [hratio, zpow_neg, div_inv_eq_mul, ← one_mul ((2 : ℚ) ^ (e - 2)), ← Nat.cast_one (R := ℚ),
      ← hstep]
    push_cast
    field_simp
  have hquarter : (0 : ℚ) < 2 ^ (e - 2) := by positivity
  calc (k : ℚ) * 10 ^ p
      = q.1 / q.2 * 2 ^ (e - 2) := by rw [← hsteps, div_mul_cancel₀ _ hquarter.ne']
    _ ≤ (4 * m + 2) * 2 ^ (e - 2) := by
        gcongr
        rw [div_le_iff₀ hqpos]
        exact_mod_cast hle
    _ = above m e := by
        rw [above, show e - 1 = e - 2 + 1 by omega, zpow_add_one₀ two_ne_zero]
        ring

theorem ne_zero_of_inside {m : Nat} (hm : m ≠ 0) {e p : Int} {k : Nat}
    (h : inside m e p k = true) : k ≠ 0 := by
  rintro rfl
  have hden := scaledTen_den_pos (0 * (magnitude 1 (e - 2)).2) (magnitude_num_pos one_pos (e - 2))
    (-p)
  have hlower : 0 < (interval m e).1 := by
    simp only [interval]
    split_ifs <;> omega
  have hle := (inside_bounds h).1
  have hzero : (scaledTen (0 * (magnitude 1 (e - 2)).2) (magnitude 1 (e - 2)).1 (-p)).1 = 0 := by
    simp only [scaledTen, Nat.zero_mul]
    split_ifs <;> rfl
  rw [hzero] at hle
  exact absurd hle (Nat.not_le.mpr (Nat.mul_pos hlower hden))

theorem inside_of_candidate {m : Nat} {e p : Int} {k : Nat} (h : candidate m e p = some k) :
    inside m e p k = true := by
  simp only [candidate] at h
  generalize (scaledTen _ _ p) = q at h
  obtain ⟨num, den⟩ := q
  simp only at h
  split_ifs at h with hboth hlow hhigh hlow hhigh <;> obtain rfl := Option.some.inj h
  · exact (Bool.and_eq_true_iff.mp hboth).1
  · exact (Bool.and_eq_true_iff.mp (Bool.and_eq_true_iff.mp hboth).2).2
  · -- A tie goes to the even one of two that both are inside.
    obtain ⟨hbelow, habove⟩ := Bool.and_eq_true_iff.mp hboth
    rcases Nat.mod_two_eq_zero_or_one (num / den) with heven | hodd
    · rw [heven]
      exact hbelow
    · rw [hodd]
      exact (Bool.and_eq_true_iff.mp habove).2
  · exact hlow
  · exact (Bool.and_eq_true_iff.mp hhigh).2

/-- What holds of the digits of a number that is not zero. Zero digits are written without an
exponent. -/
structure Decimal.Fits (d : Decimal) (m : Nat) (e : Int) : Prop where
  value_le : d.value ≤ above m e
  plain : d.digits = 0 → d.exponent = 0

theorem shortestFrom_fits {m : Nat} (hm : m ≠ 0) (e top : Int) (count : Nat) (grids : List Nat) :
    (shortestFrom m e top count grids).Fits m e := by
  induction grids generalizing count with
  | nil =>
      have hratio := magnitude_ratio m e
      have hfloor : (((magnitude m e).1 / (magnitude m e).2 : Nat) : ℚ) ≤
          (magnitude m e).1 / (magnitude m e).2 := Nat.cast_div_le
      refine ⟨?_, fun _ => rfl⟩
      simp only [Decimal.value, shortestFrom, zpow_zero, mul_one]
      calc (((magnitude m e).1 / (magnitude m e).2 : Nat) : ℚ)
          ≤ m * 2 ^ e := hratio ▸ hfloor
        _ ≤ above m e := by
            have hstep : (0 : ℚ) < 2 ^ (e - 1) := by positivity
            rw [above, show e = e - 1 + 1 by omega, zpow_add_one₀ two_ne_zero]
            simp only [add_sub_cancel_right]
            linarith
  | cons _ grids ih =>
      simp only [shortestFrom]
      split
      · next digits hdigits =>
        have hinside := inside_of_candidate hdigits
        exact ⟨value_le_of_inside hinside, fun hzero => absurd hzero (ne_zero_of_inside hm hinside)⟩
      · exact ih (count + 1)

/-- Moving zeros into the exponent keeps the value, and it never leaves zero digits. -/
theorem Decimal.Fits.strip {m : Nat} {e : Int} {d : Decimal} (h : d.Fits m e) (fuel : Nat) :
    (d.strip fuel).Fits m e := by
  induction fuel generalizing d with
  | zero => exact h
  | succ fuel ih =>
      rw [Decimal.strip]
      split_ifs with hstrip
      · obtain ⟨hne, hmod⟩ := hstrip
        refine ih ⟨?_, fun hzero => ?_⟩
        · have hten : d.digits = d.digits / 10 * 10 := by omega
          refine (le_of_eq ?_).trans h.value_le
          rw [Decimal.value, Decimal.value, zpow_add_one₀ (by norm_num)]
          nth_rewrite 2 [hten]
          push_cast
          ring
        · simp only at hzero
          omega
      · exact h

theorem shortest_fits {m : Nat} (hm : m ≠ 0) (e : Int) : (shortest m e).Fits m e := by
  simp only [shortest, if_neg hm]
  exact (shortestFrom_fits hm e _ 0 _).strip 400

end AgentGateway.Binary64
