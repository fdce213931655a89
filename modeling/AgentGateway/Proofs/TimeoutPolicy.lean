import AgentGateway.Proofs.Binary64.Error
import AgentGateway.TimeoutPolicy

/-!
# Limits between floor and ceiling

A limit that grows with a budget of tokens is never below the floor of its policy and never above
the ceiling. There is such a limit for every budget as long as what the policy adds is a
representable span; the ceiling is no help before that. Six roundings stand between the exact
addition and the computed one, so it is known on which side of the bound the computed one falls
unless the exact one is within one part in `2 ^ 50` of it (`TimeoutPolicy.limit?_limited`).
-/

namespace AgentGateway

open Binary64

namespace Duration

/-! ## Spans as numbers of seconds -/

theorem exactSeconds_eq (d : Duration) :
    (d.seconds : ℚ) + d.subsecNanos / nanosPerSecond = d.nanos / nanosPerSecond := by
  have hsplit : (d.nanos : ℚ) = nanosPerSecond * d.seconds + d.subsecNanos := by
    exact_mod_cast (Nat.div_add_mod d.nanos nanosPerSecond).symm
  rw [hsplit]
  norm_num [nanosPerSecond]
  ring

theorem near_toBinary64 {d : Duration} (hd : d.Representable) :
    Near 3 (d.nanos / nanosPerSecond) d.toBinary64 := by
  have hlt : d.nanos < (maxWord64 + 1) * nanosPerSecond := hd
  have hseconds : d.seconds ≤ d.nanos := Nat.div_le_self _ _
  have hrest : d.subsecNanos ≤ d.nanos := Nat.mod_le _ _
  have hrange : d.nanos ≤ 10 ^ 40 := hlt.le.trans (by decide)
  have hunit : ofNat nanosPerSecond = finite false 8388608000000000 (-23) := by decide
  have hsize : (finite false 8388608000000000 (-23)).size = nanosPerSecond := by
    norm_num [size, nanosPerSecond]
  have hfraction : Near 2 (d.subsecNanos / nanosPerSecond)
      ((ofNat d.subsecNanos).div (ofNat nanosPerSecond)) := by
    have hdiv := (near_ofNat (hrest.trans hrange)).div (by decide)
      (n := 8388608000000000) (f := -23) (by decide)
    rw [hsize] at hdiv
    rw [hunit]
    exact hdiv (moderate_div (hrest.trans hrange) (by decide))
  have hwhole : Near 2 d.seconds (ofNat d.seconds) :=
    (near_ofNat (hseconds.trans hrange)).mono (by decide)
  have hadd := hwhole.add hfraction (by decide)
  rw [exactSeconds_eq] at hadd
  exact hadd (moderate_div hrange (by decide))

/-- A number of seconds in whole nanoseconds. -/
def roundedNanos (m : Nat) (e : Int) : Nat :=
  roundHalfEven ((magnitude m e).1 * nanosPerSecond) (magnitude m e).2

theorem roundedNanos_near (m : Nat) (e : Int) :
    (finite false m e).size * nanosPerSecond - 1 / 2 ≤ roundedNanos m e ∧
      roundedNanos m e ≤ (finite false m e).size * nanosPerSecond + 1 / 2 := by
  have hratio : (((magnitude m e).1 * nanosPerSecond : Nat) : ℚ) / (magnitude m e).2 =
      (finite false m e).size * nanosPerSecond := by
    simp only [size, ← magnitude_ratio]
    push_cast
    rw [div_mul_eq_mul_div]
  rw [← hratio]
  exact ⟨le_roundHalfEven (magnitude_den_pos m e), roundHalfEven_le (magnitude_den_pos m e)⟩

theorem isSome_ofBinary64?_iff (m : Nat) (e : Int) :
    (ofBinary64? (finite false m e)).isSome = true ↔ Representable ⟨roundedNanos m e⟩ := by
  simp [ofBinary64?, roundedNanos]

/-- A number of seconds well below the bound is a span. -/
theorem isSome_ofBinary64? {k : Nat} {q : ℚ} {x : Binary64} (hx : Near k q x)
    (h : x.size * nanosPerSecond + 1 / 2 < bound) : (ofBinary64? x).isSome = true := by
  obtain ⟨m, e, rfl⟩ := hx.exists_finite
  have hlt : (roundedNanos m e : ℚ) < bound := (roundedNanos_near m e).2.trans_lt h
  exact (isSome_ofBinary64?_iff m e).mpr (by exact_mod_cast hlt)

theorem ofBinary64?_eq_none {k : Nat} {q : ℚ} {x : Binary64} (hx : Near k q x)
    (h : bound ≤ x.size * nanosPerSecond) : ofBinary64? x = none := by
  obtain ⟨m, e, rfl⟩ := hx.exists_finite
  -- a whole number that is at least the bound less one half is at least the bound
  refine Option.not_isSome_iff_eq_none.mp fun hsome => ?_
  have hspan : roundedNanos m e < bound := (isSome_ofBinary64?_iff m e).mp hsome
  have hstep : (roundedNanos m e : ℚ) + 1 ≤ bound := by exact_mod_cast hspan
  linarith [(roundedNanos_near m e).1]

/-- Rounding moves a number of seconds across the bound only if it is that close to it. -/
theorem ofBinary64?_decided {q : ℚ} {x : Binary64} (hx : Near 6 q x) :
    (q * nanosPerSecond * 2 ^ 50 ≤ bound * (2 ^ 50 - 1) → (ofBinary64? x).isSome = true) ∧
      (bound * (2 ^ 50 + 1) ≤ q * nanosPerSecond * 2 ^ 50 → ofBinary64? x = none) := by
  have hshrink : (1 - 6 * roundoff : ℚ) ≤ (1 - roundoff) ^ 6 := by norm_num [roundoff]
  have hgrow : (1 + roundoff) ^ 6 ≤ (1 + 7 * roundoff : ℚ) := by norm_num [roundoff]
  have hlow := (mul_le_mul_of_nonneg_left hshrink hx.nonneg).trans hx.le_size
  have hhigh := hx.size_le.trans (mul_le_mul_of_nonneg_left hgrow hx.nonneg)
  refine ⟨fun h => isSome_ofBinary64? hx ?_, fun h => ofBinary64?_eq_none hx ?_⟩
  · norm_num [bound, maxWord64, nanosPerSecond, roundoff] at *
    linarith
  · norm_num [bound, maxWord64, nanosPerSecond, roundoff] at *
    linarith

end Duration

namespace TimeoutPolicy

open Duration

/-- The thousands of tokens times what is added for each of them, in seconds. -/
def exactAddition (perThousand : Duration) (tokens : Nat) : ℚ :=
  tokens / (1000 : Nat) * (perThousand.nanos / nanosPerSecond)

theorem near_addition {perThousand : Duration} {tokens : Nat} (hspan : perThousand.Representable)
    (htokens : tokens ≤ maxWord32) :
    Near 6 (exactAddition perThousand tokens)
      (((ofNat tokens).div (ofNat 1000)).mul perThousand.toBinary64) := by
  have hlt : perThousand.nanos < (maxWord64 + 1) * nanosPerSecond := hspan
  have hthousand : ofNat 1000 = finite false 8796093022208000 (-43) := by decide
  have hsize : (finite false 8796093022208000 (-43)).size = (1000 : Nat) := by norm_num [size]
  have hrange : tokens ≤ 10 ^ 40 := htokens.trans (by decide)
  have hfactor : Near 2 (tokens / (1000 : Nat)) ((ofNat tokens).div (ofNat 1000)) := by
    have hdiv := (near_ofNat hrange).div (by decide) (n := 8796093022208000) (f := -43) (by decide)
    rw [hsize] at hdiv
    rw [hthousand]
    exact hdiv (moderate_div hrange (by decide))
  have hnum : tokens * perThousand.nanos ≤ 10 ^ 40 :=
    (Nat.mul_le_mul htokens hlt.le).trans (by decide)
  refine hfactor.mul (near_toBinary64 hspan) (by decide) (by decide) ?_
  rw [div_mul_div_comm]
  exact_mod_cast moderate_div hnum (show 1000 * nanosPerSecond ≤ 10 ^ 40 by decide)

/-- What is added for a budget is a representable span, with room for the roundings. -/
def Fits (perThousand : Duration) (tokens : Nat) : Prop :=
  perThousand.nanos * tokens * 2 ^ 50 ≤ 1000 * Duration.bound * (2 ^ 50 - 1)

/-- What is added for a budget is no representable span, whatever the roundings do. -/
def Exceeds (perThousand : Duration) (tokens : Nat) : Prop :=
  1000 * Duration.bound * (2 ^ 50 + 1) ≤ perThousand.nanos * tokens * 2 ^ 50

instance (perThousand : Duration) (tokens : Nat) : Decidable (Fits perThousand tokens) :=
  inferInstanceAs (Decidable (_ ≤ _))

instance (perThousand : Duration) (tokens : Nat) : Decidable (Exceeds perThousand tokens) :=
  inferInstanceAs (Decidable (_ ≤ _))

/-- Nothing below a hundred thousand years for a thousand tokens is too much. -/
theorem fits_of_le {perThousand : Duration} {tokens : Nat}
    (hspan : perThousand ≤ ofSeconds (4 * 10 ^ 12)) (htokens : tokens ≤ maxWord32) :
    Fits perThousand tokens :=
  calc perThousand.nanos * tokens * 2 ^ 50
      ≤ 4 * 10 ^ 12 * nanosPerSecond * maxWord32 * 2 ^ 50 :=
        Nat.mul_le_mul_right _ (Nat.mul_le_mul hspan htokens)
    _ ≤ 1000 * Duration.bound * (2 ^ 50 - 1) := by decide

variable {perThousand : Duration} {tokens : Nat}

theorem isSome_addition? (hspan : perThousand.Representable) (htokens : tokens ≤ maxWord32)
    (h : Fits perThousand tokens) : (addition? perThousand tokens).isSome = true := by
  refine (ofBinary64?_decided (near_addition hspan htokens)).1 ?_
  have hcast : (perThousand.nanos * tokens * 2 ^ 50 : ℚ) ≤
      1000 * Duration.bound * (2 ^ 50 - 1 : Nat) := by exact_mod_cast h
  norm_num [exactAddition, nanosPerSecond] at hcast ⊢
  linarith

theorem addition?_eq_none (hspan : perThousand.Representable) (htokens : tokens ≤ maxWord32)
    (h : Exceeds perThousand tokens) : addition? perThousand tokens = none := by
  refine (ofBinary64?_decided (near_addition hspan htokens)).2 ?_
  have hcast : (1000 * Duration.bound * (2 ^ 50 + 1) : ℚ) ≤
      perThousand.nanos * tokens * 2 ^ 50 := by exact_mod_cast h
  norm_num [exactAddition, nanosPerSecond] at hcast ⊢
  linarith

/-- A sum cut off at a ceiling above the floor stays between the two. -/
theorem le_min_saturatingAdd {base max : Duration} (hbase : base ≤ max)
    (hmax : max.Representable) (addition : Duration) :
    base ≤ (base.saturatingAdd addition).min max := by
  have hlongest : base ≤ longest := hbase.trans (Nat.le_sub_one_of_lt hmax)
  have hsum : base ≤ base.saturatingAdd addition := by
    unfold saturatingAdd
    split
    · exact Nat.le_add_right _ _
    · exact hlongest
  unfold Duration.min
  split
  · exact hsum
  · exact hbase

/-- What a limit that grows with the budget keeps to. A prompt without a budget gets the floor, and
a limit there is lies between floor and ceiling. There is one for every budget for which the
addition is a representable span, so for every budget unless the policy adds ages, and none for a
budget for which it is not. -/
structure Limited (base perThousand max : Duration) : Prop where
  unbudgeted : (scaled base perThousand max).limit? none = some base
  within : ∀ budget limit, (scaled base perThousand max).limit? budget = some limit →
    base ≤ limit ∧ limit ≤ max
  given : ∀ tokens ≤ maxWord32, Fits perThousand tokens →
    ((scaled base perThousand max).limit? (some tokens)).isSome = true
  sure : perThousand ≤ ofSeconds (4 * 10 ^ 12) → ∀ tokens ≤ maxWord32,
    ((scaled base perThousand max).limit? (some tokens)).isSome = true
  missing : ∀ tokens ≤ maxWord32, Exceeds perThousand tokens →
    (scaled base perThousand max).limit? (some tokens) = none

/-- A limit that grows with the budget lies between floor and ceiling, and it exists unless the
addition is too long before the ceiling cuts it off. -/
theorem limit?_limited {base perThousand max : Duration} (hbase : base ≤ max)
    (hmax : max.Representable) (hspan : perThousand.Representable) :
    Limited base perThousand max := by
  have hfloor : base.min max = base := if_pos hbase
  have hgiven : ∀ tokens ≤ maxWord32, Fits perThousand tokens →
      ((scaled base perThousand max).limit? (some tokens)).isSome = true := by
    intro tokens htokens hfits
    simp [limit?, isSome_addition? hspan htokens hfits]
  refine ⟨congrArg some hfloor, ?_, hgiven, fun hages tokens htokens =>
    hgiven tokens htokens (fits_of_le hages htokens), ?_⟩
  · intro budget limit h
    cases budget with
    | none =>
        obtain rfl : base.min max = limit := Option.some.inj h
        rw [hfloor]
        exact ⟨Nat.le_refl _, hbase⟩
    | some tokens =>
        obtain ⟨addition, -, rfl⟩ := Option.map_eq_some_iff.mp h
        exact ⟨le_min_saturatingAdd hbase hmax addition, min_le_right _ _⟩
  · intro tokens htokens hexceeds
    simp [limit?, addition?_eq_none hspan htokens hexceeds]

/-- Ten seconds, five for each thousand tokens and at most a minute. -/
theorem limit?_limited_minute :
    Limited (ofSeconds 10) (ofSeconds 5) (ofSeconds 60) ∧
      (scaled (ofSeconds 10) (ofSeconds 5) (ofSeconds 60)).limit? (some 2000) =
        some (ofSeconds 20) ∧
      Fits (ofSeconds 5) 2000 ∧ Exceeds (ofSeconds 9223372036854775807) 4000 :=
  ⟨limit?_limited (by decide) (by decide) (by decide), by decide +kernel, by decide, by decide⟩

/-- A ceiling of a minute does not give a limit to a policy that adds ages for each thousand
tokens, although the floor is below the ceiling and all three are representable spans. -/
theorem limit?_missing_below_ceiling :
    ofSeconds 1 ≤ ofSeconds 60 ∧ (ofSeconds 60).Representable ∧
      (ofSeconds 9223372036854775807).Representable ∧
      ¬ ∃ limit, (scaled (ofSeconds 1) (ofSeconds 9223372036854775807) (ofSeconds 60)).limit?
        (some 4000) = some limit ∧ ofSeconds 1 ≤ limit ∧ limit ≤ ofSeconds 60 := by
  have hnone : (scaled (ofSeconds 1) (ofSeconds 9223372036854775807) (ofSeconds 60)).limit?
      (some 4000) = none := by decide +kernel
  refine ⟨by decide, by decide, by decide, ?_⟩
  rintro ⟨limit, hlimit, -⟩
  cases hnone.symm.trans hlimit

end TimeoutPolicy

end AgentGateway
