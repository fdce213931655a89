import AgentGateway.Proofs.Json.Written

/-!
# Numbers that are written are in range

A floating point number is written with its shortest digits, and reading them takes one or two
roundings of its own, so the number read may differ from the one written. It is never beyond the
largest number, though: the digits exceed the number by half a step at most, the roundings add
less than one part in `2 ^ 52`, and of the two numbers next to the end of the range the digits are
known.
-/

namespace AgentGateway.Json

open Binary64

/-! ## Powers of ten -/

/-- A number with a negative exponent is always in range. -/
theorem isSome_assemble_of_neg (fuel : Nat) (value : Binary64) {exponent : Int}
    (h : exponent < 0) : (assemble fuel value exponent).isSome = true := by
  induction fuel generalizing value exponent with
  | zero =>
      rw [assemble]
      split_ifs <;> first | rfl | omega
  | succ fuel ih =>
      rw [assemble]
      split_ifs
      · omega
      · rfl
      · rfl
      · omega
      · exact ih _ (by omega)

theorem pow_lt_overflow {k : Nat} (hk : k ≤ 308) : (10 : ℚ) ^ k < overflow := by
  have htop : tenTo 308 < (twoTo 54 - 1) * twoTo 970 := by decide +kernel
  rw [overflow_eq, ← cast_tenTo, Nat.cast_lt]
  exact (tenTo_le_iff.mpr hk).trans_lt htop

theorem le_of_pow_lt_overflow {k : Nat} (h : (10 : ℚ) ^ k < overflow) : k ≤ 308 := by
  have htop : (twoTo 54 - 1) * twoTo 970 < tenTo 309 := by decide +kernel
  rw [overflow_eq, ← cast_tenTo, Nat.cast_lt] at h
  exact Nat.le_of_lt_succ (tenTo_lt_iff.mp (h.trans htop))

theorem ten_pow_split {k l : Nat} {exponent : Int} (h : (k : Int) = l + exponent) :
    (10 : ℚ) ^ k = 10 ^ l * 10 ^ exponent := by
  rw [← zpow_natCast, ← zpow_natCast, ← zpow_add₀ (by norm_num), h]

theorem powerOfTen_eq (k : Nat) : powerOfTen k = round false (10 ^ k) 1 := by
  simp [powerOfTen, ofDecimal, tenTo_eq]

/-- A number is in range if two roundings up do not take it to the midpoint above the largest. -/
theorem isSome_assemble {value k : Nat} (hvalue : 0 < value)
    (hlt : value * 10 ^ k * (1 + 1 / 2 ^ 53) ^ 2 < overflow) :
    (assemble 4 (.ofNat value) k).isSome = true := by
  have hone : (1 : ℚ) ≤ value := by exact_mod_cast hvalue
  have hpow : (1 : ℚ) ≤ 10 ^ k := one_le_pow₀ (by norm_num)
  have hquotient : (1 : ℚ) ≤ (10 ^ k : Nat) / (1 : Nat) := by simpa using hpow
  have hproduct : (value : ℚ) * 10 ^ k < overflow := by
    refine lt_of_le_of_lt ?_ hlt
    exact le_mul_of_one_le_right (by positivity) (by norm_num)
  have hk : k ≤ 308 := le_of_pow_lt_overflow ((le_mul_of_one_le_left (by positivity) hone).trans_lt
    hproduct)
  have hfactor : (Binary64.ofNat value).isFinite = true ∧
      (Binary64.ofNat value).size ≤ value * (1 + 1 / 2 ^ 53) := by
    refine ⟨isFinite_round false Nat.one_pos ?_, ?_⟩
    · rw [Nat.cast_one, div_one]
      exact (le_mul_of_one_le_right (by positivity) hpow).trans_lt hproduct
    · simpa [Binary64.ofNat] using size_round_le false Nat.one_pos (by simpa using hone)
  have hscale : (powerOfTen k).isFinite = true ∧
      (powerOfTen k).size ≤ 10 ^ k * (1 + 1 / 2 ^ 53) := by
    rw [powerOfTen_eq]
    refine ⟨isFinite_round false Nat.one_pos ?_, ?_⟩
    · simpa using pow_lt_overflow hk
    · simpa using size_round_le false Nat.one_pos hquotient
  have hfinite : ((Binary64.ofNat value).mul (powerOfTen k)).isFinite = true := by
    refine isFinite_mul hfactor.1 hscale.1 (lt_of_le_of_lt ?_ hlt)
    calc (Binary64.ofNat value).size * (powerOfTen k).size
        ≤ (value * (1 + 1 / 2 ^ 53)) * (10 ^ k * (1 + 1 / 2 ^ 53)) := by
          gcongr
          · exact size_nonneg _
          · exact hfactor.2
          · exact hscale.2
      _ = value * 10 ^ k * (1 + 1 / 2 ^ 53) ^ 2 := by ring
  rw [assemble, if_pos (by omega), if_pos (by omega), Int.toNat_natCast]
  simp [hfinite]

/-! ## Numerals without an exponent -/

theorem exists_real?_of_neg (negative : Bool) (value : Nat) {exponent : Int} (h : exponent < 0) :
    ∃ x, Numeral.real? negative value exponent = some (.real x) := by
  obtain ⟨y, hy⟩ := Option.isSome_iff_exists.mp (isSome_assemble_of_neg 4 (.ofNat value) h)
  exact ⟨_, by rw [Numeral.real?, hy]; rfl⟩

/-- With a fraction and a moderate number of digits before it, the exponent is negative. -/
theorem exists_value?_of_fraction {n : Numeral} (hn : n.Sound) (hlen : n.whole.length ≤ 16)
    (hfraction : n.fraction ≠ []) (hexponent : n.exponent = none) (negative : Bool) :
    ∃ x, n.value? negative = some (.real x) := by
  have hwhole : Nat.ofDigitChars 10 n.whole 0 < 10 ^ 16 := by
    have hlt := ofDigitChars_lt hn.whole 0
    have hpow : 10 ^ n.whole.length ≤ 10 ^ 16 := Nat.pow_le_pow_right (by decide) hlen
    omega
  have hgathered : accumulate n.whole = (Nat.ofDigitChars 10 n.whole 0, 0) :=
    accumulate_eq (by unfold maxWord64; omega)
  obtain ⟨used, hused, hnext, heq⟩ :=
    accumulateFraction_eq (Nat.ofDigitChars 10 n.whole 0) n.fraction
  have hone : 1 ≤ used := by
    by_contra hzero
    obtain rfl : used = 0 := by omega
    obtain ⟨c, more, hcons⟩ := List.exists_cons_of_ne_nil hfraction
    have hdigit := digitValue_le (hn.fraction c (by simp [hcons]))
    have hbeyond := hnext (by simp [hcons])
    rw [hcons, List.take_succ_cons, List.take_zero, ofDigitChars_cons', Nat.ofDigitChars_nil]
      at hbeyond
    unfold maxWord64 at hbeyond
    omega
  simp only [Numeral.value?, hgathered, hfraction, if_false, heq, hexponent, Numeral.scaled?]
  exact exists_real?_of_neg negative _ (by omega)

theorem exists_value?_positional {digits : List Char} {point : Int}
    (hn : (positionalNumeral digits point).Sound) (hne : digits ≠ []) (hpoint : point ≤ 16)
    (negative : Bool) : ∃ x, (positionalNumeral digits point).value? negative = some (.real x) := by
  refine exists_value?_of_fraction hn ?_ ?_ ?_ negative
  all_goals unfold positionalNumeral; split_ifs with hzero hcount
  · simp
  · simp only [List.length_append, List.length_replicate]
    omega
  · simp only [List.length_take]
    omega
  · simp [hne]
  · simp
  · have : point.toNat < digits.length := by omega
    simp only [ne_eq, List.drop_eq_nil_iff]
    omega
  all_goals rfl

/-! ## Numerals with an exponent -/

theorem value?_scientific {d : Char} (hd : isDigit d = true) (more : List Char) (point : Int)
    (negative : Bool) :
    (scientificNumeral (d :: more) point).value? negative =
      Numeral.scaled? negative (accumulateFraction (digitValue d) more).1
        (-((accumulateFraction (digitValue d) more).2.1 : Int))
        (some (decide (point ≤ 0), Nat.toDigits 10 (point - 1).natAbs)) := by
  have hvalue := digitValue_le hd
  have hwhole : accumulate [d] = (digitValue d, 0) := by
    have hfits : Nat.ofDigitChars 10 [d] 0 ≤ maxWord64 := by
      simp only [ofDigitChars_cons', Nat.ofDigitChars_nil, maxWord64]
      omega
    simpa [ofDigitChars_cons'] using accumulate_eq hfits
  cases more with
  | nil => simp [Numeral.value?, scientificNumeral, hwhole, accumulateFraction]
  | cons d' more => simp [Numeral.value?, scientificNumeral, hwhole]

theorem exponentValue_toDigits (n : Nat) :
    (exponentValue 0 0 (Nat.toDigits 10 n)).1 = if n ≤ maxSigned32 then some n else none := by
  rw [exponentValue_eq _ (Nat.zero_le _), Nat.ofDigitChars_ten_toDigits]

theorem exists_value?_scientific_small {d : Char} (hd : isDigit d = true) (more : List Char)
    {point : Int} (hpoint : point ≤ 0) (negative : Bool) :
    ∃ x, (scientificNumeral (d :: more) point).value? negative = some (.real x) := by
  rw [value?_scientific hd]
  simp only [Numeral.scaled?, exponentValue_toDigits, decide_eq_true hpoint]
  by_cases hfits : (point - 1).natAbs ≤ maxSigned32
  · simp only [if_pos hfits, if_true]
    refine exists_real?_of_neg negative _ ?_
    unfold clampExponent
    omega
  · exact ⟨.zero negative, by simp [if_neg hfits]⟩

/-- A large number: its exponent is the one of its first digits, and those are below it. -/
theorem exists_value?_scientific_large {d : Char} (hd : isDigit d = true) (hzero : d ≠ '0')
    {more : List Char} {point : Int} (hpoint : 0 < point) (hlimit : point ≤ 309)
    (hrange : (Nat.ofDigitChars 10 more (digitValue d) : ℚ) * 10 ^ (point - 1 - more.length) *
      (1 + 1 / 2 ^ 53) ^ 2 < overflow) (negative : Bool) :
    ∃ x, (scientificNumeral (d :: more) point).value? negative = some (.real x) := by
  obtain ⟨used, hused, -, heq⟩ := accumulateFraction_eq (digitValue d) more
  have hfits : (point - 1).natAbs ≤ maxSigned32 := by
    unfold maxSigned32
    omega
  rw [value?_scientific hd, heq]
  simp only [Numeral.scaled?, exponentValue_toDigits, if_pos hfits,
    decide_eq_false (not_le.mpr hpoint)]
  rcases lt_or_ge (point - 1) used with hbelow | habove
  · refine exists_real?_of_neg negative _ ?_
    unfold clampExponent
    simp only [Bool.false_eq_true, if_false]
    omega
  · obtain ⟨k, hk⟩ : ∃ k : Nat, point - 1 = used + k := ⟨(point - 1 - used).toNat, by omega⟩
    have hclamp : clampExponent (-(used : Int) + ((point - 1).natAbs : Nat)) = k := by
      unfold clampExponent maxSigned32
      omega
    have hfirst : 0 < Nat.ofDigitChars 10 (more.take used) (digitValue d) :=
      (one_le_digitValue hd hzero).trans (le_ofDigitChars _ _)
    -- The digits left out make the number no smaller.
    have hle : (Nat.ofDigitChars 10 (more.take used) (digitValue d) : ℚ) * 10 ^ k ≤
        Nat.ofDigitChars 10 more (digitValue d) * 10 ^ (point - 1 - more.length) := by
      have hall := ofDigitChars_take_le more used (digitValue d)
      have hsplit : (10 : ℚ) ^ k =
          10 ^ (more.length - used) * 10 ^ (point - 1 - more.length) := ten_pow_split (by omega)
      rw [hsplit, ← mul_assoc]
      gcongr
      exact_mod_cast hall
    have hsome := isSome_assemble hfirst (lt_of_le_of_lt (by gcongr) hrange)
    obtain ⟨y, hy⟩ := Option.isSome_iff_exists.mp hsome
    simp only [Bool.false_eq_true, if_false, hclamp, Numeral.real?, hy]
    exact ⟨_, rfl⟩

/-! ## Floating point numbers -/

/-- Apart from the two numbers at the end of the range, two roundings up of half a step more stay
below the midpoint. -/
theorem above_lt_overflow {m : Nat} {e : Int} (hm : m < 2 * leastMantissa) (he : e ≤ 971)
    (hend : m + 3 ≤ 2 * leastMantissa ∨ e ≤ 970) :
    above m e * (1 + 1 / 2 ^ 53) ^ 2 < overflow := by
  have hstep : (0 : ℚ) < 2 ^ (970 : Int) := by positivity
  have hbound : above m e ≤ (2 ^ 54 - 5) * 2 ^ (970 : Int) := by
    unfold above
    rcases hend with hsmall | hlow
    · have hm : (m : ℚ) + 3 ≤ (2 * leastMantissa : Nat) := by exact_mod_cast hsmall
      have hpow : (2 : ℚ) ^ (e - 1) ≤ 2 ^ (970 : Int) :=
        zpow_le_zpow_right₀ one_le_two (by omega)
      norm_num [leastMantissa] at hm
      refine mul_le_mul ?_ hpow (by positivity) (by norm_num)
      linarith
    · have hm : (m : ℚ) + 1 ≤ (2 * leastMantissa : Nat) := by exact_mod_cast hm
      have hpow : (2 : ℚ) ^ (e - 1) ≤ 2 ^ (970 : Int) / 2 := by
        rw [div_eq_mul_inv, ← zpow_sub_one₀ two_ne_zero]
        exact zpow_le_zpow_right₀ one_le_two (by omega)
      norm_num [leastMantissa] at hm
      calc (2 * (m : ℚ) + 1) * 2 ^ (e - 1)
          ≤ (2 ^ 54 - 1) * (2 ^ (970 : Int) / 2) := by
            refine mul_le_mul ?_ hpow (by positivity) (by norm_num)
            linarith
        _ = (2 ^ 54 - 1) / 2 * 2 ^ (970 : Int) := by ring
        _ ≤ (2 ^ 54 - 5) * 2 ^ (970 : Int) := mul_le_mul_of_nonneg_right (by norm_num) hstep.le
  calc above m e * (1 + 1 / 2 ^ 53) ^ 2
      ≤ (2 ^ 54 - 5) * 2 ^ (970 : Int) * (1 + 1 / 2 ^ 53) ^ 2 := by gcongr
    _ = (2 ^ 54 - 5) * (1 + 1 / 2 ^ 53) ^ 2 * 2 ^ (970 : Int) := by ring
    _ < overflow := mul_lt_mul_of_pos_right (by norm_num) hstep

/-- The two numbers at the end of the range are read as the last one. -/
theorem value?_end (negative : Bool) :
    (realNumeral 9007199254740991 971).value? negative =
        some (.real (finite negative 9007199254740991 971)) ∧
      (realNumeral 9007199254740990 971).value? negative =
        some (.real (finite negative 9007199254740991 971)) := by
  cases negative <;> constructor <;> decide +kernel

/-- The digits of a large number and where they stand. -/
theorem exists_cons_realDigits {m : Nat} {e : Int} (hm : m ≠ 0) (hpoint : 16 < realPoint m e) :
    ∃ d more, realDigits m e = d :: more ∧ isDigit d = true ∧ d ≠ '0' ∧
      Nat.ofDigitChars 10 more (digitValue d) = (shortest m e).digits ∧
      realPoint m e - 1 - more.length = (shortest m e).exponent := by
  obtain ⟨d, more, hcons⟩ : ∃ d more, realDigits m e = d :: more :=
    List.exists_cons_of_ne_nil Nat.toDigits_ne_nil
  refine ⟨d, more, hcons, ?_, ?_, ?_, ?_⟩
  · exact isDigit_of_mem_toDigits (by rw [← realDigits, hcons]; exact List.mem_cons_self)
  · rintro rfl
    have hnone : (shortest m e).digits = 0 :=
      eq_zero_of_head_toDigits (by rw [← realDigits, hcons]; rfl)
    rw [realPoint, realDigits, hnone, (shortest_fits hm e).plain hnone, Nat.toDigits_zero]
      at hpoint
    simp at hpoint
  · have hnumber : Nat.ofDigitChars 10 (realDigits m e) 0 = (shortest m e).digits :=
      Nat.ofDigitChars_ten_toDigits
    rwa [hcons, ofDigitChars_cons', Nat.zero_mul, Nat.zero_add] at hnumber
  · rw [realPoint, hcons, List.length_cons]
    omega

/-- Reading what a number from the tenth power on is written as stays in range. -/
theorem exists_value?_large {m : Nat} {e : Int} (hm : m ≠ 0)
    (hrange : above m e * (1 + 1 / 2 ^ 53) ^ 2 < overflow) (hpoint : 16 < realPoint m e)
    (negative : Bool) :
    ∃ x, (scientificNumeral (realDigits m e) (realPoint m e)).value? negative =
      some (.real x) := by
  obtain ⟨d, more, hcons, hd, hzero, hnumber, hexponent⟩ := exists_cons_realDigits hm hpoint
  have hproduct : (Nat.ofDigitChars 10 more (digitValue d) : ℚ) *
      10 ^ (realPoint m e - 1 - more.length) * (1 + 1 / 2 ^ 53) ^ 2 < overflow := by
    have hvalue := (shortest_fits hm e).value_le
    rw [hnumber, hexponent]
    exact lt_of_le_of_lt (by gcongr; exact hvalue) hrange
  rw [hcons]
  refine exists_value?_scientific_large hd hzero (by omega) ?_ hproduct negative
  -- The power of ten of the first digit alone is in range.
  have hlead : 10 ^ more.length ≤ Nat.ofDigitChars 10 more (digitValue d) :=
    (Nat.le_mul_of_pos_left _ (one_le_digitValue hd hzero)).trans (mul_pow_le_ofDigitChars _ _)
  obtain ⟨k, hk⟩ : ∃ k : Nat, realPoint m e - 1 = k := ⟨(realPoint m e - 1).toNat, by omega⟩
  have hpow : (10 : ℚ) ^ k < overflow := by
    refine lt_of_le_of_lt ?_ hproduct
    calc (10 : ℚ) ^ k = 10 ^ more.length * 10 ^ (realPoint m e - 1 - more.length) :=
          ten_pow_split (by omega)
      _ ≤ Nat.ofDigitChars 10 more (digitValue d) * 10 ^ (realPoint m e - 1 - more.length) := by
          gcongr
          exact_mod_cast hlead
      _ ≤ _ := le_mul_of_one_le_right (by positivity) (by norm_num)
  have := le_of_pow_lt_overflow hpow
  omega

/-- Every floating point number is written so that a number can be read. -/
theorem exists_value?_real {m : Nat} {e : Int} {negative : Bool}
    (h : (finite negative m e).IsNormal) (sign : Bool) :
    ∃ x, (realNumeral m e).value? sign = some (.real x) := by
  obtain ⟨hm, -, he, -⟩ := h
  by_cases hend : m + 3 ≤ 2 * leastMantissa ∨ e ≤ 970
  · have hrange := above_lt_overflow hm he hend
    have hsound := realNumeral_sound m e
    unfold realNumeral at hsound ⊢
    split_ifs at hsound ⊢ with hzero hmoderate
    · exact exists_value?_of_fraction hsound (by simp) (by simp) rfl sign
    · exact exists_value?_positional hsound Nat.toDigits_ne_nil hmoderate.2 sign
    · rcases lt_or_ge 16 (realPoint m e) with hlarge | hsmall
      · exact exists_value?_large hzero hrange hlarge sign
      · obtain ⟨d, more, hcons⟩ : ∃ d more, realDigits m e = d :: more :=
          List.exists_cons_of_ne_nil Nat.toDigits_ne_nil
        have hd : isDigit d = true :=
          isDigit_of_mem_toDigits (by rw [← realDigits, hcons]; exact List.mem_cons_self)
        rw [hcons]
        exact exists_value?_scientific_small hd more (by omega) sign
  · obtain ⟨hlast, rfl⟩ : (m = 9007199254740991 ∨ m = 9007199254740990) ∧ e = 971 := by
      unfold maxExponent at he
      unfold leastMantissa at hm hend
      omega
    obtain rfl | rfl := hlast
    · exact ⟨_, (value?_end sign).1⟩
    · exact ⟨_, (value?_end sign).2⟩

/-! ## What a number is read back as -/

namespace Number

def readBack (n : Number) : Number := (n.numeral.value? n.negative).getD n

theorem value?_integer {n : Int} (hn : (integer n).Valid) :
    (integer n).numeral.value? (integer n).negative = some (integer n) := by
  obtain ⟨hlow, hhigh⟩ := hn
  have hfits : Nat.ofDigitChars 10 (Nat.toDigits 10 n.natAbs) 0 ≤ maxWord64 := by
    rw [Nat.ofDigitChars_ten_toDigits]
    unfold maxSigned64 at hlow
    unfold maxWord64 at hhigh ⊢
    omega
  have hvalue := accumulate_eq hfits
  rw [Nat.ofDigitChars_ten_toDigits] at hvalue
  simp only [numeral, negative, Numeral.value?, hvalue, if_true, and_self, integerOrReal,
    decide_eq_true_eq]
  split_ifs with hneg hrange
  · simp only [Option.some.injEq, integer.injEq]
    omega
  · omega
  · simp only [Option.some.injEq, integer.injEq]
    omega

theorem readBack_integer {n : Int} (hn : (integer n).Valid) :
    (integer n).readBack = integer n := by
  rw [readBack, value?_integer hn, Option.getD_some]

theorem exists_value?_of_real {x : Binary64} (hx : (real x).Valid) :
    ∃ y, (real x).numeral.value? (real x).negative = some (real y) := by
  obtain ⟨hfinite, hnormal⟩ := hx
  cases x with
  | nan => simp [isFinite] at hfinite
  | infinite s => simp [isFinite] at hfinite
  | finite s m e => exact exists_value?_real hnormal s

theorem exists_readBack_real {x : Binary64} (hx : (real x).Valid) :
    ∃ y, (real x).readBack = real y := by
  obtain ⟨y, hy⟩ := exists_value?_of_real hx
  exact ⟨y, by rw [readBack, hy, Option.getD_some]⟩

theorem value?_numeral {n : Number} (hn : n.Valid) :
    n.numeral.value? n.negative = some n.readBack := by
  cases n with
  | integer n => rw [readBack_integer hn, value?_integer hn]
  | real x =>
      obtain ⟨y, hy⟩ := exists_value?_of_real hn
      rw [readBack, hy, Option.getD_some]

end Number

end AgentGateway.Json
