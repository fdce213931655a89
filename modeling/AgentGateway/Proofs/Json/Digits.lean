import AgentGateway.Json.Cursor
import Mathlib.Data.List.Induction
import Mathlib.Tactic.Linarith
import Mathlib.Tactic.Ring

/-!
# The value of digits

The scanners gather the value of digits one by one and stop where it would leave a machine word.
What they gather is the value of the digits that were used: all of them if the value fits
(`accumulate_eq`, `exponentValue_eq`), and otherwise the first ones (`accumulateFraction_eq`).
-/

namespace AgentGateway.Json

theorem toNat_of_isDigit {c : Char} (h : isDigit c = true) : 48 ≤ c.toNat ∧ c.toNat ≤ 57 := by
  simp only [isDigit, Bool.and_eq_true, decide_eq_true_eq] at h
  exact h

theorem ofDigitChars_cons' (c : Char) (digits : List Char) (value : Nat) :
    Nat.ofDigitChars 10 (c :: digits) value =
      Nat.ofDigitChars 10 digits (value * 10 + digitValue c) := by
  rw [Nat.ofDigitChars_cons, Nat.mul_comm 10 value]
  rfl

theorem mul_pow_le_ofDigitChars (digits : List Char) (value : Nat) :
    value * 10 ^ digits.length ≤ Nat.ofDigitChars 10 digits value := by
  rw [Nat.ofDigitChars_eq_ofDigitChars_zero, Nat.mul_comm]
  exact Nat.le_add_right _ _

theorem le_ofDigitChars (digits : List Char) (value : Nat) :
    value ≤ Nat.ofDigitChars 10 digits value :=
  (Nat.le_mul_of_pos_right value (Nat.pow_pos (by decide))).trans
    (mul_pow_le_ofDigitChars digits value)

theorem ofDigitChars_take_le (digits : List Char) (used value : Nat) :
    Nat.ofDigitChars 10 (digits.take used) value * 10 ^ (digits.length - used) ≤
      Nat.ofDigitChars 10 digits value := by
  have h := mul_pow_le_ofDigitChars (digits.drop used)
    (Nat.ofDigitChars 10 (digits.take used) value)
  rwa [← Nat.ofDigitChars_append, List.take_append_drop, List.length_drop] at h

theorem digitValue_le {c : Char} (h : isDigit c = true) : digitValue c ≤ 9 := by
  have hc := toNat_of_isDigit h
  unfold digitValue
  omega

theorem one_le_digitValue {c : Char} (h : isDigit c = true) (hzero : c ≠ '0') :
    1 ≤ digitValue c := by
  have hc := toNat_of_isDigit h
  have hne : c.toNat ≠ 48 := fun heq => hzero (Char.toNat_inj.mp heq)
  unfold digitValue
  omega

theorem ofDigitChars_lt {digits : List Char} (h : ∀ c ∈ digits, isDigit c = true) (value : Nat) :
    Nat.ofDigitChars 10 digits value < (value + 1) * 10 ^ digits.length := by
  induction digits generalizing value with
  | nil => simp
  | cons c digits ih =>
      have hc := digitValue_le (h c (by simp))
      rw [ofDigitChars_cons', List.length_cons, Nat.pow_succ]
      calc Nat.ofDigitChars 10 digits (value * 10 + digitValue c)
          < (value * 10 + digitValue c + 1) * 10 ^ digits.length :=
            ih (fun c hc => h c (by simp [hc])) _
        _ ≤ (value + 1) * 10 * 10 ^ digits.length := Nat.mul_le_mul_right _ (by omega)
        _ = (value + 1) * (10 ^ digits.length * 10) := by ring

theorem accumulate_eq {digits : List Char}
    (h : Nat.ofDigitChars 10 digits 0 ≤ maxWord64) :
    accumulate digits = (Nat.ofDigitChars 10 digits 0, 0) := by
  induction digits using List.reverseRecOn with
  | nil => rfl
  | append_singleton digits c ih =>
      rw [Nat.ofDigitChars_append] at h ⊢
      -- What fits with the last digit fits without it, so nothing has been left over before.
      have hfront := ih ((le_ofDigitChars [c] _).trans h)
      rw [ofDigitChars_cons', Nat.ofDigitChars_nil] at h ⊢
      unfold accumulate at hfront ⊢
      rw [List.foldl_append, hfront]
      simp [h]

/-- Of the digits of a fraction the first ones are gathered, up to one that does not fit. -/
theorem accumulateFraction_eq (value : Nat) (digits : List Char) :
    ∃ used ≤ digits.length,
      (used < digits.length →
        maxWord64 < Nat.ofDigitChars 10 (digits.take (used + 1)) value) ∧
      accumulateFraction value digits =
        (Nat.ofDigitChars 10 (digits.take used) value, used, decide (used < digits.length)) := by
  -- From the back, since whether a digit fits depends on all that come before it.
  induction digits using List.reverseRecOn with
  | nil => exact ⟨0, le_rfl, by simp, by simp [accumulateFraction]⟩
  | append_singleton digits c ih =>
      obtain ⟨used, hused, hnext, heq⟩ := ih
      unfold accumulateFraction at heq ⊢
      rw [List.foldl_append, heq, List.foldl_cons, List.foldl_nil, List.length_append,
        List.length_singleton]
      rcases Nat.lt_or_eq_of_le hused with hlt | rfl
      · -- A digit did not fit before.
        refine ⟨used, by omega, fun _ => ?_, ?_⟩
        · rw [List.take_append_of_le_length hlt]
          exact hnext hlt
        · simp [hlt, List.take_append_of_le_length hused, Nat.lt_succ_of_lt hlt]
      · have hall : Nat.ofDigitChars 10 (digits ++ [c]) value =
            Nat.ofDigitChars 10 digits value * 10 + digitValue c := by
          rw [Nat.ofDigitChars_append, ofDigitChars_cons', Nat.ofDigitChars_nil]
        have htake : (digits ++ [c]).take (digits.length + 1) = digits ++ [c] :=
          List.take_of_length_le (by simp)
        by_cases hbeyond : maxWord64 < Nat.ofDigitChars 10 digits value * 10 + digitValue c
        · refine ⟨digits.length, by omega, fun _ => ?_, ?_⟩
          · rw [htake, hall]
            exact hbeyond
          · simp [hbeyond]
        · exact ⟨digits.length + 1, le_rfl, by simp, by simp [hbeyond, htake, hall]⟩

/-- Every digit of an exponent is gathered, unless the value leaves 32 bits. -/
theorem exponentValue_eq (digits : List Char) {value : Nat} (hvalue : value ≤ maxSigned32)
    (used : Nat) :
    (exponentValue value used digits).1 =
      if Nat.ofDigitChars 10 digits value ≤ maxSigned32 then
        some (Nat.ofDigitChars 10 digits value)
      else none := by
  induction digits generalizing value used with
  | nil => simp [exponentValue, hvalue]
  | cons c digits ih =>
      rw [ofDigitChars_cons']
      simp only [exponentValue]
      split
      · next hbeyond =>
        -- More digits do not bring the value back within the limit.
        have := le_ofDigitChars digits (value * 10 + digitValue c)
        rw [if_neg (by omega)]
      · next hfits => exact ih (Nat.le_of_not_lt hfits) _

end AgentGateway.Json
