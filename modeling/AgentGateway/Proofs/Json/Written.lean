import AgentGateway.Json.Printer
import AgentGateway.Proofs.Binary64.Shortest
import AgentGateway.Proofs.Json.Digits
import AgentGateway.Proofs.Json.Numerals

/-!
# What a number is written as

Every number that has a text is written as a numeral, behind a minus if it is negative
(`Number.chars_eq`), and the numeral is one of the format (`Number.numeral_sound`).
-/

namespace AgentGateway.Json

open Binary64

/-! ## Digits of a number -/

theorem isDigit_of_mem_toDigits {n : Nat} {c : Char} (h : c ∈ Nat.toDigits 10 n) :
    isDigit c = true := Nat.isDigit_of_mem_toDigits (by decide) (by decide) h

theorem eq_zero_of_head_toDigits {n : Nat} (h : (Nat.toDigits 10 n).head? = some '0') : n = 0 := by
  induction n using Nat.strongRecOn with
  | ind n ih =>
      rcases Nat.lt_or_ge n 10 with hlt | hge
      · rw [Nat.toDigits_of_lt_base hlt] at h
        exact Nat.digitChar_eq_zero.mp (Option.some.inj h)
      · rw [Nat.toDigits_of_base_le (by decide) hge,
          List.head?_append_of_ne_nil _ Nat.toDigits_ne_nil] at h
        have := ih (n / 10) (by omega) h
        omega

theorem lead_toDigits {n : Nat} (h : (Nat.toDigits 10 n).head? = some '0') :
    Nat.toDigits 10 n = ['0'] := by
  rw [eq_zero_of_head_toDigits h]
  rfl

/-! ## The numeral of a number -/

def positionalNumeral (digits : List Char) (point : Int) : Numeral :=
  if point ≤ 0 then ⟨['0'], List.replicate (-point).toNat '0' ++ digits, none⟩
  else if digits.length ≤ point then
    ⟨digits ++ List.replicate (point - digits.length).toNat '0', ['0'], none⟩
  else ⟨digits.take point.toNat, digits.drop point.toNat, none⟩

def scientificNumeral (digits : List Char) (point : Int) : Numeral :=
  ⟨digits.take 1, digits.drop 1, some (decide (point ≤ 0), Nat.toDigits 10 (point - 1).natAbs)⟩

def realDigits (m : Nat) (e : Int) : List Char := Nat.toDigits 10 (shortest m e).digits

def realPoint (m : Nat) (e : Int) : Int := (realDigits m e).length + (shortest m e).exponent

def realNumeral (m : Nat) (e : Int) : Numeral :=
  if m = 0 then ⟨['0'], ['0'], none⟩
  else if -5 < realPoint m e ∧ realPoint m e ≤ 16 then
    positionalNumeral (realDigits m e) (realPoint m e)
  else scientificNumeral (realDigits m e) (realPoint m e)

theorem positional_toList {digits : List Char} (hne : digits ≠ []) (point : Int) :
    (positional digits point).toList = (positionalNumeral digits point).chars := by
  unfold positional positionalNumeral
  simp only
  split_ifs with hzero hcount
  · simp [Numeral.chars, Numeral.fractionChars, Numeral.exponentChars, hne]
  · simp [Numeral.chars, Numeral.fractionChars, Numeral.exponentChars]
  · have hdrop : ¬ digits.length ≤ point.toNat := by omega
    simp [Numeral.chars, Numeral.fractionChars, Numeral.exponentChars, hdrop]

theorem toList_toString (n : Int) :
    (toString n).toList = (if n < 0 then ['-'] else []) ++ Nat.toDigits 10 n.natAbs := by
  cases n with
  | ofNat n =>
      change (toString n).toList = _
      rw [Nat.toString_eq_ofList_toDigits, String.toList_ofList, if_neg (by simp)]
      rfl
  | negSucc n =>
      change ("-" ++ toString (n + 1)).toList = _
      simp

theorem scientific_toList {digits : List Char} (hne : digits ≠ []) (point : Int) :
    (scientific digits point).toList = (scientificNumeral digits point).chars := by
  have hsign : ((if 0 < point then "+" else "") ++ toString (point - 1)).toList =
      (if point ≤ 0 then '-' else '+') :: Nat.toDigits 10 (point - 1).natAbs := by
    rw [String.toList_append, toList_toString]
    by_cases hpoint : point ≤ 0
    · rw [if_neg (by omega), if_pos (by omega), if_pos hpoint]
      rfl
    · rw [if_pos (by omega), if_neg (by omega), if_neg hpoint]
      rfl
  unfold scientific scientificNumeral Numeral.chars
  rw [String.append_assoc, String.toList_append, hsign]
  obtain ⟨d, more, rfl⟩ := List.exists_cons_of_ne_nil hne
  cases more with
  | nil => simp [Numeral.fractionChars, Numeral.exponentChars]
  | cons d' more => simp [Numeral.fractionChars, Numeral.exponentChars]

theorem format_toList (negative : Bool) (m : Nat) (e : Int) :
    (finite negative m e).format.toList =
      (if negative then ['-'] else []) ++ (realNumeral m e).chars := by
  have hsign : (if negative then "-" else "").toList = if negative then ['-'] else [] := by
    cases negative <;> rfl
  change (_ ++ if m = 0 then "0.0"
    else if -5 < realPoint m e ∧ realPoint m e ≤ 16 then
      positional (realDigits m e) (realPoint m e)
    else scientific (realDigits m e) (realPoint m e)).toList = _
  rw [String.toList_append, hsign, realNumeral]
  congr 1
  split_ifs with hzero hmoderate
  · rfl
  · exact positional_toList Nat.toDigits_ne_nil _
  · exact scientific_toList Nat.toDigits_ne_nil _

/-! ## The numeral is one of the format -/

theorem exponentSound_none : Numeral.ExponentSound none := by simp [Numeral.ExponentSound]

theorem zeroNumeral_sound : (⟨['0'], ['0'], none⟩ : Numeral).Sound :=
  ⟨by simp, by simp [isDigit], fun _ => rfl, by simp [isDigit], exponentSound_none⟩

theorem positionalNumeral_sound {digits : List Char} {point : Int} (hne : digits ≠ [])
    (hdigits : ∀ c ∈ digits, isDigit c = true) (hlead : digits.head? = some '0' → digits = ['0'])
    (hpoint : digits = ['0'] → point ≤ 1) : (positionalNumeral digits point).Sound := by
  have hzeros : ∀ count, ∀ c ∈ List.replicate count '0', isDigit c = true := by
    intro count c hc
    rw [List.eq_of_mem_replicate hc]
    rfl
  unfold positionalNumeral
  split_ifs with hzero hcount
  · refine ⟨by simp, by simp [isDigit], fun _ => rfl, ?_, exponentSound_none⟩
    exact List.forall_mem_append.mpr ⟨hzeros _, hdigits⟩
  · refine ⟨by simp [hne], List.forall_mem_append.mpr ⟨hdigits, hzeros _⟩, ?_,
      by simp [isDigit], exponentSound_none⟩
    intro hhead
    rw [List.head?_append_of_ne_nil _ hne] at hhead
    -- A lone zero gets no more zeros behind it.
    have hsingle := hlead hhead
    have := hpoint hsingle
    rw [hsingle, List.length_singleton, show (point - (1 : Nat)).toNat = 0 by omega]
    rfl
  · have hpos : point.toNat ≠ 0 := by omega
    refine ⟨by simp [hne, hpos], fun c hc => hdigits c (List.mem_of_mem_take hc), ?_,
      fun c hc => hdigits c (List.mem_of_mem_drop hc), exponentSound_none⟩
    intro hhead
    rw [List.head?_take, if_neg hpos] at hhead
    rw [hlead hhead, List.length_singleton] at hcount
    omega

theorem scientificNumeral_sound {digits : List Char} (hne : digits ≠ [])
    (hdigits : ∀ c ∈ digits, isDigit c = true) (point : Int) :
    (scientificNumeral digits point).Sound := by
  refine ⟨by simp [scientificNumeral, hne], fun c hc => hdigits c (List.mem_of_mem_take hc), ?_,
    fun c hc => hdigits c (List.mem_of_mem_drop hc), ?_⟩
  · obtain ⟨d, more, rfl⟩ := List.exists_cons_of_ne_nil hne
    simp [scientificNumeral]
  · rintro e he
    obtain rfl := Option.some.inj he
    exact ⟨Nat.toDigits_ne_nil, fun c hc => isDigit_of_mem_toDigits hc⟩

theorem realNumeral_sound (m : Nat) (e : Int) : (realNumeral m e).Sound := by
  unfold realNumeral
  split_ifs with hzero hmoderate
  · exact zeroNumeral_sound
  · refine positionalNumeral_sound Nat.toDigits_ne_nil (fun c hc => isDigit_of_mem_toDigits hc)
      lead_toDigits ?_
    intro hdigits
    have hnone : (shortest m e).digits = 0 :=
      eq_zero_of_head_toDigits (by rw [← realDigits, hdigits]; rfl)
    rw [realPoint, hdigits, (shortest_fits hzero e).plain hnone]
    simp
  · exact scientificNumeral_sound Nat.toDigits_ne_nil (fun c hc => isDigit_of_mem_toDigits hc) _

/-! ## All numbers -/

namespace Number

/-- A number that the wire format can carry. -/
def Valid : Number → Prop
  | integer n => -(maxSigned64 + 1 : Int) ≤ n ∧ n ≤ maxWord64
  | real x => x.isFinite = true ∧ x.IsNormal

def negative : Number → Bool
  | integer n => decide (n < 0)
  | real x => x.isNegative

def numeral : Number → Numeral
  | integer n => ⟨Nat.toDigits 10 n.natAbs, [], none⟩
  | real (finite _ m e) => realNumeral m e
  | real _ => ⟨['0'], ['0'], none⟩

theorem chars_eq {n : Number} (hn : n.Valid) :
    n.chars = (if n.negative then ['-'] else []) ++ n.numeral.chars := by
  cases n with
  | integer n =>
      simp only [chars, toList_toString, negative, numeral, decide_eq_true_eq]
      simp [Numeral.chars, Numeral.fractionChars, Numeral.exponentChars]
  | real x =>
      cases x with
      | nan => simp [Valid, isFinite] at hn
      | infinite s => simp [Valid, isFinite] at hn
      | finite s m e => exact format_toList s m e

theorem numeral_sound (n : Number) : n.numeral.Sound := by
  cases n with
  | integer n =>
      exact ⟨Nat.toDigits_ne_nil, fun c hc => isDigit_of_mem_toDigits hc, lead_toDigits,
        by simp [numeral], exponentSound_none⟩
  | real x =>
      cases x with
      | nan => exact zeroNumeral_sound
      | infinite s => exact zeroNumeral_sound
      | finite s m e => exact realNumeral_sound m e

end Number

theorem Numeral.Sound.space_le {n : Numeral} (h : n.Sound) {c : Char} (hc : c ∈ n.chars) :
    0x20 ≤ c.toNat := by
  have hdigit : ∀ {c}, isDigit c = true → 0x20 ≤ c.toNat := fun hc =>
    Nat.le_trans (by decide) (toNat_of_isDigit hc).1
  rw [chars, List.mem_append, List.mem_append] at hc
  obtain hwhole | hfraction | hexponent := hc
  · exact hdigit (h.whole c hwhole)
  · unfold fractionChars at hfraction
    split_ifs at hfraction
    · cases hfraction
    · obtain rfl | hc := List.mem_cons.mp hfraction
      · decide
      · exact hdigit (h.fraction c hc)
  · cases hsome : n.exponent with
    | none =>
        rw [hsome] at hexponent
        cases hexponent
    | some e =>
        rw [hsome, exponentChars, List.mem_cons, List.mem_cons] at hexponent
        obtain rfl | rfl | hc := hexponent
        · decide
        · split <;> decide
        · exact hdigit ((h.exponent e hsome).2 c hc)

theorem Number.space_le_of_mem_chars {n : Number} (hn : n.Valid) {c : Char} (hc : c ∈ n.chars) :
    0x20 ≤ c.toNat := by
  rw [Number.chars_eq hn, List.mem_append] at hc
  obtain hsign | hnumeral := hc
  · split at hsign
    · rw [List.mem_singleton.mp hsign]
      decide
    · cases hsign
  · exact n.numeral_sound.space_le hnumeral

end AgentGateway.Json
