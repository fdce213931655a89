import AgentGateway.Proofs.Text.Lossy

/-!
# Text is read as it was written

The bytes of a character lead the machine from the ground through the states inside the character
and back to the ground, where they give the character (`Utf8.emit_encodeChar`): the first byte
opens a state in which just the bytes that can follow it are within range. So lossy reading gives
back every text that was encoded, and replaces nothing. Lines that hold no newline come back from
a text in which each is ended by one.
-/

namespace AgentGateway.Text

namespace Utf8

theorem toNat_toUInt8 {n : Nat} (h : n < 256) : n.toUInt8.toNat = n :=
  UInt8.toNat_ofNat_of_lt h

theorem lead_two {n : Nat} (hmin : 0x80 ≤ n) (hmax : n < 0x800) :
    lead (0xC0 + n / 64) = some (.inside (n / 64) 1 0x80 0xBF, []) := by
  unfold lead
  rw [if_neg (by omega), if_neg (by omega), if_pos (by omega), Nat.add_sub_cancel_left]

/-- Of three bytes the second is within the range that the first sets, which leaves out what has a
shorter form and what is no character. -/
theorem lead_three {n : Nat} (hmin : 0x800 ≤ n) (hmax : n < 0x10000) (hvalid : n.isValidChar) :
    ∃ low high, lead (0xE0 + n / 4096) = some (.inside (n / 4096) 2 low high, []) ∧
      low ≤ 0x80 + n / 64 % 64 ∧ 0x80 + n / 64 % 64 ≤ high := by
  unfold lead
  rw [if_neg (by omega), if_neg (by omega), if_neg (by omega)]
  by_cases hleast : n / 4096 = 0
  · exact ⟨0xA0, 0xBF, by rw [if_pos (by omega), hleast], by omega, by omega⟩
  by_cases hbefore : n / 4096 = 0xD
  · -- The codes from `0xD800` on with this first byte are no characters.
    have hbelow : n < 0xD800 := by
      unfold Nat.isValidChar at hvalid
      omega
    exact ⟨0x80, 0x9F, by rw [if_neg (by omega), if_pos (by omega), hbefore], by omega, by omega⟩
  · refine ⟨0x80, 0xBF, ?_, by omega, by omega⟩
    rw [if_neg (by omega), if_neg (by omega), if_pos (by omega), Nat.add_sub_cancel_left]

theorem lead_four {n : Nat} (hmin : 0x10000 ≤ n) (hvalid : n.isValidChar) :
    ∃ low high, lead (0xF0 + n / 262144) = some (.inside (n / 262144) 3 low high, []) ∧
      low ≤ 0x80 + n / 4096 % 64 ∧ 0x80 + n / 4096 % 64 ≤ high := by
  have hmax : n < 0x110000 := by
    unfold Nat.isValidChar at hvalid
    omega
  unfold lead
  rw [if_neg (by omega), if_neg (by omega), if_neg (by omega), if_neg (by omega),
    if_neg (by omega), if_neg (by omega)]
  by_cases hleast : n / 262144 = 0
  · exact ⟨0x90, 0xBF, by rw [if_pos (by omega), hleast], by omega, by omega⟩
  by_cases hlast : n / 262144 = 4
  · refine ⟨0x80, 0x8F, ?_, by omega, by omega⟩
    rw [if_neg (by omega), if_neg (by omega), if_pos (by omega), hlast]
  · refine ⟨0x80, 0xBF, ?_, by omega, by omega⟩
    rw [if_neg (by omega), if_pos (by omega), Nat.add_sub_cancel_left]

theorem emit_lead {n : Nat} (hn : n < 256) {t : State} (h : lead n = some (t, []))
    (rest : List UInt8) : emit .ground (n.toUInt8 :: rest) = emit t rest := by
  simp [emit, step, toNat_toUInt8 hn, h]

/-- A byte within range that is not the last one adds its bits. -/
theorem emit_next {bits due low high m : Nat} (hlow : low ≤ 0x80 + m % 64)
    (hhigh : 0x80 + m % 64 ≤ high) (rest : List UInt8) :
    emit (.inside bits (due + 2) low high) ((0x80 + m % 64).toUInt8 :: rest) =
      emit (.inside (bits * 64 + m % 64) (due + 1) 0x80 0xBF) rest := by
  have hbyte : (0x80 + m % 64) % 256 = 0x80 + m % 64 := by omega
  have hbits : (0x80 + m % 64) % 64 = m % 64 := by omega
  simp [emit, step, hbyte, hlow, hhigh, hbits]

theorem emit_last (bits m : Nat) (rest : List UInt8) :
    emit (.inside bits 1 0x80 0xBF) ((0x80 + m % 64).toUInt8 :: rest) =
      Char.ofNat (bits * 64 + m % 64) :: emit .ground rest := by
  have hbyte : (0x80 + m % 64) % 256 = 0x80 + m % 64 := by omega
  have hbits : (0x80 + m % 64) % 64 = m % 64 := by omega
  have hhigh : 0x80 + m % 64 ≤ 0xBF := by omega
  simp [emit, step, hbyte, hhigh, hbits]

/-- The bytes of a character give the character, whatever follows. -/
theorem emit_encodeChar (c : Char) (rest : List UInt8) :
    emit .ground (encodeChar c ++ rest) = c :: emit .ground rest := by
  have hvalid : c.toNat.isValidChar := c.valid
  have hchar : ∀ n, n = c.toNat → Char.ofNat n = c := fun n hn => by rw [hn, Char.ofNat_toNat]
  simp only [encodeChar]
  split_ifs with hone htwo hthree
  · have hlead := lead_ascii hone
    simp [emit, step, toNat_toUInt8 (n := c.toNat) (by omega), hlead]
  · rw [List.cons_append, emit_lead (by omega) (lead_two (by omega) htwo), List.cons_append,
      emit_last, hchar _ (by omega), List.nil_append]
  · obtain ⟨low, high, hlead, hlow, hhigh⟩ := lead_three (by omega) hthree hvalid
    rw [List.cons_append, emit_lead (by omega) hlead, List.cons_append, emit_next hlow hhigh,
      List.cons_append, emit_last, hchar _ (by omega), List.nil_append]
  · obtain ⟨low, high, hlead, hlow, hhigh⟩ := lead_four (by omega) hvalid
    have hmax : c.toNat < 0x110000 := by
      unfold Nat.isValidChar at hvalid
      omega
    rw [List.cons_append, emit_lead (by omega) hlead, List.cons_append, emit_next hlow hhigh,
      List.cons_append, emit_next (by omega) (by omega), List.cons_append, emit_last,
      hchar _ (by omega), List.nil_append]

theorem decodeLossy_encode (chars : List Char) : decodeLossy (encode chars) = chars := by
  rw [decodeLossy_eq]
  induction chars with
  | nil => rfl
  | cons c chars ih =>
      have hcons : encode (c :: chars) = encodeChar c ++ encode chars := rfl
      rw [hcons, emit_encodeChar, ih]

theorem encode_append (front back : List Char) :
    encode (front ++ back) = encode front ++ encode back :=
  List.flatMap_append

theorem encode_eq_nil {chars : List Char} : encode chars = [] ↔ chars = [] := by
  rw [← decodeLossy_eq_nil, decodeLossy_encode]

theorem newline_not_mem_encode {chars : List Char} (h : '\n' ∉ chars) : 10 ∉ encode chars := by
  intro hmem
  obtain ⟨front, back, hsplit⟩ := List.append_of_mem hmem
  have hchars := decodeLossy_encode chars
  rw [hsplit, decodeLossy_newline] at hchars
  exact h (hchars ▸ by simp)

end Utf8

/-! ## Lines -/

/-- Lines with newlines between them. The last one may have a newline of its own. -/
def joined (written : List (List Char)) (terminated : Bool) : List Char :=
  ['\n'].intercalate written ++ if terminated then ['\n'] else []

/-- A line that is one however it stands in a text. -/
structure IsLine (line : List Char) : Prop where
  ne_nil : line ≠ []
  newline_not_mem : '\n' ∉ line
  dropReturn_eq : dropReturn line = line

theorem joined_singleton (line : List Char) (terminated : Bool) :
    joined [line] terminated = line ++ if terminated then ['\n'] else [] := by
  rw [joined, List.intercalate_singleton]

theorem joined_cons_cons (line line' : List Char) (written : List (List Char))
    (terminated : Bool) :
    joined (line :: line' :: written) terminated =
      line ++ '\n' :: joined (line' :: written) terminated := by
  simp [joined, List.intercalate_cons_cons]

theorem lines_newline {line : List Char} (h : '\n' ∉ line) (rest : List Char) :
    lines (line ++ '\n' :: rest) = dropReturn line :: lines rest := by
  have hne : rest.splitOn '\n' ≠ [] := List.splitOn_ne_nil '\n' rest
  simp only [lines, split_eq, ← List.splitOn_eq_splitOnP,
    List.splitOn_append_cons_self_of_not_mem h, List.dropLast_cons_of_ne_nil hne,
    List.getLast?_cons, List.getLast?_eq_some_getLast hne, Option.getD_some, List.map_cons]
  split <;> rfl

theorem lines_tail {line : List Char} (h : '\n' ∉ line) (hne : line ≠ []) :
    lines line = [line] := by
  simp [lines, split_eq, ← List.splitOn_eq_splitOnP, List.splitOn_eq_singleton h, hne]

theorem lines_joined {written : List (List Char)} (hne : written ≠ [])
    (h : ∀ line ∈ written, IsLine line) (terminated : Bool) :
    lines (joined written terminated) = written := by
  induction written with
  | nil => exact absurd rfl hne
  | cons line written ih =>
      obtain ⟨hline, hwritten⟩ := List.forall_mem_cons.mp h
      cases written with
      | nil =>
          rw [joined_singleton]
          cases terminated with
          | true =>
              rw [if_pos rfl, lines_newline hline.newline_not_mem, hline.dropReturn_eq]
              rfl
          | false =>
              rw [if_neg Bool.false_ne_true, List.append_nil]
              exact lines_tail hline.newline_not_mem hline.ne_nil
      | cons next written =>
          rw [joined_cons_cons, lines_newline hline.newline_not_mem, hline.dropReturn_eq,
            ih (List.cons_ne_nil _ _) hwritten]

end AgentGateway.Text
