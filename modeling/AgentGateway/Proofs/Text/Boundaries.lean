import AgentGateway.Proofs.Text.RoundTrip

/-!
# Where characters begin

A text may be cut, by the look of its bytes, at its ends and before every byte that does not go on
with a character. The first byte of a character never goes on with one and all its others do
(`Utf8.exists_encodeChar`), so these places are exactly those between the characters
(`Utf8.isBoundary_encode`). A search for such a place (`Utf8.Reaches`) therefore comes to one.
-/

namespace AgentGateway.Text.Utf8

/-- Whether a byte goes on with a character that an earlier one begins. -/
def goesOn (b : UInt8) : Bool := 0x80 ≤ b.toNat && b.toNat < 0xC0

/-- Whether a text may be cut at a place among its bytes. -/
def isBoundary (bytes : List UInt8) (place : Nat) : Bool :=
  match bytes[place]? with
  | some b => place == 0 || !goesOn b
  | none => place == bytes.length

/-- The search for a boundary from a place on, byte by byte, ends at a place. -/
structure Reaches (bytes : List UInt8) (start place : Nat) : Prop where
  start_le : start ≤ place
  le_length : place ≤ bytes.length
  boundary : isBoundary bytes place = true
  skipped : ∀ i, start ≤ i → i < place → isBoundary bytes i = false

theorem utf8Size_eq (c : Char) :
    c.utf8Size = if c.toNat < 0x80 then 1 else if c.toNat < 0x800 then 2
      else if c.toNat < 0x10000 then 3 else 4 := by
  simp only [Char.utf8Size, UInt32.le_iff_toNat_le, Char.toNat]
  split_ifs <;> simp_all <;> omega

theorem goesOn_lead {n : Nat} (h : n < 0x80 ∨ 0xC0 ≤ n) (hn : n < 256) :
    goesOn n.toUInt8 = false := by
  simp only [goesOn, toNat_toUInt8 hn, Bool.and_eq_false_imp, decide_eq_true_eq,
    decide_eq_false_iff_not]
  omega

theorem goesOn_next (n : Nat) : goesOn (0x80 + n % 64).toUInt8 = true := by
  simp only [goesOn, toNat_toUInt8 (n := 0x80 + n % 64) (by omega), Bool.and_eq_true,
    decide_eq_true_eq]
  omega

/-- A character is written with one byte that begins it and some that go on with it. -/
theorem exists_encodeChar (c : Char) :
    ∃ b rest, encodeChar c = b :: rest ∧ goesOn b = false ∧ (∀ x ∈ rest, goesOn x = true) ∧
      rest.length + 1 = c.utf8Size := by
  have hmax : c.toNat < 0x110000 := by
    have hvalid : c.toNat.isValidChar := c.valid
    unfold Nat.isValidChar at hvalid
    omega
  have hnone : ∀ x ∈ ([] : List UInt8), goesOn x = true := List.forall_mem_nil _
  simp only [encodeChar, utf8Size_eq]
  split_ifs with hone htwo hthree
  · exact ⟨_, _, rfl, goesOn_lead (by omega) (by omega), hnone, rfl⟩
  · refine ⟨_, _, rfl, goesOn_lead (by omega) (by omega), ?_, rfl⟩
    exact List.forall_mem_cons.mpr ⟨goesOn_next _, hnone⟩
  · refine ⟨_, _, rfl, goesOn_lead (by omega) (by omega), ?_, rfl⟩
    exact List.forall_mem_cons.mpr ⟨goesOn_next _,
      List.forall_mem_cons.mpr ⟨goesOn_next _, hnone⟩⟩
  · refine ⟨_, _, rfl, goesOn_lead (by omega) (by omega), ?_, rfl⟩
    exact List.forall_mem_cons.mpr ⟨goesOn_next _, List.forall_mem_cons.mpr ⟨goesOn_next _,
      List.forall_mem_cons.mpr ⟨goesOn_next _, hnone⟩⟩⟩

theorem length_encodeChar (c : Char) : (encodeChar c).length = c.utf8Size := by
  obtain ⟨b, rest, heq, -, -, hlength⟩ := exists_encodeChar c
  rw [heq, List.length_cons, hlength]

theorem encode_cons (c : Char) (chars : List Char) :
    encode (c :: chars) = encodeChar c ++ encode chars := rfl

theorem length_encode_cons (c : Char) (chars : List Char) :
    (encode (c :: chars)).length = c.utf8Size + (encode chars).length := by
  rw [encode_cons, List.length_append, length_encodeChar]

theorem width_eq (chars : List Char) : width chars = (encode chars).length := by
  have hfold (n : Nat) : chars.foldl (fun n c => n + c.utf8Size) n = n + (encode chars).length := by
    induction chars generalizing n with
    | nil => rfl
    | cons c chars ih => rw [List.foldl_cons, ih, length_encode_cons, Nat.add_assoc]
  rw [width, hfold, Nat.zero_add]

theorem length_encode_le_of_suffix {s t : List Char} (h : s <:+ t) :
    (encode s).length ≤ (encode t).length := by
  obtain ⟨front, rfl⟩ := h
  rw [encode_append, List.length_append]
  exact Nat.le_add_left _ _

theorem isBoundary_zero (bytes : List UInt8) : isBoundary bytes 0 = true := by
  cases bytes <;> rfl

theorem isBoundary_inside {c : Char} {place : Nat} (hpos : 0 < place) (hlt : place < c.utf8Size)
    (chars : List Char) : isBoundary (encode (c :: chars)) place = false := by
  obtain ⟨b, rest, heq, -, hrest, hlength⟩ := exists_encodeChar c
  obtain ⟨i, rfl⟩ : ∃ i, place = i + 1 := ⟨place - 1, by omega⟩
  have hi : i < rest.length := by omega
  have hbyte : (encode (c :: chars))[i + 1]? = some rest[i] := by
    rw [encode_cons, heq, List.cons_append, List.getElem?_cons_succ,
      List.getElem?_append_left hi, List.getElem?_eq_getElem hi]
  simp [isBoundary, hbyte, hrest _ (List.getElem_mem hi)]

/-- Behind its first character a text may be cut where the rest may be. -/
theorem isBoundary_behind (c : Char) (chars : List Char) (place : Nat) :
    isBoundary (encode (c :: chars)) (c.utf8Size + place) = isBoundary (encode chars) place := by
  have hpos : 0 < c.utf8Size := Char.utf8Size_pos c
  have hbyte : (encode (c :: chars))[c.utf8Size + place]? = (encode chars)[place]? := by
    rw [encode_cons, ← length_encodeChar, List.getElem?_append_right (Nat.le_add_right _ _),
      Nat.add_sub_cancel_left]
  unfold isBoundary
  rw [hbyte, length_encode_cons]
  cases hnext : (encode chars)[place]? with
  | none => simp
  | some b =>
      -- only at the front of the rest does the byte not decide, and there it begins a character
      cases place with
      | succ place => simp
      | zero =>
          cases chars with
          | nil => cases hnext
          | cons d chars =>
              obtain ⟨e, rest, heq, hlead, -⟩ := exists_encodeChar d
              rw [encode_cons, heq, List.cons_append, List.getElem?_cons_zero] at hnext
              obtain rfl := Option.some.inj hnext
              simp [hlead]

theorem isBoundary_encode {chars : List Char} {place : Nat} :
    isBoundary (encode chars) place = true ↔
      ∃ front back, chars = front ++ back ∧ (encode front).length = place := by
  induction chars generalizing place with
  | nil =>
      constructor
      · intro h
        have hend : place = 0 := by simpa [isBoundary, encode] using h
        exact ⟨[], [], rfl, hend.symm⟩
      · rintro ⟨front, back, hsplit, rfl⟩
        rw [(List.append_eq_nil_iff.mp hsplit.symm).1]
        exact isBoundary_zero _
  | cons c chars ih =>
      constructor
      · intro h
        by_cases hzero : place = 0
        · exact ⟨[], c :: chars, rfl, hzero.symm⟩
        by_cases hlt : place < c.utf8Size
        · rw [isBoundary_inside (Nat.pos_of_ne_zero hzero) hlt] at h
          cases h
        · obtain ⟨i, rfl⟩ := Nat.exists_eq_add_of_le (Nat.le_of_not_lt hlt)
          rw [isBoundary_behind, ih] at h
          obtain ⟨front, back, rfl, rfl⟩ := h
          exact ⟨c :: front, back, rfl, length_encode_cons c front⟩
      · rintro ⟨front, back, hsplit, rfl⟩
        cases front with
        | nil => exact isBoundary_zero _
        | cons d front =>
            obtain ⟨rfl, rfl⟩ := List.cons.inj hsplit
            rw [length_encode_cons, isBoundary_behind, ih]
            exact ⟨front, back, rfl, rfl⟩

end AgentGateway.Text.Utf8
