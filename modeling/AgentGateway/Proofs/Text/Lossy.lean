import AgentGateway.Text.Lines
import AgentGateway.Text.Utf8
import Mathlib.Algebra.Group.Nat.Defs
import Mathlib.Data.List.Basic

/-!
# Lossy reading and the lines of a text

A byte below 128 always stands for its own character: what precedes it is finished, with a
replacement if need be, before it is read (`Utf8.decodeLossy_ascii`). No other bytes ever make up
such a character (`Utf8.not_mem_decodeLossy`). Reading bytes as text therefore commutes with
cutting them at newlines (`Utf8.splitOn_decodeLossy`).
-/

namespace AgentGateway.Text

theorem splitMarked_eq {α : Type} (isMark : α → Bool) (text part : List α)
    (done : List (List α)) :
    splitMarked isMark text part done =
      done.reverse ++ (text.splitOnP isMark).modifyHead (part.reverse ++ ·) := by
  induction text generalizing part done with
  | nil => simp [splitMarked, List.splitOnP_nil]
  | cons c rest ih =>
      rw [splitMarked, List.splitOnP_cons_eq_if_modifyHead]
      split
      next =>
        have hid : (rest.splitOnP isMark).modifyHead ([].reverse ++ ·) = rest.splitOnP isMark :=
          congrFun List.modifyHead_id _
        rw [ih, hid]
        simp
      next => simp [ih, List.modifyHead_modifyHead, Function.comp_def]

theorem split_eq {α : Type} (isMark : α → Bool) (text : List α) :
    split isMark text = text.splitOnP isMark := by
  rw [split, splitMarked_eq]
  exact congrFun List.modifyHead_id _

namespace Utf8

/-- Inside a character the next byte must not be below 128, and the character will not be. -/
def State.Sound : State → Prop
  | .ground => True
  | .inside bits due low high =>
    0x80 ≤ low ∧ high ≤ 0xBF ∧ 1 ≤ due ∧ 0x80 ≤ (bits * 64 + (low - 0x80)) * 64 ^ (due - 1)

/-- No byte below 128 stands for a character; a code that is no character's gives the one with the
code zero. -/
def Foreign (c : Char) : Prop := c.toNat = 0 ∨ 0x80 ≤ c.toNat

theorem toNat_ofNat {n : Nat} (h : n.isValidChar) : (Char.ofNat n).toNat = n := by
  rw [Char.ofNat, dif_pos h]
  rfl

theorem toNat_ofNat_ascii {n : Nat} (h : n < 0x80) : (Char.ofNat n).toNat = n :=
  toNat_ofNat (.inl (by omega))

theorem foreign_ofNat {n : Nat} (h : 0x80 ≤ n) : Foreign (Char.ofNat n) := by
  by_cases hvalid : n.isValidChar
  · exact .inr (by rwa [toNat_ofNat hvalid])
  · left
    rw [Char.ofNat, dif_neg hvalid]
    rfl

theorem lead_sound {b : Nat} {t : State} {out : List Char} (h : lead b = some (t, out)) :
    t.Sound := by
  unfold lead at h
  split_ifs at h <;> obtain ⟨rfl, rfl⟩ := Prod.mk.inj (Option.some.inj h) <;>
    simp only [State.Sound] <;> omega

theorem lead_ascii {b : Nat} (h : b < 0x80) : lead b = some (.ground, [Char.ofNat b]) :=
  if_pos h

theorem lead_foreign {b : Nat} {t : State} {out : List Char} (hb : 0x80 ≤ b)
    (h : lead b = some (t, out)) : out = [] ∧ t ≠ .ground := by
  unfold lead at h
  rw [if_neg (Nat.not_lt.mpr hb)] at h
  split_ifs at h <;> obtain ⟨rfl, rfl⟩ := Prod.mk.inj (Option.some.inj h) <;> simp

theorem foreign_replacement : Foreign (Char.ofNat 0xFFFD) := foreign_ofNat (by decide)

theorem value_step {bits due low n : Nat} (hlow : 0x80 ≤ low) (hn : low ≤ n) (hhigh : n ≤ 0xBF)
    (h : 0x80 ≤ (bits * 64 + (low - 0x80)) * 64 ^ (due - 1)) :
    0x80 ≤ (bits * 64 + n % 64) * 64 ^ (due - 1) :=
  Nat.le_trans h (Nat.mul_le_mul_right _ (by omega))

theorem step_sound {s : State} (hs : s.Sound) (b : UInt8) : (step s b).1.Sound := by
  cases s with
  | ground =>
      simp only [step]
      split
      next t out h => exact lead_sound h
      next => trivial
  | inside bits due low high =>
      obtain ⟨hlow, hhigh, hdue, hvalue⟩ := hs
      simp only [step]
      split
      next hrange =>
        split
        next => trivial
        next hmore =>
          have hnext := value_step hlow hrange.1 (Nat.le_trans hrange.2 hhigh) hvalue
          refine ⟨Nat.le_refl _, Nat.le_refl _, by omega, ?_⟩
          obtain ⟨k, rfl⟩ : ∃ k, due = k + 2 := ⟨due - 2, by omega⟩
          simpa [Nat.pow_succ, Nat.mul_assoc, Nat.mul_comm, Nat.mul_left_comm] using hnext
      next =>
        split
        next t out h => exact lead_sound h
        next => trivial

/-- A byte below 128 finishes what precedes it and stands for itself. -/
theorem step_ascii {s : State} (hs : s.Sound) {b : UInt8} (hb : b.toNat < 0x80) :
    (step s b).1 = .ground ∧ (step s b).2.1 = finish s ++ [Char.ofNat b.toNat] := by
  cases s with
  | ground => simp [step, lead_ascii hb, finish]
  | inside bits due low high =>
      have hout : ¬ (low ≤ b.toNat ∧ b.toNat ≤ high) := fun h => by
        have := hs.1
        omega
      simp [step, if_neg hout, lead_ascii hb, finish]

/-- Any other byte never completes a character that a byte below 128 stands for. -/
theorem step_foreign {s : State} (hs : s.Sound) {b : UInt8} (hb : 0x80 ≤ b.toNat) :
    ∀ c ∈ (step s b).2.1, Foreign c := by
  cases s with
  | ground =>
      simp only [step]
      split
      next t out h => simp [(lead_foreign hb h).1]
      next => simpa using foreign_replacement
  | inside bits due low high =>
      obtain ⟨hlow, hhigh, hdue, hvalue⟩ := hs
      simp only [step]
      split
      next hrange =>
        split
        next hlast =>
          have hnext := value_step hlow hrange.1 (Nat.le_trans hrange.2 hhigh) hvalue
          obtain rfl : due = 1 := by omega
          simpa using foreign_ofNat (by simpa using hnext)
        next => simp
      next =>
        split
        next t out h => simpa [(lead_foreign hb h).1] using foreign_replacement
        next => simpa using foreign_replacement

theorem step_progress (s : State) (b : UInt8) :
    (step s b).2.1 ≠ [] ∨ (step s b).1 ≠ .ground := by
  cases s with
  | ground =>
      by_cases hb : b.toNat < 0x80
      · simp [step, lead_ascii hb]
      · simp only [step]
        split
        next t out h => exact .inr (lead_foreign (Nat.le_of_not_lt hb) h).2
        next => simp
  | inside bits due low high =>
      simp only [step]
      split
      next => split <;> simp
      next => split <;> simp

def emit (s : State) : List UInt8 → List Char
  | [] => finish s
  | b :: rest => (step s b).2.1 ++ emit (step s b).1 rest

theorem chars_foldl_push (r : Reading) (bytes : List UInt8) :
    (bytes.foldl Reading.push r).chars = r.emitted.reverse ++ emit r.state bytes := by
  induction bytes generalizing r with
  | nil => rfl
  | cons b rest ih => simp [ih, Reading.push, emit]

theorem decodeLossy_eq (bytes : List UInt8) : decodeLossy bytes = emit .ground bytes := by
  rw [decodeLossy, run, chars_foldl_push]
  rfl

theorem emit_ascii {s : State} (hs : s.Sound) {b : UInt8} (hb : b.toNat < 0x80)
    (front back : List UInt8) :
    emit s (front ++ b :: back) = emit s front ++ Char.ofNat b.toNat :: emit .ground back := by
  induction front generalizing s with
  | nil =>
      obtain ⟨hstate, hout⟩ := step_ascii hs hb
      simp [emit, hstate, hout]
  | cons a front ih => simp [emit, ih (step_sound hs a)]

/-- A byte below 128 stands for its own character, whatever is around it. -/
theorem decodeLossy_ascii {b : UInt8} (hb : b.toNat < 0x80) (front back : List UInt8) :
    decodeLossy (front ++ b :: back) =
      decodeLossy front ++ Char.ofNat b.toNat :: decodeLossy back := by
  simp only [decodeLossy_eq, emit_ascii (s := .ground) trivial hb]

theorem ofNat_not_foreign {b : UInt8} (hpos : 0 < b.toNat) (hb : b.toNat < 0x80) :
    ¬ Foreign (Char.ofNat b.toNat) := by
  rw [Foreign, toNat_ofNat_ascii hb]
  omega

theorem not_mem_emit {s : State} (hs : s.Sound) {b : UInt8} (hpos : 0 < b.toNat)
    (hb : b.toNat < 0x80) {bytes : List UInt8} (hmem : b ∉ bytes) :
    Char.ofNat b.toNat ∉ emit s bytes := by
  have hfinish : ∀ s : State, Char.ofNat b.toNat ∉ finish s := fun s => by
    cases s with
    | ground => simp [finish]
    | inside =>
        intro h
        rw [finish, List.mem_singleton] at h
        exact ofNat_not_foreign hpos hb (h ▸ foreign_replacement)
  induction bytes generalizing s with
  | nil => exact hfinish s
  | cons a rest ih =>
      obtain ⟨hne, hrest⟩ := not_or.mp (mt List.mem_cons.mpr hmem)
      rw [emit, List.mem_append, not_or]
      refine ⟨fun hout => ?_, ih (step_sound hs a) hrest⟩
      by_cases ha : a.toNat < 0x80
      · rw [(step_ascii hs ha).2, List.mem_append, List.mem_singleton] at hout
        obtain hout | hout := hout
        · exact hfinish s hout
        · have heq := congrArg Char.toNat hout
          rw [toNat_ofNat_ascii hb, toNat_ofNat_ascii ha] at heq
          exact hne (UInt8.toNat_inj.mp heq)
      · exact ofNat_not_foreign hpos hb (step_foreign hs (Nat.le_of_not_lt ha) _ hout)

/-- A character that a byte below 128 stands for comes from that byte only. -/
theorem not_mem_decodeLossy {b : UInt8} (hpos : 0 < b.toNat) (hb : b.toNat < 0x80)
    {bytes : List UInt8} (hmem : b ∉ bytes) : Char.ofNat b.toNat ∉ decodeLossy bytes := by
  rw [decodeLossy_eq]
  exact not_mem_emit (s := .ground) trivial hpos hb hmem

theorem emit_ne_nil {s : State} {bytes : List UInt8} (h : s ≠ .ground ∨ bytes ≠ []) :
    emit s bytes ≠ [] := by
  induction bytes generalizing s with
  | nil =>
      cases s with
      | ground => simp at h
      | inside => simp [emit, finish]
  | cons b rest ih =>
      rw [emit, Ne, List.append_eq_nil_iff, not_and]
      intro hout
      exact ih (.inl ((step_progress s b).resolve_left (not_not_intro hout)))

@[simp] theorem decodeLossy_eq_nil {bytes : List UInt8} : decodeLossy bytes = [] ↔ bytes = [] := by
  rw [decodeLossy_eq]
  exact ⟨fun h => by_contra fun hne => emit_ne_nil (.inr hne) h, fun h => h ▸ rfl⟩

/-- Only a text whose last byte is below 128 ends in the character of that byte. -/
theorem getLast?_emit {s : State} (hs : s.Sound) {b : UInt8} (hpos : 0 < b.toNat)
    (hb : b.toNat < 0x80) {bytes : List UInt8}
    (h : (emit s bytes).getLast? = some (Char.ofNat b.toNat)) : bytes.getLast? = some b := by
  induction bytes generalizing s with
  | nil => exact absurd (List.mem_of_getLast? h) (not_mem_emit hs hpos hb (by simp))
  | cons a rest ih =>
      by_cases hrest : rest = []
      · subst hrest
        by_contra hne
        exact not_mem_emit hs hpos hb (fun hmem => hne (by simp [List.mem_singleton.mp hmem]))
          (List.mem_of_getLast? h)
      · rw [emit, List.getLast?_append_of_ne_nil _ (emit_ne_nil (.inr hrest))] at h
        rw [List.getLast?_cons_of_ne_nil hrest]
        exact ih (step_sound hs a) h

/-- Dropping a carriage return at the end commutes with reading. -/
theorem dropReturn_decodeLossy (bytes : List UInt8) :
    dropReturn (decodeLossy bytes) =
      decodeLossy (if bytes.getLast? = some 13 then bytes.dropLast else bytes) := by
  split
  next hlast =>
    obtain ⟨front, rfl⟩ := List.getLast?_eq_some_iff.mp hlast
    have hsplit : decodeLossy (front ++ [13]) = decodeLossy front ++ ['\r'] :=
      decodeLossy_ascii (by decide) front []
    simp [dropReturn, hsplit]
  next hlast =>
    refine if_neg fun h => hlast ?_
    rw [decodeLossy_eq] at h
    exact getLast?_emit (s := .ground) trivial (b := 13) (by decide) (by decide) h

theorem decodeLossy_newline (front back : List UInt8) :
    decodeLossy (front ++ 10 :: back) = decodeLossy front ++ '\n' :: decodeLossy back :=
  decodeLossy_ascii (by decide) front back

theorem newline_not_mem_decodeLossy {bytes : List UInt8} (h : 10 ∉ bytes) :
    '\n' ∉ decodeLossy bytes :=
  not_mem_decodeLossy (b := 10) (by decide) (by decide) h

/-- Reading bytes as text commutes with cutting them at newlines. -/
theorem splitOn_decodeLossy (bytes : List UInt8) :
    (decodeLossy bytes).splitOn '\n' = (bytes.splitOn 10).map decodeLossy := by
  induction hn : bytes.length using Nat.strongRecOn generalizing bytes with
  | ind n ih =>
      by_cases hmem : 10 ∈ bytes
      · obtain ⟨front, back, rfl, hfront⟩ := List.eq_append_cons_of_mem hmem
        have hlt : back.length < n := by
          rw [← hn, List.length_append, List.length_cons]
          omega
        rw [decodeLossy_newline, List.splitOn_append_cons_self_of_not_mem hfront,
          List.splitOn_append_cons_self_of_not_mem (newline_not_mem_decodeLossy hfront),
          ih back.length hlt back rfl, List.map_cons]
      · rw [List.splitOn_eq_singleton hmem,
          List.splitOn_eq_singleton (newline_not_mem_decodeLossy hmem), List.map_singleton]

end Utf8

end AgentGateway.Text
