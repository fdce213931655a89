import AgentGateway.Json.Printer
import AgentGateway.Json.Reader
import Mathlib.Tactic.SplitIfs

/-!
# Strings are read as they were written

Every character of a string is written so that reading its text gives the character back and goes
on behind it (`readString_escapeChar`), whatever follows; passing over a string does the same
without keeping the characters. What is written never holds a character below the space.
-/

namespace AgentGateway.Json

theorem ok_bind {ε α β : Type} (a : α) (next : α → Except ε β) : (.ok a >>= next) = next a := rfl

/-- What a reading comes to: it gives a value and leaves the rest of the text, or it is refused. -/
def Gives {α : Type} (r : Except Problem (α × Cursor)) (a : Option α) (rest : List Char) : Prop :=
  match a with
  | some a => ∃ offset, r = .ok (a, ⟨rest, offset⟩)
  | none => ∃ p, r = .error p

/-- One reading after another: the second goes on where the first has left off. -/
theorem Gives.bind {α β : Type} {r : Except Problem (α × Cursor)} {a : Option α}
    {rest rest' : List Char} {next : α × Cursor → Except Problem (β × Cursor)} {b : α → Option β}
    (h : Gives r a rest)
    (hnext : ∀ x, a = some x → ∀ offset, Gives (next (x, ⟨rest, offset⟩)) (b x) rest') :
    Gives (r >>= next) (a.bind b) rest' := by
  cases a with
  | none =>
      obtain ⟨p, rfl⟩ := h
      exact ⟨p, rfl⟩
  | some x =>
      obtain ⟨offset, rfl⟩ := h
      exact hnext x rfl offset

theorem hexQuad_of_lt :
    ∀ n < 0x20, hexQuad '0' '0' (hexDigit (n / 16)) (hexDigit (n % 16)) = some n := by
  decide

theorem not_surrogate_of_lt {n : Nat} (h : n < 0x20) :
    isTrailing n = false ∧ isLeading n = false := by
  simp only [isTrailing, isLeading, Bool.and_eq_false_iff, decide_eq_false_iff_not]
  omega

theorem readString_plain {c : Char} (hquote : c ≠ '"') (hslash : c ≠ '\\')
    (hspace : 0x20 ≤ c.toNat) (tail : List Char) (offset : Nat) (done : List Char) :
    readString (c :: tail) offset done = readString tail (offset + c.utf8Size) (c :: done) := by
  rw [readString.eq_def]
  simp [hquote, hslash, Nat.not_lt.mpr hspace]

theorem readString_escapeChar (c : Char) (tail : List Char) (offset : Nat) (done : List Char) :
    ∃ next, readString (escapeChar c ++ tail) offset done = readString tail next (c :: done) := by
  unfold escapeChar
  split_ifs with hquote hslash hspace hnewline hreturn htab hback hfeed
  · subst hquote
    exact ⟨offset + 2, by simp [readString, shortEscape]⟩
  · subst hslash
    exact ⟨offset + 2, by simp [readString, shortEscape]⟩
  · exact ⟨_, readString_plain hquote hslash hspace tail offset done⟩
  · subst hnewline
    exact ⟨offset + 2, by simp [readString, shortEscape]⟩
  · subst hreturn
    exact ⟨offset + 2, by simp [readString, shortEscape]⟩
  · subst htab
    exact ⟨offset + 2, by simp [readString, shortEscape]⟩
  · obtain rfl : c = Char.ofNat 8 := by rw [← hback, Char.ofNat_toNat]
    exact ⟨offset + 2, by simp [readString, shortEscape]⟩
  · obtain rfl : c = Char.ofNat 12 := by rw [← hfeed, Char.ofNat_toNat]
    exact ⟨offset + 2, by simp [readString, shortEscape]⟩
  · have hlt : c.toNat < 0x20 := Nat.lt_of_not_le hspace
    obtain ⟨htrailing, hleading⟩ := not_surrogate_of_lt hlt
    exact ⟨offset + 6, by simp [readString, hexQuad_of_lt c.toNat hlt, htrailing, hleading]⟩

theorem readString_flatMap (chars rest : List Char) (offset : Nat) (done : List Char) :
    Gives (readString (chars.flatMap escapeChar ++ '"' :: rest) offset done)
      (some (done.reverse ++ chars)) rest := by
  induction chars generalizing offset done with
  | nil => exact ⟨offset + 1, by simp [readString.eq_def]⟩
  | cons c chars ih =>
      obtain ⟨next, hnext⟩ :=
        readString_escapeChar c (chars.flatMap escapeChar ++ '"' :: rest) offset done
      rw [List.flatMap_cons, List.append_assoc, hnext]
      simpa using ih next (c :: done)

theorem skipString_plain {c : Char} (hquote : c ≠ '"') (hslash : c ≠ '\\')
    (hspace : 0x20 ≤ c.toNat) (tail : List Char) (offset : Nat) :
    skipString (c :: tail) offset = skipString tail (offset + c.utf8Size) := by
  rw [skipString.eq_def]
  simp [hquote, hslash, Nat.not_lt.mpr hspace]

theorem skipString_escapeChar (c : Char) (tail : List Char) (offset : Nat) :
    ∃ next, skipString (escapeChar c ++ tail) offset = skipString tail next := by
  unfold escapeChar
  split_ifs with hquote hslash hspace
  · exact ⟨offset + 2, by simp [skipString, shortEscape]⟩
  · exact ⟨offset + 2, by simp [skipString, shortEscape]⟩
  · exact ⟨_, skipString_plain hquote hslash hspace tail offset⟩
  · exact ⟨offset + 2, by simp [skipString, shortEscape]⟩
  · exact ⟨offset + 2, by simp [skipString, shortEscape]⟩
  · exact ⟨offset + 2, by simp [skipString, shortEscape]⟩
  · exact ⟨offset + 2, by simp [skipString, shortEscape]⟩
  · exact ⟨offset + 2, by simp [skipString, shortEscape]⟩
  · have hlt : c.toNat < 0x20 := Nat.lt_of_not_le hspace
    exact ⟨offset + 6, by simp [skipString, hexQuad_of_lt c.toNat hlt]⟩

theorem skipString_flatMap (chars rest : List Char) (offset : Nat) :
    ∃ next, skipString (chars.flatMap escapeChar ++ '"' :: rest) offset = .ok ⟨rest, next⟩ := by
  induction chars generalizing offset with
  | nil => exact ⟨offset + 1, by simp [skipString.eq_def]⟩
  | cons c chars ih =>
      obtain ⟨next, hnext⟩ :=
        skipString_escapeChar c (chars.flatMap escapeChar ++ '"' :: rest) offset
      rw [List.flatMap_cons, List.append_assoc, hnext]
      exact ih next

theorem space_le_of_mem_escapeChar {c d : Char} (h : d ∈ escapeChar c) : 0x20 ≤ d.toNat := by
  have hhex : ∀ n < 16, 0x20 ≤ (hexDigit n).toNat := by decide
  unfold escapeChar at h
  split_ifs at h with hquote hslash hspace
  all_goals simp only [List.mem_cons, List.not_mem_nil, or_false] at h
  case neg =>
    have hlt : c.toNat < 0x20 := Nat.lt_of_not_le hspace
    obtain rfl | rfl | rfl | rfl | rfl | rfl := h
    · decide
    · decide
    · decide
    · decide
    · exact hhex _ (by omega)
    · exact hhex _ (by omega)
  all_goals first
    | (obtain rfl | rfl := h <;> decide)
    | (rw [h]; exact hspace)

theorem space_le_of_mem_quote {s : String} {d : Char} (h : d ∈ quote s) : 0x20 ≤ d.toNat := by
  obtain rfl | h := List.mem_cons.mp h
  · decide
  · obtain h | h := List.mem_append.mp h
    · obtain ⟨c, -, hd⟩ := List.mem_flatMap.mp h
      exact space_le_of_mem_escapeChar hd
    · rw [List.mem_singleton.mp h]
      decide

end AgentGateway.Json
