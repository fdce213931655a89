import AgentGateway.Client.Basic
import AgentGateway.Proofs.Text.Boundaries

/-!
# What a message keeps of the error output

A message about an exit keeps the end of the error output, in whole characters, once the blanks at
both ends are gone (`Text.isTrimmed_trim`). It is the longest end that is within the limit
(`Client.suffix_tailWithin`), and everything else follows from that: a text within the limit is
kept whole, at most three bytes less than the limit are kept of any other, and the end begins where
a search for a boundary comes to that starts at the limit.
-/

namespace AgentGateway

namespace Text

/-- What stands in a text between the blanks at its two ends. -/
structure IsTrimmed (text middle : List Char) : Prop where
  split : ∃ front back, text = front ++ (middle ++ back) ∧ (∀ c ∈ front, isBlank c = true) ∧
    ∀ c ∈ back, isBlank c = true
  first : ∀ c ∈ middle.head?, isBlank c = false
  last : ∀ c ∈ middle.getLast?, isBlank c = false

theorem isBlank_of_mem_takeWhile {text : List Char} {c : Char} (h : c ∈ text.takeWhile isBlank) :
    isBlank c = true :=
  List.all_eq_true.mp List.all_takeWhile c h

theorem isBlank_of_head?_dropWhile {text : List Char} {c : Char}
    (h : (text.dropWhile isBlank).head? = some c) : isBlank c = false := by
  have hnot := List.head?_dropWhile_not isBlank text
  simpa [h] using hnot

theorem exists_trimEnd (text : List Char) :
    ∃ back, text = trimEnd text ++ back ∧ ∀ c ∈ back, isBlank c = true := by
  refine ⟨(text.reverse.takeWhile isBlank).reverse, ?_, fun c hc => ?_⟩
  · rw [trimEnd, ← List.reverse_append, List.takeWhile_append_dropWhile, List.reverse_reverse]
  · exact isBlank_of_mem_takeWhile (List.mem_reverse.mp hc)

theorem isTrimmed_trim (text : List Char) : IsTrimmed text (trim text) := by
  obtain ⟨back, hback, hblank⟩ := exists_trimEnd (text.dropWhile isBlank)
  constructor
  case split =>
    refine ⟨text.takeWhile isBlank, back, ?_, fun _ => isBlank_of_mem_takeWhile, hblank⟩
    rw [trim, ← hback, List.takeWhile_append_dropWhile]
  case first =>
    intro c hc
    have hhead : (text.dropWhile isBlank).head? = some c := by
      rw [hback, List.head?_append, ← trim, Option.mem_def.mp hc, Option.some_or]
    exact isBlank_of_head?_dropWhile hhead
  case last =>
    intro c hc
    rw [trim, trimEnd, List.getLast?_reverse] at hc
    exact isBlank_of_head?_dropWhile hc

end Text

namespace Client

open Text.Utf8 (encode isBoundary Reaches)

variable {limit : Nat} {s text : List Char}

theorem tailWithin_of_le {c : Char} (h : (encode (c :: text)).length ≤ limit) :
    tailWithin limit (c :: text) = c :: text := by
  rw [tailWithin, dropToWidth, Text.Utf8.width_eq, if_pos h]

theorem tailWithin_of_lt {c : Char} (h : limit < (encode (c :: text)).length) :
    tailWithin limit (c :: text) = tailWithin limit text := by
  rw [tailWithin, dropToWidth, Text.Utf8.width_eq, if_neg (Nat.not_le.mpr h),
    Text.Utf8.length_encode_cons, Nat.add_sub_cancel_left, tailWithin, Text.Utf8.width_eq]

theorem tailWithin_suffix (limit : Nat) (text : List Char) : tailWithin limit text <:+ text := by
  induction text with
  | nil => exact List.suffix_rfl
  | cons c text ih =>
      by_cases h : (encode (c :: text)).length ≤ limit
      · exact ⟨[], tailWithin_of_le h⟩
      · rw [tailWithin_of_lt (Nat.lt_of_not_le h)]
        exact ih.trans (List.suffix_cons c text)

theorem length_encode_tailWithin (limit : Nat) (text : List Char) :
    (encode (tailWithin limit text)).length ≤ limit := by
  induction text with
  | nil => exact Nat.zero_le _
  | cons c text ih =>
      by_cases h : (encode (c :: text)).length ≤ limit
      · rwa [tailWithin_of_le h]
      · rwa [tailWithin_of_lt (Nat.lt_of_not_le h)]

theorem suffix_tailWithin (hs : s <:+ text) (hle : (encode s).length ≤ limit) :
    s <:+ tailWithin limit text := by
  induction text with
  | nil => exact hs
  | cons c text ih =>
      by_cases h : (encode (c :: text)).length ≤ limit
      · rwa [tailWithin_of_le h]
      · rw [tailWithin_of_lt (Nat.lt_of_not_le h)]
        obtain rfl | hs := List.suffix_cons_iff.mp hs
        · exact absurd hle h
        · exact ih hs

/-- The end of a text that is kept. A text within the limit is kept whole, and of any other no more
is lost than a character reaches beyond the limit: the bytes from the limit on are searched for a
boundary, and the tail is what stands behind it. -/
structure IsTail (limit : Nat) (text tail : List Char) : Prop where
  suffix : tail <:+ text
  length_le : (encode tail).length ≤ limit
  longest : ∀ s, s <:+ text → (encode s).length ≤ limit → s <:+ tail
  whole : (encode text).length ≤ limit → tail = text
  full : limit < (encode text).length → limit ≤ (encode tail).length + 3
  found : ∃ place, Reaches (encode text) ((encode text).length - limit) place ∧
    (encode text).drop place = encode tail

theorem tailWithin_whole (h : (encode text).length ≤ limit) : tailWithin limit text = text :=
  (tailWithin_suffix limit text).eq_of_length_le
    (suffix_tailWithin List.suffix_rfl h).length_le

theorem tailWithin_full (h : limit < (encode text).length) :
    limit ≤ (encode (tailWithin limit text)).length + 3 := by
  obtain ⟨front, hsplit⟩ := tailWithin_suffix limit text
  have hne : front ≠ [] := by
    rintro rfl
    have hle := length_encode_tailWithin limit text
    rw [List.nil_append] at hsplit
    rw [hsplit] at hle
    omega
  obtain ⟨before, c, rfl⟩ : ∃ before c, front = before ++ [c] :=
    ⟨_, _, (List.dropLast_concat_getLast hne).symm⟩
  -- with the character in front of it the tail would be above the limit
  have habove : limit < (encode (c :: tailWithin limit text)).length := by
    by_contra hle
    have hsuffix : c :: tailWithin limit text <:+ text := ⟨before, by simpa using hsplit⟩
    have hlonger := suffix_tailWithin hsuffix (Nat.le_of_not_lt hle)
    exact absurd hlonger.length_le (by simp)
  rw [Text.Utf8.length_encode_cons] at habove
  have := c.utf8Size_le_four
  omega

theorem reaches_tailWithin (limit : Nat) (text : List Char) :
    ∃ place, Reaches (encode text) ((encode text).length - limit) place ∧
      (encode text).drop place = encode (tailWithin limit text) := by
  obtain ⟨front, hsplit⟩ := tailWithin_suffix limit text
  have hbytes : encode text = encode front ++ encode (tailWithin limit text) := by
    rw [← Text.Utf8.encode_append, hsplit]
  have hlength := congrArg List.length hbytes
  have hle := length_encode_tailWithin limit text
  rw [List.length_append] at hlength
  refine ⟨(encode front).length, ⟨by omega, by omega, ?_, fun i hi hlt => ?_⟩, ?_⟩
  · exact Text.Utf8.isBoundary_encode.mpr ⟨front, _, hsplit.symm, rfl⟩
  · -- an earlier boundary would begin a longer end within the limit
    by_contra hboundary
    obtain ⟨before, back, hcut, rfl⟩ :=
      Text.Utf8.isBoundary_encode.mp ((Bool.not_eq_false _).mp hboundary)
    have hparts := congrArg (List.length ∘ encode) hcut
    simp only [Function.comp, Text.Utf8.encode_append, List.length_append] at hparts
    have hwithin : (encode back).length ≤ limit := by omega
    have hlonger := Text.Utf8.length_encode_le_of_suffix
      (suffix_tailWithin ⟨before, hcut.symm⟩ hwithin)
    omega
  · rw [hbytes, List.drop_left]

theorem isTail_tailWithin (limit : Nat) (text : List Char) :
    IsTail limit text (tailWithin limit text) where
  suffix := tailWithin_suffix limit text
  length_le := length_encode_tailWithin limit text
  longest _ := suffix_tailWithin
  whole := tailWithin_whole
  full := tailWithin_full
  found := reaches_tailWithin limit text

/-- What is said of a captured execution that exited with a code other than zero: nothing of an
error output that is blank, and of any other the end, up to 512 bytes. -/
structure Reports (r : Execution.Result) (message : String) : Prop where
  trimmed : Text.IsTrimmed r.stderr (Text.trim r.stderr)
  blank : Text.trim r.stderr = [] → message = "agent exited with code " ++ toString r.exitCode
  tail : Text.trim r.stderr ≠ [] → ∃ tail, IsTail 512 (Text.trim r.stderr) tail ∧
    message = "agent exited with code " ++ toString r.exitCode ++ ": " ++ String.ofList tail

theorem exitFailure_of_blank {r : Execution.Result} (h : Text.trim r.stderr = []) :
    exitFailure r = exitText r.exitCode := by
  unfold exitFailure
  rw [h]

theorem exitFailure_of_text {r : Execution.Result} (h : Text.trim r.stderr ≠ []) :
    exitFailure r = exitText r.exitCode ++ ": " ++
      String.ofList (tailWithin stderrTailLimit (Text.trim r.stderr)) := by
  unfold exitFailure
  cases htrim : Text.trim r.stderr with
  | nil => exact absurd htrim h
  | cons c text => rfl

/-- The message about an exit names the code and keeps the longest end of the error output, in
whole characters, that is within the limit. -/
theorem exitFailure_reports (r : Execution.Result) : Reports r (exitFailure r) where
  trimmed := Text.isTrimmed_trim r.stderr
  blank := exitFailure_of_blank
  tail h := ⟨tailWithin stderrTailLimit (Text.trim r.stderr), isTail_tailWithin _ _,
    exitFailure_of_text h⟩

/-- Two characters of three bytes do not fit into five bytes, so one of them is kept. -/
example : tailWithin 5 ['a', '€', '€'] = ['€'] := by decide

end Client

end AgentGateway
