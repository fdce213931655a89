import AgentGateway.Proofs.Json.Strings

/-!
# Numbers are read as far as they were written

A number is written as a numeral: digits, perhaps a fraction, perhaps an exponent with its sign.
Reading a numeral takes all of it, provided that what follows could not be part of a number, and
what it gives can be said of the numeral alone (`Numeral.value?`). Passing over it takes the same
characters.
-/

namespace AgentGateway.Json

/-- What may follow a value: nothing, another item or member, or the end of the list or object. -/
def Ends (rest : List Char) : Prop := ∀ c ∈ rest.head?, c = ',' ∨ c = ']' ∨ c = '\x7d'

def Stops (rest : List Char) : Prop := ∀ c ∈ rest.head?, isDigit c = false

theorem Ends.stops {rest : List Char} (h : Ends rest) : Stops rest := by
  intro c hc
  obtain rfl | rfl | rfl := h c hc <;> decide

theorem stops_cons {c : Char} (h : isDigit c = false) (rest : List Char) : Stops (c :: rest) := by
  rintro d hd
  obtain rfl : c = d := by simpa using hd
  exact h

theorem Stops.any_head? {rest : List Char} (h : Stops rest) :
    rest.head?.any isDigit = false := by
  cases rest with
  | nil => rfl
  | cons c rest => simpa using h c rfl

theorem takeWhile_digits {digits rest : List Char} (hdigits : ∀ c ∈ digits, isDigit c = true)
    (hrest : Stops rest) : (digits ++ rest).takeWhile isDigit = digits := by
  rw [List.takeWhile_append_of_pos hdigits]
  cases rest with
  | nil => simp
  | cons c rest => simp [hrest c (by simp)]

/-- A number as it is written: its digits, those of its fraction, and whether its exponent is below
zero, with the digits of the exponent. -/
structure Numeral where
  whole : List Char
  fraction : List Char := []
  exponent : Option (Bool × List Char) := none

namespace Numeral

/-- An exponent is always written with a sign. -/
def exponentChars : Option (Bool × List Char) → List Char
  | none => []
  | some (down, digits) => 'e' :: (if down then '-' else '+') :: digits

def fractionChars (fraction : List Char) : List Char :=
  if fraction = [] then [] else '.' :: fraction

def chars (n : Numeral) : List Char :=
  n.whole ++ (fractionChars n.fraction ++ exponentChars n.exponent)

def ExponentSound (exponent : Option (Bool × List Char)) : Prop :=
  ∀ e ∈ exponent, e.2 ≠ [] ∧ ∀ c ∈ e.2, isDigit c = true

/-- The numeral is one of the format: there is no zero in front of other digits. -/
structure Sound (n : Numeral) : Prop where
  whole_ne_nil : n.whole ≠ []
  whole : ∀ c ∈ n.whole, isDigit c = true
  lead : n.whole.head? = some '0' → n.whole = ['0']
  fraction : ∀ c ∈ n.fraction, isDigit c = true
  exponent : ExponentSound n.exponent

/-- The floating point number of some digits and a power of ten, if it is in range. -/
def real? (negative : Bool) (value : Nat) (exponent : Int) : Option Number :=
  (assemble 4 (.ofNat value) exponent).map fun x => .real (if negative then x.neg else x)

/-- The same once a written exponent has been added. -/
def scaled? (negative : Bool) (value : Nat) (start : Int) :
    Option (Bool × List Char) → Option Number
  | none => real? negative value start
  | some (down, digits) =>
    match (exponentValue 0 0 digits).1 with
    | some e => real? negative value (clampExponent (if down then start - e else start + e))
    | none => if value ≠ 0 ∧ !down then none else some (.real (.zero negative))

/-- What a numeral is read as, if it is in range. -/
def value? (negative : Bool) (n : Numeral) : Option Number :=
  let (value, left) := accumulate n.whole
  if n.fraction = [] then
    if n.exponent = none ∧ left = 0 then some (integerOrReal negative value)
    else scaled? negative value left n.exponent
  else
    let (value, used, _) := accumulateFraction value n.fraction
    scaled? negative value (left - used) n.exponent

/-! ## Reading -/

theorem finishReal_gives (negative : Bool) (value : Nat) (exponent : Int) (rest : List Char)
    (offset : Nat) :
    Gives (finishReal negative value exponent ⟨rest, offset⟩) (real? negative value exponent)
      rest := by
  unfold finishReal real?
  cases assemble 4 (.ofNat value) exponent with
  | none => exact ⟨_, rfl⟩
  | some x => exact ⟨offset, rfl⟩

theorem exponentValue_used (digits : List Char) {value used e used' : Nat}
    (h : exponentValue value used digits = (some e, used')) : used' = used + digits.length := by
  induction digits generalizing value used with
  | nil =>
      simp only [exponentValue, Prod.mk.injEq] at h
      exact h.2.symm
  | cons c digits ih =>
      simp only [exponentValue] at h
      split at h
      · simp at h
      · have hrest := ih h
        simp only [List.length_cons]
        omega

theorem readExponentDigits_gives {digits rest : List Char} (hne : digits ≠ [])
    (hdigits : ∀ c ∈ digits, isDigit c = true) (hrest : Stops rest) (negative down : Bool)
    (value : Nat) (start : Int) (offset : Nat) :
    Gives (readExponentDigits negative value start down ⟨digits ++ rest, offset⟩)
      (scaled? negative value start (some (down, digits))) rest := by
  have htake := takeWhile_digits hdigits hrest
  have hdrop : (digits ++ rest).drop digits.length = rest := List.drop_left
  obtain ⟨d, ds, rfl⟩ := List.exists_cons_of_ne_nil hne
  have hd : isDigit d = true := hdigits d (by simp)
  rw [List.cons_append] at htake hdrop ⊢
  simp only [readExponentDigits, scaled?, hd, if_true, htake]
  cases hvalue : exponentValue 0 0 (d :: ds) with
  | mk e used =>
      cases e with
      | some e =>
          have hused := exponentValue_used _ hvalue
          rw [Nat.zero_add] at hused
          simp only [Cursor.drop, hused, hdrop]
          exact finishReal_gives negative value _ rest _
      | none =>
          simp only [Cursor.drop, hdrop]
          split
          · exact ⟨_, rfl⟩
          · exact ⟨_, rfl⟩

theorem readExponent_gives {digits rest : List Char} (hne : digits ≠ [])
    (hdigits : ∀ c ∈ digits, isDigit c = true) (hrest : Stops rest) (negative down : Bool)
    (value : Nat) (start : Int) (offset : Nat) :
    Gives (readExponent negative value start
        ⟨exponentChars (some (down, digits)) ++ rest, offset⟩)
      (scaled? negative value start (some (down, digits))) rest := by
  cases down with
  | false => exact readExponentDigits_gives hne hdigits hrest negative false value start _
  | true => exact readExponentDigits_gives hne hdigits hrest negative true value start _

/-- What comes behind the digits of a number is an exponent, or is no part of the number. -/
theorem exponent_gives {exponent : Option (Bool × List Char)} {rest : List Char}
    (hexponent : ExponentSound exponent) (hrest : Ends rest) (negative : Bool) (value : Nat)
    (start : Int) (offset : Nat) :
    Gives (match exponentChars exponent ++ rest with
        | 'e' :: _ | 'E' :: _ =>
          readExponent negative value start ⟨exponentChars exponent ++ rest, offset⟩
        | _ => finishReal negative value start ⟨exponentChars exponent ++ rest, offset⟩)
      (scaled? negative value start exponent) rest := by
  cases exponent with
  | some e =>
      obtain ⟨down, digits⟩ := e
      obtain ⟨hne, hdigits⟩ := hexponent _ rfl
      exact readExponent_gives hne hdigits hrest.stops negative down value start offset
  | none =>
      have hfinish := finishReal_gives negative value start rest offset
      cases rest with
      | nil => exact hfinish
      | cons c rest => obtain rfl | rfl | rfl := hrest c rfl <;> exact hfinish

theorem stops_exponentChars (exponent : Option (Bool × List Char)) {rest : List Char}
    (hrest : Ends rest) : Stops (exponentChars exponent ++ rest) := by
  cases exponent with
  | none => exact hrest.stops
  | some e => exact stops_cons (by decide) _

theorem stops_tail (n : Numeral) {rest : List Char} (hrest : Ends rest) :
    Stops (fractionChars n.fraction ++ (exponentChars n.exponent ++ rest)) := by
  unfold fractionChars
  split
  · exact stops_exponentChars n.exponent hrest
  · exact stops_cons (by decide) _

theorem readFraction_gives {fraction : List Char} (hne : fraction ≠ [])
    (hfraction : ∀ c ∈ fraction, isDigit c = true) {exponent : Option (Bool × List Char)}
    (hexponent : ExponentSound exponent) {rest : List Char} (hrest : Ends rest) (negative : Bool)
    (value start offset : Nat) :
    Gives (readFraction negative value start
        ⟨'.' :: (fraction ++ (exponentChars exponent ++ rest)), offset⟩)
      (scaled? negative (accumulateFraction value fraction).1
        (start - (accumulateFraction value fraction).2.1) exponent) rest := by
  have htake := takeWhile_digits hfraction (stops_exponentChars exponent hrest)
  have hempty : fraction.isEmpty = false := by simpa using hne
  simp only [readFraction, Cursor.advance, htake, hempty, Cursor.drop, List.drop_left]
  exact exponent_gives hexponent hrest negative _ _ _

/-- The digits before the point are all taken, and there is no zero too many among them. -/
theorem readNumber_whole {n : Numeral} (hn : n.Sound) {tail : List Char} (htail : Stops tail)
    (negative : Bool) (offset : Nat) :
    readNumber negative ⟨n.whole ++ tail, offset⟩ =
      readBehindWhole negative (accumulate n.whole).1 (accumulate n.whole).2
        ⟨tail, offset + n.whole.length⟩ := by
  obtain ⟨d, ds, hwhole⟩ := List.exists_cons_of_ne_nil hn.whole_ne_nil
  have hdigit : isDigit d = true := hn.whole d (by simp [hwhole])
  have hzero : d = '0' → ds = [] := by
    rintro rfl
    simpa [hwhole] using hn.lead (by simp [hwhole])
  -- Behind a zero comes no digit: the numeral has no more, and what follows it has none.
  have hlead : ¬ (d = '0' ∧ (ds ++ tail).head?.any isDigit) := by
    rintro ⟨hd, hnext⟩
    rw [hzero hd, List.nil_append, htail.any_head?] at hnext
    contradiction
  have hdigits : (if d = '0' then [d] else (d :: (ds ++ tail)).takeWhile isDigit) = d :: ds := by
    split
    · next hd => rw [hzero hd]
    · rw [← List.cons_append]
      exact takeWhile_digits (hwhole ▸ hn.whole) htail
  have hdrop : (d :: (ds ++ tail)).drop (d :: ds).length = tail := List.drop_left
  rw [hwhole, List.cons_append]
  simp only [readNumber, hlead, if_false, hdigit, if_true, hdigits, Cursor.drop, hdrop]

theorem readBehindWhole_fraction {fraction : List Char} (hne : fraction ≠ [])
    (tail : List Char) (negative : Bool) (value left offset : Nat) :
    readBehindWhole negative value left ⟨fractionChars fraction ++ tail, offset⟩ =
      readFraction negative value left ⟨'.' :: (fraction ++ tail), offset⟩ := by
  simp only [readBehindWhole, fractionChars, hne, if_false, List.cons_append]

theorem readBehindWhole_end {rest : List Char} (hrest : Ends rest) (negative : Bool)
    (value left offset : Nat) :
    readBehindWhole negative value left ⟨rest, offset⟩ =
      if left = 0 then .ok (integerOrReal negative value, ⟨rest, offset⟩)
      else finishReal negative value left ⟨rest, offset⟩ := by
  cases rest with
  | nil => rfl
  | cons c rest => obtain rfl | rfl | rfl := hrest c rfl <;> rfl

theorem readNumber_gives {n : Numeral} (hn : n.Sound) {rest : List Char} (hrest : Ends rest)
    (negative : Bool) (offset : Nat) :
    Gives (readNumber negative ⟨n.chars ++ rest, offset⟩) (n.value? negative) rest := by
  rw [chars, List.append_assoc, List.append_assoc, readNumber_whole hn (n.stops_tail hrest)]
  unfold value?
  by_cases hfraction : n.fraction = []
  · simp only [hfraction, fractionChars, if_true, List.nil_append]
    cases hexponent : n.exponent with
    | some e =>
        obtain ⟨down, digits⟩ := e
        obtain ⟨hne, hdigits⟩ := hn.exponent _ hexponent
        simp only [reduceCtorEq, false_and, if_false]
        exact readExponent_gives hne hdigits hrest.stops negative down _ _ _
    | none =>
        simp only [exponentChars, List.nil_append, readBehindWhole_end hrest, true_and]
        split
        · exact ⟨_, rfl⟩
        · exact finishReal_gives negative _ _ rest _
  · rw [readBehindWhole_fraction hfraction]
    simp only [hfraction, if_false]
    exact readFraction_gives hfraction hn.fraction hn.exponent hrest negative _ _ _

/-! ## Passing over -/

theorem skipDigits_append {digits rest : List Char} (hdigits : ∀ c ∈ digits, isDigit c = true)
    (hrest : Stops rest) (offset : Nat) :
    skipDigits ⟨digits ++ rest, offset⟩ = ⟨rest, offset + digits.length⟩ := by
  simp only [skipDigits, takeWhile_digits hdigits hrest, Cursor.drop, List.drop_left]

theorem skipExponent_chars {e : Bool × List Char} (he : ExponentSound (some e))
    {rest : List Char} (hrest : Stops rest) (offset : Nat) :
    ∃ next, skipExponent ⟨exponentChars (some e) ++ rest, offset⟩ = .ok ⟨rest, next⟩ := by
  obtain ⟨down, digits⟩ := e
  obtain ⟨hne, hdigits⟩ := he _ rfl
  have hskip := fun offset => skipDigits_append hdigits hrest offset
  obtain ⟨d, ds, rfl⟩ := List.exists_cons_of_ne_nil hne
  have hd : isDigit d = true := hdigits d (by simp)
  cases down with
  | false => exact ⟨_, by simpa [skipExponent, exponentChars, Cursor.advance, hd] using hskip _⟩
  | true => exact ⟨_, by simpa [skipExponent, exponentChars, Cursor.advance, hd] using hskip _⟩

theorem skipNumber_whole {n : Numeral} (hn : n.Sound) {tail : List Char} (htail : Stops tail)
    (offset : Nat) :
    ∃ next, skipNumber ⟨n.whole ++ tail, offset⟩ = skipBehindWhole ⟨tail, next⟩ := by
  obtain ⟨d, ds, hwhole⟩ := List.exists_cons_of_ne_nil hn.whole_ne_nil
  have hdigit : isDigit d = true := hn.whole d (by simp [hwhole])
  by_cases hd : d = '0'
  · have hds : ds = [] := by
      subst hd
      simpa [hwhole] using hn.lead (by simp [hwhole])
    exact ⟨_, by simp [hwhole, hds, hd, skipNumber, htail.any_head?, Cursor.advance]; rfl⟩
  · have hskip := skipDigits_append hn.whole htail offset
    rw [hwhole] at hskip ⊢
    exact ⟨_, by rw [← hskip]; simp [skipNumber, hd, hdigit]⟩

theorem skipBehindWhole_exponent {exponent : Option (Bool × List Char)}
    (hexponent : ExponentSound exponent) {rest : List Char} (hrest : Ends rest) (offset : Nat) :
    ∃ next, skipBehindWhole ⟨exponentChars exponent ++ rest, offset⟩ = .ok ⟨rest, next⟩ := by
  cases exponent with
  | some e => exact skipExponent_chars hexponent hrest.stops offset
  | none =>
      cases rest with
      | nil => exact ⟨offset, rfl⟩
      | cons c rest => obtain rfl | rfl | rfl := hrest c rfl <;> exact ⟨offset, rfl⟩

theorem skipBehindWhole_fraction {fraction : List Char} (hne : fraction ≠ [])
    (hfraction : ∀ c ∈ fraction, isDigit c = true) {exponent : Option (Bool × List Char)}
    (hexponent : ExponentSound exponent) {rest : List Char} (hrest : Ends rest) (offset : Nat) :
    ∃ next, skipBehindWhole ⟨fractionChars fraction ++ (exponentChars exponent ++ rest), offset⟩ =
      .ok ⟨rest, next⟩ := by
  have hskip := fun offset =>
    skipDigits_append hfraction (stops_exponentChars exponent hrest) offset
  have hhead : (fraction ++ (exponentChars exponent ++ rest)).head?.any isDigit = true := by
    obtain ⟨d, ds, rfl⟩ := List.exists_cons_of_ne_nil hne
    simpa using hfraction d (by simp)
  simp only [skipBehindWhole, fractionChars, hne, if_false, List.cons_append, Cursor.advance,
    hhead, if_true, hskip]
  cases exponent with
  | some e => exact skipExponent_chars hexponent hrest.stops _
  | none =>
      cases rest with
      | nil => exact ⟨_, rfl⟩
      | cons c rest => obtain rfl | rfl | rfl := hrest c rfl <;> exact ⟨_, rfl⟩

theorem skipNumber_chars {n : Numeral} (hn : n.Sound) {rest : List Char} (hrest : Ends rest)
    (offset : Nat) : ∃ next, skipNumber ⟨n.chars ++ rest, offset⟩ = .ok ⟨rest, next⟩ := by
  obtain ⟨next, hnext⟩ := skipNumber_whole hn (n.stops_tail hrest) offset
  rw [chars, List.append_assoc, List.append_assoc, hnext]
  by_cases hfraction : n.fraction = []
  · rw [hfraction]
    exact skipBehindWhole_exponent hn.exponent hrest next
  · exact skipBehindWhole_fraction hfraction hn.fraction hn.exponent hrest next

end Numeral

end AgentGateway.Json
