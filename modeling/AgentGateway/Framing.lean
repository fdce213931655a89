import AgentGateway.Text.Utf8

/-!
# Framing output into lines

Bytes arrive in chunks that know nothing of lines. A framer holds what has not been cut yet and
gives one frame at a time: the bytes before the next newline as a line, or the note that a line
was longer than the limit. The rest of such a line is thrown away up to its newline, so the buffer
never holds more than one line's worth once everything that can be cut has been cut.

A framer never looks at more of its buffer than a line at the limit and its newline, and it does
not look twice at bytes in which it found no newline.
-/

namespace AgentGateway

/-- A unit of framed output: a line without its newline and without one carriage return before it,
or a line above the limit, whose text is lost. -/
inductive Frame where
  | line (text : List Char)
  | oversized
  deriving DecidableEq, Repr, Inhabited

/-- Bytes not yet cut, how many of them are known to hold no newline, and whether they still
belong to a line above the limit. -/
structure Framer where
  buffer : List UInt8 := []
  searched : Nat := 0
  discarding : Bool := false
  deriving DecidableEq, Repr, Inhabited

namespace Framer

/-- The longest line that is kept: one mebibyte. -/
def maxLine : Nat := 1048576

def newline : UInt8 := 10

def carriageReturn : UInt8 := 13

/-- The text of a line: one carriage return at its end is dropped, and bytes that are not valid
text are replaced. -/
def lineText (bytes : List UInt8) : List Char :=
  Text.Utf8.decodeLossy
    (if bytes.getLast? = some carriageReturn then bytes.dropLast else bytes)

def append (f : Framer) (chunk : List UInt8) : Framer :=
  { f with buffer := f.buffer ++ chunk }

/-- Where the first newline is among the bytes that are looked at. -/
def newlineAt? (limit : Nat) (f : Framer) : Option Nat :=
  (((f.buffer.take (limit + 1)).drop f.searched).findIdx? (· == newline)).map (f.searched + ·)

theorem newlineAt?_lt {limit n : Nat} {f : Framer} (h : f.newlineAt? limit = some n) :
    n < f.buffer.length := by
  obtain ⟨i, hi, rfl⟩ := Option.map_eq_some_iff.mp h
  have hlt := (List.findIdx?_eq_some_iff_getElem.mp hi).1
  simp only [List.length_drop, List.length_take] at hlt
  omega

/-- Gives the next frame, if one can be cut. What is left of a line above the limit is thrown away
first, as much at a time as is looked at. -/
def next (limit : Nat) (f : Framer) : Option Frame × Framer :=
  match _hn : f.newlineAt? limit with
  | some n =>
    if f.discarding then next limit { buffer := f.buffer.drop (n + 1) }
    else (some (.line (lineText (f.buffer.take n))), { buffer := f.buffer.drop (n + 1) })
  | none =>
    if f.discarding then
      if _hl : f.buffer.length ≤ limit + 1 then (none, { discarding := true })
      else next limit { buffer := f.buffer.drop (limit + 1), discarding := true }
    else if limit < f.buffer.length then (some .oversized, { f with discarding := true })
    else (none, { f with searched := f.buffer.length })
termination_by f.buffer.length
decreasing_by
  · have := newlineAt?_lt _hn
    simp only [List.length_drop]
    omega
  · simp only [List.length_drop]
    omega

/-- Gives the next frame when no more bytes will come: then a last line needs no newline. -/
def nextAtEnd (limit : Nat) (f : Framer) : Option Frame × Framer :=
  match f.next limit with
  | (some frame, f) => (some frame, f)
  | (none, f) =>
    if f.buffer.isEmpty then (none, f)
    else (some (.line (lineText f.buffer)), { f with buffer := [], searched := 0 })

/-- What a framer has left to give: every frame takes bytes, except for the note that a line is
above the limit, which comes once before its bytes go. -/
def weight (f : Framer) : Nat := 2 * f.buffer.length + if f.discarding then 0 else 1

theorem weight_next (limit : Nat) (f : Framer) :
    (f.next limit).2.weight + (f.next limit).1.toList.length ≤ f.weight := by
  fun_induction next limit f with
  | case1 f n hn hd ih =>
      have hlt := newlineAt?_lt hn
      simp only [weight, hd, List.length_drop, Bool.false_eq_true, if_true, if_false] at ih ⊢
      omega
  | case2 f n hn hd =>
      have hlt := newlineAt?_lt hn
      simp only [weight, hd, List.length_drop, Option.toList_some, List.length_singleton,
        Bool.false_eq_true, if_false]
      omega
  | case3 => simp [weight]
  | case4 f hn hd hl ih =>
      simp only [weight, hd, List.length_drop, if_true] at ih ⊢
      omega
  | case5 f hn hd hl => simp [weight, hd]
  | case6 f hn hd hl => simp [weight]

theorem weight_nextAtEnd (limit : Nat) (f : Framer) :
    (f.nextAtEnd limit).2.weight + (f.nextAtEnd limit).1.toList.length ≤ f.weight := by
  have h := weight_next limit f
  unfold nextAtEnd
  split
  next frame g heq => simpa [heq] using h
  next g heq =>
    rw [heq] at h
    split
    next => simpa using h
    next hne =>
      have hpos := List.length_pos_iff.mpr (by simpa using hne)
      simp only [weight, Option.toList_none, Option.toList_some, List.length_nil,
        List.length_singleton] at h ⊢
      omega

/-- Repeats a step until it gives no frame. There is an end to that, because every frame makes the
framer lighter. -/
def drainBy (step : Framer → Option Frame × Framer)
    (shrinks : ∀ f, (step f).2.weight + (step f).1.toList.length ≤ f.weight)
    (f : Framer) (done : List Frame) : List Frame × Framer :=
  match _h : step f with
  | (some frame, g) => drainBy step shrinks g (frame :: done)
  | (none, g) => (done.reverse, g)
termination_by f.weight
decreasing_by
  have hless := shrinks f
  rw [_h] at hless
  exact hless

def drain (limit : Nat) (f : Framer) : List Frame × Framer :=
  drainBy (next limit) (weight_next limit) f []

/-- All frames that are left when no more bytes will come. -/
def drainAtEnd (limit : Nat) (f : Framer) : List Frame × Framer :=
  drainBy (nextAtEnd limit) (weight_nextAtEnd limit) f []

/-- Frames a whole stream that arrives in chunks: the frames after each chunk and those at the
end. -/
def frameChunks (limit : Nat) (f : Framer) : List (List UInt8) → List Frame
  | [] => (f.drainAtEnd limit).1
  | chunk :: rest =>
    let (frames, f) := (f.append chunk).drain limit
    frames ++ frameChunks limit f rest

end Framer

end AgentGateway
