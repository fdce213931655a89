import AgentGateway.Binary64.Basic
import AgentGateway.Power

/-!
# Spans of time

A span is a whole number of nanoseconds. The seconds of a representable span fit 64 bits; sums
that exceed this either saturate or count as unrepresentable, as the operation says. A moment is
the span since the clock started, and timers go off at whole milliseconds.
-/

namespace AgentGateway

structure Duration where
  nanos : Nat
  deriving DecidableEq, Repr, Inhabited

namespace Duration

def nanosPerSecond : Nat := 1000000000

def nanosPerMilli : Nat := 1000000

/-- The first number of nanoseconds that no span reaches. -/
def bound : Nat := (maxWord64 + 1) * nanosPerSecond

def Representable (d : Duration) : Prop := d.nanos < bound

instance (d : Duration) : Decidable d.Representable := inferInstanceAs (Decidable (_ < _))

def zero : Duration := ⟨0⟩

def longest : Duration := ⟨bound - 1⟩

def ofSeconds (s : Nat) : Duration := ⟨s * nanosPerSecond⟩

def ofMillis (ms : Nat) : Duration := ⟨ms * nanosPerMilli⟩

def ofParts (seconds nanos : Nat) : Duration := ⟨seconds * nanosPerSecond + nanos⟩

def seconds (d : Duration) : Nat := d.nanos / nanosPerSecond

def subsecNanos (d : Duration) : Nat := d.nanos % nanosPerSecond

def add (a b : Duration) : Duration := ⟨a.nanos + b.nanos⟩

instance : Add Duration := ⟨add⟩

instance : LE Duration := ⟨fun a b => a.nanos ≤ b.nanos⟩

instance : LT Duration := ⟨fun a b => a.nanos < b.nanos⟩

instance (a b : Duration) : Decidable (a ≤ b) := Nat.decLe a.nanos b.nanos

instance (a b : Duration) : Decidable (a < b) := Nat.decLt a.nanos b.nanos

def min (a b : Duration) : Duration := if a ≤ b then a else b

/-- The sum, or the longest span if the sum is not representable. -/
def saturatingAdd (a b : Duration) : Duration :=
  if (a + b).Representable then a + b else longest

def add? (a b : Duration) : Option Duration :=
  if (a + b).Representable then some (a + b) else none

/-- The first whole millisecond at or after the end of the span. -/
def ceilMillis (d : Duration) : Nat := (d.nanos + (nanosPerMilli - 1)) / nanosPerMilli

/-- The seconds as a floating point number: the whole seconds plus the rounded fraction. -/
def toBinary64 (d : Duration) : Binary64 :=
  (Binary64.ofNat d.seconds).add
    ((Binary64.ofNat d.subsecNanos).div (Binary64.ofNat nanosPerSecond))

/-- A number of seconds to the nearest nanosecond, the even one of two equally near; `none` for
negative numbers, for those that are no numbers and for those too large. -/
def ofBinary64? : Binary64 → Option Duration
  | .finite negative m e =>
    if negative ∧ m ≠ 0 then none
    else
      let (num, den) := Binary64.magnitude m e
      let d : Duration := ⟨roundHalfEven (num * nanosPerSecond) den⟩
      if d.Representable then some d else none
  | _ => none

/-- The span times a factor, computed in floating point. -/
def scale? (d : Duration) (factor : Binary64) : Option Duration :=
  ofBinary64? (factor.mul d.toBinary64)

/-- A fraction with `places` digits, without its trailing zeros; nothing when it is zero. -/
def fraction (places value : Nat) : String :=
  if value = 0 then ""
  else
    let digits := Nat.toDigits 10 value
    let padded := List.replicate (places - digits.length) '0' ++ digits
    "." ++ String.ofList (padded.reverse.dropWhile (· == '0')).reverse

/-- The span as a person reads it: in the largest unit of which it has at least one, with as many
decimals as it needs. -/
def format (d : Duration) : String :=
  let rest := d.subsecNanos
  if 0 < d.seconds then toString d.seconds ++ fraction 9 rest ++ "s"
  else if nanosPerMilli ≤ rest then
    toString (rest / nanosPerMilli) ++ fraction 6 (rest % nanosPerMilli) ++ "ms"
  else if 1000 ≤ rest then toString (rest / 1000) ++ fraction 3 (rest % 1000) ++ "µs"
  else toString rest ++ "ns"

@[simp] theorem nanos_add (a b : Duration) : (a + b).nanos = a.nanos + b.nanos := rfl

theorem le_def {a b : Duration} : a ≤ b ↔ a.nanos ≤ b.nanos := Iff.rfl

theorem lt_def {a b : Duration} : a < b ↔ a.nanos < b.nanos := Iff.rfl

theorem min_le_right (a b : Duration) : a.min b ≤ b := by
  unfold min
  split
  · assumption
  · exact Nat.le_refl _

end Duration

end AgentGateway
