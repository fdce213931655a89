import AgentGateway.Duration
import AgentGateway.Power

/-!
# Attempts and the waits between them

A policy fixes how often a piece of work is tried and how long to wait in between. The waits grow
by a constant factor and are capped.
-/

namespace AgentGateway

/-- A budget of attempts and a schedule of waits. `maxAttempts` counts the first attempt as well,
and zero counts as one. Each wait exceeds the one before by the factor `multiplier`, up to `max`. -/
structure Backoff where
  maxAttempts : Nat
  initial : Duration
  multiplier : Binary64
  max : Duration
  deriving DecidableEq, Repr, Inhabited

namespace Backoff

def attempts (b : Backoff) : Nat := Nat.max b.maxAttempts 1

/-- The uncapped wait after a failed attempt, in seconds. Attempts count from one. -/
def uncapped (b : Backoff) (attempt : Nat) : Binary64 :=
  b.initial.toBinary64.mul (b.multiplier.pow (Nat.min (attempt - 1) maxSigned32))

/-- The wait after a failed attempt. A wait that is no representable span is capped like one that
is too long. -/
def delayAfter (b : Backoff) (attempt : Nat) : Duration :=
  let seconds := b.uncapped attempt
  if !seconds.isFinite ∨ b.max.toBinary64.le seconds then b.max
  else (Duration.ofBinary64? seconds).getD b.max

end Backoff

end AgentGateway
