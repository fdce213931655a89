import AgentGateway.Backoff
import AgentGateway.Failure
import AgentGateway.Timeline

/-!
# Trying again

A piece of work that fails is tried again if its failure is of a kind that may pass and the budget
of attempts is not used up. Between two attempts there is one wait, which a cancellation cuts
short.
-/

namespace AgentGateway

structure Retry where
  backoff : Backoff
  accepts : Failure → Bool

namespace Retry

/-- The rule that tries again after transient failures. -/
def ofBackoff (b : Backoff) : Retry := ⟨b, Failure.isTransient⟩

/-- The rule that tries again after failures of some kinds; a star stands for all kinds. -/
def ofKinds (b : Backoff) (kinds : List String) : Retry :=
  ⟨b, fun f => kinds.any fun k => k == "*" || k == f.kind⟩

inductive Decision where
  | finish
  | again (wait : Duration)
  deriving DecidableEq, Repr, Inhabited

/-- What follows attempt number `attempt` with its outcome; attempts count from one. -/
def decide {α : Type} (r : Retry) (attempt : Nat) : Except Failure α → Decision
  | .ok _ => .finish
  | .error e =>
    if attempt < r.backoff.attempts ∧ r.accepts e = true then
      .again (r.backoff.delayAfter attempt)
    else .finish

/-- What a caller learns that cancels its own work between two attempts. -/
def cancelled : Failure := .cancelled "execution cancelled by caller"

/-- An attempt: what it was asked to do, when it started and ended and with what, and the wait that
was begun after it, if one was. -/
structure Trial (ρ α : Type) where
  request : ρ
  start : Duration
  finish : Duration
  outcome : Except Failure α
  wait : Option Duration := none
  deriving Inhabited

/-- Some work: for a request, the number of the attempt and the moment it starts, the moment it
ends and its outcome. -/
abbrev Work (ρ α : Type) := ρ → Nat → Duration → Duration × Except Failure α

structure Report (ρ α : Type) where
  trials : List (Trial ρ α)
  finish : Duration
  outcome : Except Failure α
  deriving Inhabited

def isCancelledBefore (cancelAt : Option Duration) (moment : Duration) : Bool :=
  match cancelAt with
  | some c => c < moment
  | none => false

def later (a b : Duration) : Duration := if a ≤ b then b else a

/-- Runs attempt number `attempt` and those after it, at most `left` in all besides this one. -/
def runFrom {ρ α : Type} (r : Retry) (work : Work ρ α) (request : ρ)
    (cancelAt : Option Duration) : (left attempt : Nat) → (start : Duration) → Report ρ α
  | 0, attempt, start =>
    let (finish, outcome) := work request attempt start
    ⟨[{ request, start, finish, outcome }], finish, outcome⟩
  | left + 1, attempt, start =>
    let (finish, outcome) := work request attempt start
    let trial : Trial ρ α := { request, start, finish, outcome }
    match r.decide attempt outcome with
    | .finish => ⟨[trial], finish, outcome⟩
    | .again wait =>
      let trial := { trial with wait := some wait }
      let wake := (finish + wait).tick
      if isCancelledBefore cancelAt wake then
        ⟨[trial], later finish (cancelAt.getD finish), .error cancelled⟩
      else
        let rest := runFrom r work request cancelAt left (attempt + 1) wake
        { rest with trials := trial :: rest.trials }

/-- Runs some work with its retries; a cancellation may come at a moment. -/
def run {ρ α : Type} (r : Retry) (work : Work ρ α) (request : ρ)
    (cancelAt : Option Duration := none) (start : Duration := .zero) : Report ρ α :=
  runFrom r work request cancelAt (r.backoff.attempts - 1) 1 start

end Retry

end AgentGateway
