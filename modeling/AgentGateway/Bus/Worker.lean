import AgentGateway.Bus.Channel
import AgentGateway.Correlation.Engine

/-!
# The worker

The worker takes requests from a channel and has each one handled by itself, so that a slow one
holds nobody up. A handled request leads to one reply under its own identifier. When the worker
is cancelled it takes no more requests, gives up those that are being handled, and ends once all
of them have come to an end.
-/

namespace AgentGateway.Bus

open Correlation (Id)

/-- A request with the identifier that its reply is to carry, and the address it is to go to. -/
structure Message (β : Type) where
  id : Id
  replyTo : String
  body : β
  deriving Repr, Inhabited

structure Reply (α : Type) where
  id : Id
  result : Except Failure α
  deriving Inhabited

structure Job (β : Type) where
  number : Nat
  id : Id
  body : β
  deriving Repr, Inhabited

/-- What the worker is about. When it is `closing` it takes no more requests and waits for those
that are being handled. -/
inductive Worker.Phase where
  | serving
  | closing
  | ended
  deriving DecidableEq, Repr, Inhabited

/-- The worker with its channels and the requests that are being handled, of which `taken` have been
taken off the channel so far. -/
structure Worker (β α : Type) where
  requests : Channel (Message β)
  replies : Channel (Reply α)
  jobs : List (Job β) := []
  phase : Worker.Phase := .serving
  cancelled : Bool := false
  taken : Nat := 0
  deriving Inhabited

def stopped : Failure := .shutdown "bus worker stopped before replying"

namespace Worker

variable {β α : Type}

/-- Takes a request and starts to handle it. -/
def take? (w : Worker β α) : Option (Job β × Worker β α) :=
  if w.phase = .serving ∧ !w.cancelled then
    match w.requests.receive? with
    | some (m, requests) =>
      let job : Job β := ⟨w.taken, m.id, m.body⟩
      some (job, { w with requests, jobs := w.jobs ++ [job], taken := w.taken + 1 })
    | none => none
  else none

/-- Takes a request off the list of those that are being handled. -/
def removeJob (w : Worker β α) (number : Nat) : Worker β α :=
  { w with jobs := w.jobs.filter (·.number != number) }

def job? (w : Worker β α) (number : Nat) : Option (Job β) := w.jobs.find? (·.number == number)

/-- A request has been handled: its reply is sent, and lost if nobody receives it. -/
def finish (w : Worker β α) (number : Nat) (result : Except Failure α) : Worker β α :=
  match w.job? number with
  | some job =>
    let w := w.removeJob number
    { w with replies := (w.replies.send? ⟨job.id, result⟩).getD w.replies }
  | none => w

/-- The handling of a request crashes: there will be no reply. -/
def crash (w : Worker β α) (number : Nat) : Worker β α := w.removeJob number

/-- A cancelled request is given up: a reply says so if there is room for it. -/
def giveUp (w : Worker β α) (number : Nat) : Worker β α :=
  match w.job? number with
  | some job =>
    let w := w.removeJob number
    { w with replies := (w.replies.trySend? ⟨job.id, .error stopped⟩).getD w.replies }
  | none => w

def cancel (w : Worker β α) : Worker β α := { w with cancelled := true }

/-- Gives up all requests that are being handled, in the order in which they were taken. -/
def giveUpAll (w : Worker β α) : Worker β α :=
  w.jobs.foldl (fun w job => w.giveUp job.number) w

/-- Takes no more requests, if there will be none or the worker is cancelled. -/
def close? (w : Worker β α) : Option (Worker β α) :=
  if w.phase = .serving ∧ (w.cancelled ∨ w.requests.isExhausted) then
    some { w with phase := .closing }
  else none

/-- Ends, if nothing is being handled and no reply waits for room. -/
def end? (w : Worker β α) : Option (Worker β α) :=
  if w.phase = .closing ∧ w.jobs.isEmpty ∧ w.replies.waiting.isEmpty then
    some { w with phase := .ended, requests := w.requests.hangUp, replies := w.replies.finish }
  else none

def hasEnded (w : Worker β α) : Bool := w.phase == .ended

/-- Takes requests as long as there are any, and comes to its end if it can. Gives the requests
whose handling starts. -/
def settle (w : Worker β α) : (fuel : Nat) → List (Job β) → List (Job β) × Worker β α
  | 0, started => (started.reverse, w)
  | fuel + 1, started =>
    match w.take? with
    | some (job, w) => settle w fuel (job :: started)
    | none =>
      match w.close? with
      | some w => settle w fuel started
      | none =>
        match w.end? with
        | some w => settle w fuel started
        | none => (started.reverse, w)

/-- At most this many things happen until the worker waits. -/
def steps (w : Worker β α) : Nat := w.requests.items.length + w.requests.waiting.length + 3

end Worker

end AgentGateway.Bus
