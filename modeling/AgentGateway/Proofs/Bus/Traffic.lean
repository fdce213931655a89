import AgentGateway.Bus.Gateway
import AgentGateway.Proofs.Correlation.Resolution

/-!
# Traffic on the bus

A bus is looked at together with a record of what has travelled over it: the requests that were
registered, those whose handling started, how each of them ended, and the replies that the
listener took. What a hang-up or a full channel destroys is recorded as lost.

Submitters, the worker, the requests that are being handled, the listener, the sweeper and other
users of the engine act in any order. Each move is one thing that one of them does, carried out
by the functions of the bus itself; a move that is not possible changes nothing. The handler is
whoever chooses the results and the order of the moves `finish` and `crash`. To register a request
and to send it is one move: until it is sent nobody else knows its identifier, so what happens in
between might as well happen after.
-/

namespace AgentGateway.Bus

open Correlation (Action Engine Id Outcome Pending)

/-- A request that was registered, and its body. -/
structure Submitted (β : Type) where
  pending : Pending
  body : β

/-- How the handling of a request ended: with which result, at which moment, and whether the
handler gave the result. -/
structure Answered (β α : Type) where
  job : Job β
  result : Except Failure α
  moment : Duration
  byHandler : Bool

/-- The reply that the handling of a request leads to. -/
def Answered.reply {β α : Type} (a : Answered β α) : Reply α := ⟨a.job.id, a.result⟩

/-- A bus with the record of what has travelled over it. Once it has been told to stop it is
`fired`. -/
structure Traffic (β α : Type) where
  gateway : Gateway β α
  now : Duration
  fired : Bool := false
  submitted : List (Submitted β) := []
  invoked : List (Job β) := []
  answered : List (Answered β α) := []
  crashed : List (Job β) := []
  consumed : List (Reply α) := []
  lostRequests : List (Message β) := []
  lostReplies : List (Reply α) := []

/-- What can happen on the bus. Once it has been told to stop (`fire`), the worker, the listener and
each request that is being handled notice it by themselves. By `drop` nobody is left to submit, and
`engine` is what the sweeper or another user of the engine does. -/
inductive Move (β α : Type) where
  | submit (name : String) (body : β) (timeout : Option Duration)
  | take
  | finish (number : Nat) (result : Except Failure α)
  | crash (number : Nat)
  | deliver
  | fire
  | notice
  | giveUp (number : Nat)
  | stopListening
  | close
  | endWorker
  | drop
  | engine (a : Action α)
  | elapse (span : Duration)

namespace Traffic

variable {β α : Type}

/-- A bus that starts at a moment on an engine. -/
def opening (engine : Engine α) (capacity : Nat) (now : Duration) : Traffic β α :=
  { gateway := .ofCapacity engine capacity, now }

def requests (t : Traffic β α) : Channel (Message β) := t.gateway.worker.requests

def replies (t : Traffic β α) : Channel (Reply α) := t.gateway.worker.replies

def jobs (t : Traffic β α) : List (Job β) := t.gateway.worker.jobs

def withWorker (t : Traffic β α) (worker : Worker β α) : Traffic β α :=
  { t with gateway := { t.gateway with worker } }

/-- Somebody submits a request, as long as there is a submitting side. -/
def submit (t : Traffic β α) (name : String) (body : β) (timeout : Option Duration) :
    Traffic β α :=
  if t.requests.sent then
    match t.gateway.submit t.now name body timeout with
    | (gateway, .registered id ticket) =>
      let expiresAt := t.now + timeout.getD t.gateway.engine.defaultTimeout
      { t with gateway, submitted := t.submitted ++ [⟨⟨id, ticket, expiresAt⟩, body⟩] }
    | (gateway, _) => { t with gateway }
  else t

/-- The worker takes a request, whose handling starts. -/
def take (t : Traffic β α) : Traffic β α :=
  match t.gateway.worker.take? with
  | some (job, worker) => { t.withWorker worker with invoked := t.invoked ++ [job] }
  | none => t

/-- The handling of a request has ended with a reply, which is sent or lost. -/
def conclude (t : Traffic β α) (a : Answered β α) (worker : Worker β α) (sent : Bool) :
    Traffic β α :=
  { t.withWorker worker with
    answered := t.answered ++ [a]
    lostReplies := if sent then t.lostReplies else t.lostReplies ++ [a.reply] }

def finish (t : Traffic β α) (number : Nat) (result : Except Failure α) : Traffic β α :=
  match t.gateway.worker.job? number with
  | some job =>
    t.conclude ⟨job, result, t.now, true⟩ (t.gateway.worker.finish number result)
      (t.replies.send? ⟨job.id, result⟩).isSome
  | none => t

def crash (t : Traffic β α) (number : Nat) : Traffic β α :=
  match t.gateway.worker.job? number with
  | some job =>
    { t.withWorker (t.gateway.worker.crash number) with crashed := t.crashed ++ [job] }
  | none => t

/-- The worker notices that the bus is to stop. -/
def notice (t : Traffic β α) : Traffic β α :=
  if t.fired then t.withWorker t.gateway.worker.cancel else t

/-- A request that is being handled notices that the bus is to stop. -/
def giveUp (t : Traffic β α) (number : Nat) : Traffic β α :=
  match t.gateway.worker.job? number with
  | some job =>
    if t.fired then
      t.conclude ⟨job, .error stopped, t.now, false⟩ (t.gateway.worker.giveUp number)
        (t.replies.trySend? ⟨job.id, .error stopped⟩).isSome
    else t
  | none => t

def deliver (t : Traffic β α) : Traffic β α :=
  match t.gateway.deliver? t.now with
  | some gateway => { t with gateway, consumed := t.consumed ++ t.replies.items.take 1 }
  | none => t

/-- The listener ends, because the bus is to stop or there will be no more replies. -/
def stopListening (t : Traffic β α) : Traffic β α :=
  if t.gateway.listening ∧ (t.fired ∨ t.replies.isExhausted) then
    { t with
      gateway := t.gateway.stopListening
      lostReplies := t.lostReplies ++ (t.replies.items ++ t.replies.waiting) }
  else t

def close (t : Traffic β α) : Traffic β α :=
  match t.gateway.worker.close? with
  | some worker => t.withWorker worker
  | none => t

/-- The worker ends; requests that it has not taken are lost. -/
def endWorker (t : Traffic β α) : Traffic β α :=
  match t.gateway.endWorker? t.now with
  | some (gateway, _) =>
    { t with
      gateway
      lostRequests := t.lostRequests ++ (t.requests.items ++ t.requests.waiting) }
  | none => t

/-- Whether an action is one that others may take: they keep the engine, and reply to no request
of the bus. -/
def leaves (t : Traffic β α) : Action α → Bool
  | .register .. | .registerNew .. | .sweep | .shutdown => true
  | .complete id _ | .fail id _ => !t.submitted.any (·.pending.id == id)
  | .drop => false

/-- Somebody else does something with the engine. -/
def act (t : Traffic β α) (a : Action α) : Traffic β α :=
  if t.leaves a then
    { t with gateway := { t.gateway with engine := (t.gateway.engine.perform t.now a).1 } }
  else t

def step (t : Traffic β α) : Move β α → Traffic β α
  | .submit name body timeout => t.submit name body timeout
  | .take => t.take
  | .finish number result => t.finish number result
  | .crash number => t.crash number
  | .deliver => t.deliver
  | .fire => { t with fired := true }
  | .notice => t.notice
  | .giveUp number => t.giveUp number
  | .stopListening => t.stopListening
  | .close => t.close
  | .endWorker => t.endWorker
  | .drop => { t with gateway := t.gateway.drop }
  | .engine a => t.act a
  | .elapse span => { t with now := t.now + span }

def run (t : Traffic β α) (moves : List (Move β α)) : Traffic β α := moves.foldl step t

end Traffic

end AgentGateway.Bus
