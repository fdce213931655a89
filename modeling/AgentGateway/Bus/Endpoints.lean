import AgentGateway.Bus.Handler
import AgentGateway.Correlation.Desk

/-!
# The two ends of the bus by themselves

A worker whose replies are taken out by hand, and a listener whose replies are put in by hand.
-/

namespace AgentGateway.Bus

open Correlation (Id Outcome Registration)

structure WorkerDesk (η β α : Type) where
  worker : Worker β α
  handler : η
  now : Duration := .zero

namespace WorkerDesk

variable {η β α : Type}

def ofCapacities (requests replies : Nat) (handler : η) : WorkerDesk η β α :=
  { worker := { requests := { capacity := requests }, replies := { capacity := replies } }
    handler }

/-- What the handler has found out goes to the worker. -/
def report (d : WorkerDesk η β α) (findings : List (Nat × Finding α)) : WorkerDesk η β α :=
  { d with worker := findings.foldl (fun w (number, finding) =>
      match finding with
      | some result => w.finish number result
      | none => w.crash number) d.worker }

/-- Lets the worker and the handler act until both wait. -/
def settle (h : Handler η β α) : (fuel : Nat) → WorkerDesk η β α → WorkerDesk η β α
  | 0, d => d
  | fuel + 1, d =>
    let (started, worker) := d.worker.settle d.worker.steps []
    let handler := started.foldl (fun s job => h.start d.now job s) d.handler
    let (handler, findings) := h.run d.now handler
    let d := { d with worker, handler }
    if findings.isEmpty then d else settle h fuel (d.report findings)

def act (h : Handler η β α) (d : WorkerDesk η β α) : WorkerDesk η β α :=
  settle h Client.Desk.manySteps d

/-- Sends a request; tells whether the worker's channel took it. -/
def send (h : Handler η β α) (d : WorkerDesk η β α) (m : Message β) : WorkerDesk η β α × Bool :=
  match d.worker.requests.trySend? m with
  | some requests =>
    if d.worker.requests.sent then (act h { d with worker := { d.worker with requests } }, true)
    else (d, false)
  | none => (d, false)

def drainWith (h : Handler η β α) : (fuel : Nat) → WorkerDesk η β α → List (Reply α) →
    WorkerDesk η β α × List (Reply α)
  | 0, d, taken => (d, taken.reverse)
  | fuel + 1, d, taken =>
    match d.worker.replies.receive? with
    | some (reply, replies) =>
      drainWith h fuel (act h { d with worker := { d.worker with replies } }) (reply :: taken)
    | none => (d, taken.reverse)

def drain (h : Handler η β α) (d : WorkerDesk η β α) : WorkerDesk η β α × List (Reply α) :=
  drainWith h (d.worker.replies.items.length + d.worker.replies.waiting.length) d []

def closeRequests (h : Handler η β α) (d : WorkerDesk η β α) : WorkerDesk η β α :=
  act h { d with worker := { d.worker with requests := d.worker.requests.finish } }

def closeReplies (h : Handler η β α) (d : WorkerDesk η β α) : WorkerDesk η β α :=
  act h { d with worker := { d.worker with replies := d.worker.replies.hangUp } }

def cancel (h : Handler η β α) (d : WorkerDesk η β α) : WorkerDesk η β α :=
  let handler := d.worker.jobs.foldl (fun s job => h.drop job.number s) d.handler
  act h { d with worker := d.worker.cancel.giveUpAll, handler }

def sleep (h : Handler η β α) (d : WorkerDesk η β α) (time : Duration) : WorkerDesk η β α :=
  let moment := (d.now + time).tick
  { runUntil (fun d => h.due? d.handler) (fun t d => act h { d with now := t }) moment
      Client.Desk.manySteps d with now := moment }

end WorkerDesk

structure ListenerDesk (α : Type) where
  office : Correlation.Desk α
  replies : Channel (Reply α)
  listening : Bool := true

namespace ListenerDesk

variable {α : Type}

/-- The listener passes replies on until there are none, and ends if there will be none. -/
def settle : (fuel : Nat) → ListenerDesk α → ListenerDesk α
  | 0, d => d
  | fuel + 1, d =>
    if d.listening then
      match d.replies.receive? with
      | some (reply, replies) =>
        settle fuel { d with office := (d.office.resolve reply.id reply.result).1, replies }
      | none =>
        if d.replies.isExhausted then { d with listening := false, replies := d.replies.hangUp }
        else d
    else d

def act (d : ListenerDesk α) : ListenerDesk α :=
  settle (d.replies.items.length + d.replies.waiting.length + 1) d

/-- A reply is sent; tells whether the channel took it. -/
def reply (d : ListenerDesk α) (r : Reply α) : ListenerDesk α × Bool :=
  match d.replies.trySend? r with
  | some replies =>
    if d.replies.sent then (act { d with replies }, true) else (d, false)
  | none => (d, false)

def close (d : ListenerDesk α) : ListenerDesk α := act { d with replies := d.replies.finish }

def cancel (d : ListenerDesk α) : ListenerDesk α :=
  { d with listening := false, replies := d.replies.hangUp }

end ListenerDesk

end AgentGateway.Bus
