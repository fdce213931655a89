import AgentGateway.Bus.Worker

/-!
# The bus

A request is registered with the correlation engine and sent to the worker; the listener passes
the worker's replies on to the engine. A request that cannot be sent leaves nothing behind.
-/

namespace AgentGateway.Bus

open Correlation (Engine Id Registration)

def replyAddress : String := "conduit.replies"

/-- What a submitter learns whose request cannot be sent. -/
def notRunning : Failure := .shutdown "bus worker is not running"

/-- The engine, the worker and the listener, which may have gone away. -/
structure Gateway (β α : Type) where
  engine : Engine α
  worker : Worker β α
  listening : Bool := true
  deriving Inhabited

/-- What comes of a submission at once. A request that is `registered` has been sent or waits for
room; it is `impossible` to register one whose expiry the clock cannot show. -/
inductive Submission where
  | registered (id : Id) (ticket : Nat)
  | refused (cause : Failure)
  | impossible
  deriving Repr, Inhabited

namespace Gateway

variable {β α : Type}

/-- A bus whose channels hold at most `capacity` items, but at least one. -/
def ofCapacity (engine : Engine α) (capacity : Nat) : Gateway β α :=
  { engine
    worker := { requests := { capacity := max capacity 1 }
                replies := { capacity := max capacity 1 } } }

def submit (g : Gateway β α) (now : Duration) (name : String) (body : β)
    (timeout : Option Duration) : Gateway β α × Submission :=
  match g.engine.registerNew now name timeout with
  | (engine, _, .refused cause) => ({ g with engine }, .refused cause)
  | (engine, _, .impossible) => ({ g with engine }, .impossible)
  | (engine, id, .registered ticket) =>
    match g.worker.requests.send? ⟨id, replyAddress, body⟩ with
    | some requests =>
      ({ g with engine, worker := { g.worker with requests } }, .registered id ticket)
    | none => ({ g with engine := (engine.fail now id notRunning).1 }, .refused notRunning)

def isWaiting (g : Gateway β α) (id : Id) : Bool :=
  g.worker.requests.waiting.any (·.id == id)

def deliver? (g : Gateway β α) (now : Duration) : Option (Gateway β α) :=
  if g.listening then
    match g.worker.replies.receive? with
    | some (reply, replies) =>
      some { g with
        worker := { g.worker with replies }
        engine := (g.engine.resolve now reply.id reply.result).1 }
    | none => none
  else none

def stopListening (g : Gateway β α) : Gateway β α :=
  { g with listening := false, worker := { g.worker with replies := g.worker.replies.hangUp } }

/-- The worker ends, if it can; requests that wait for room are then refused. -/
def endWorker? (g : Gateway β α) (now : Duration) : Option (Gateway β α × List Id) :=
  match g.worker.end? with
  | some worker =>
    let refused := g.worker.requests.waiting.map (·.id)
    some ({ g with
      worker
      engine := refused.foldl (fun e id => (e.fail now id notRunning).1) g.engine }, refused)
  | none => none

structure Progress (β : Type) where
  started : List (Job β) := []
  refused : List Id := []

/-- Lets the worker and the listener act until both wait. -/
def settle (g : Gateway β α) (now : Duration) :
    (fuel : Nat) → Progress β → Gateway β α × Progress β
  | 0, p => (g, p)
  | fuel + 1, p =>
    match g.worker.take? with
    | some (job, worker) =>
      settle { g with worker } now fuel { p with started := p.started ++ [job] }
    | none =>
      match g.deliver? now with
      | some g => settle g now fuel p
      | none =>
        match g.worker.close? with
        | some worker => settle { g with worker } now fuel p
        | none =>
          match g.endWorker? now with
          | some (g, refused) => settle g now fuel { p with refused := p.refused ++ refused }
          | none =>
            if g.listening ∧ g.worker.replies.isExhausted then
              settle g.stopListening now fuel p
            else (g, p)

/-- At most this many things happen until the bus waits. -/
def steps (g : Gateway β α) : Nat :=
  g.worker.steps + g.worker.replies.items.length + g.worker.replies.waiting.length + 4

/-- The whole bus is cancelled: the listener ends, and the worker gives up what it has. -/
def cancel (g : Gateway β α) : Gateway β α :=
  let g := if g.listening then g.stopListening else g
  { g with worker := g.worker.cancel.giveUpAll }

def drop (g : Gateway β α) : Gateway β α :=
  { g with worker := { g.worker with requests := g.worker.requests.finish } }

end Gateway

end AgentGateway.Bus
