import AgentGateway.Bus.Gateway
import AgentGateway.Bus.Handler
import AgentGateway.Correlation.Desk

/-!
# Callers at a bus

Named callers submit requests and learn their outcome once there is one, while time passes and a
handler handles the requests.
-/

namespace AgentGateway.Bus

open Correlation (Caller Engine Id Outcome)

inductive News (α : Type) where
  | refused (cause : Failure)
  | crashed
  | outcome (o : Outcome α)
  deriving Inhabited

/-- A bus with its handler and its callers, the latest first. The requests of those who are
`blocked` wait for room; once the bus is `gone`, callers can no longer submit. -/
structure Desk (η β α : Type) where
  gateway : Gateway β α
  handler : η
  sweeper : Option Ticker := none
  now : Duration := .zero
  callers : List Caller := []
  blocked : List Caller := []
  notes : List (Note (News α)) := []
  gone : Bool := false

namespace Desk

variable {η β α : Type}

/-- A bus that starts with an engine and a sweeper. -/
def ofEngine (d : Correlation.Desk α) (capacity : Nat) (handler : η) : Desk η β α :=
  { gateway := .ofCapacity d.engine capacity, handler, sweeper := d.sweeper }

def note (d : Desk η β α) (who : String) (what : News α) : Desk η β α :=
  { d with notes := d.notes ++ [⟨d.now.millis, who, what⟩] }

/-- Tells the callers whose outcome has come. -/
def tell (d : Desk η β α) : Desk η β α :=
  let engine := d.gateway.engine
  { d with
    notes := d.notes ++
      (engine.answered d.callers).map fun (c, o) => ⟨d.now.millis, c.name, .outcome o⟩
    callers := engine.unanswered d.callers }

/-- Blocked callers learn that their requests were sent or refused. -/
def unblock (d : Desk η β α) (refused : List Id) : Desk η β α :=
  d.blocked.foldl (fun d c =>
    if refused.contains c.id then d.note c.name (.refused notRunning)
    else if d.gateway.isWaiting c.id then { d with blocked := d.blocked ++ [c] }
    else { d with callers := c :: d.callers }) { d with blocked := [] }

/-- What the handler has found out goes to the worker. -/
def report (d : Desk η β α) (findings : List (Nat × Finding α)) : Desk η β α :=
  { d with gateway := { d.gateway with
      worker := findings.foldl (fun w (number, finding) =>
        match finding with
        | some result => w.finish number result
        | none => w.crash number) d.gateway.worker } }

/-- Lets the bus and the handler act until both wait. -/
def settle (h : Handler η β α) : (fuel : Nat) → Desk η β α → Desk η β α
  | 0, d => d.tell
  | fuel + 1, d =>
    let (gateway, progress) := d.gateway.settle d.now d.gateway.steps {}
    let d := { d with gateway }.unblock progress.refused
    let handler := progress.started.foldl (fun s job => h.start d.now job s) d.handler
    let (handler, findings) := h.run d.now handler
    let d := { d with handler }
    if findings.isEmpty then d.tell else settle h fuel (d.report findings)

def act (h : Handler η β α) (d : Desk η β α) : Desk η β α := settle h Client.Desk.manySteps d

def submit (h : Handler η β α) (d : Desk η β α) (name : String) (body : β)
    (timeout : Option Duration) : Desk η β α :=
  let (gateway, submission) := d.gateway.submit d.now name body timeout
  let d := { d with gateway }
  act h (match submission with
    | .registered id ticket =>
      let c : Caller := ⟨name, id, ticket, true⟩
      if gateway.isWaiting id then { d with blocked := d.blocked ++ [c] }
      else { d with callers := c :: d.callers }
    | .refused cause => d.note name (.refused cause)
    | .impossible => d.note name .crashed)

def caller? (d : Desk η β α) (name : String) : Option Caller :=
  d.callers.find? (·.name == name)

def withEngine {γ : Type} (d : Desk η β α) (f : Engine α → Engine α × γ) : Desk η β α × γ :=
  let (engine, c) := f d.gateway.engine
  ({ d with gateway := { d.gateway with engine } }.tell, c)

def resolve (d : Desk η β α) (id : Id) (outcome : Outcome α) : Desk η β α × Bool :=
  d.withEngine fun e => e.resolve d.now id outcome

def sweep (d : Desk η β α) : Desk η β α × Nat := d.withEngine fun e => e.sweep d.now

def shutdownEngine (d : Desk η β α) : Desk η β α × Nat :=
  { d with sweeper := none }.withEngine Engine.shutdown

def forget (d : Desk η β α) (name : String) : Desk η β α :=
  match d.caller? name with
  | some c =>
    { d with callers := d.callers.map fun x =>
        if x.ticket = c.ticket then { x with listening := false } else x }
  | none => d

def drop (h : Handler η β α) (d : Desk η β α) : Desk η β α :=
  act h { d with gateway := d.gateway.drop, gone := true }

def cancel (h : Handler η β α) (d : Desk η β α) : Desk η β α :=
  let handler := d.gateway.worker.jobs.foldl (fun s job => h.drop job.number s) d.handler
  act h { d with gateway := d.gateway.cancel, handler }

def sweepDue? (d : Desk η β α) : Option Duration :=
  match d.sweeper, d.gateway.engine.firstExpiry? with
  | some ticker, some expiry => some (ticker.nextAfter d.now expiry)
  | _, _ => none

def due? (h : Handler η β α) (d : Desk η β α) : Option Duration :=
  earliest? (d.sweepDue?.toList ++ (h.due? d.handler).toList)

def happen (h : Handler η β α) (t : Duration) (d : Desk η β α) : Desk η β α :=
  let sweeping := d.sweepDue? = some t
  let d := { d with now := t }
  act h (if sweeping then d.sweep.1 else d)

def sleep (h : Handler η β α) (d : Desk η β α) (time : Duration) : Desk η β α :=
  let moment := (d.now + time).tick
  { runUntil (due? h) (happen h) moment Client.Desk.manySteps d with now := moment }

/-- What callers have learned since this was last asked. -/
def collect (d : Desk η β α) : Desk η β α × List (Note (News α)) :=
  ({ d with notes := [] }, chronicle d.notes)

end Desk

end AgentGateway.Bus
