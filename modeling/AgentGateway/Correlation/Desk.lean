import AgentGateway.Config.Basic
import AgentGateway.Correlation.Engine

/-!
# Callers at a correlation engine

Named callers register, and learn their outcome once there is one, while time passes, replies
arrive, and a sweep looks for overdue entries at regular times.
-/

namespace AgentGateway.Correlation

/-- A caller and the reply that it awaits. Once it has let go of the reply it is no longer
`listening`. -/
structure Caller where
  name : String
  id : Id
  ticket : Nat
  listening : Bool := true
  deriving DecidableEq, Repr, Inhabited

/-- The callers whose outcome has come, with their outcomes, in the order of registration. -/
def Engine.answered {α : Type} (e : Engine α) (callers : List Caller) :
    List (Caller × Outcome α) :=
  callers.reverse.filterMap fun c =>
    if c.listening then (e.outcome? c.ticket).map fun o => (c, o) else none

/-- The callers, of whom those whose outcome has come listen no more. -/
def Engine.unanswered {α : Type} (e : Engine α) (callers : List Caller) : List Caller :=
  callers.map fun c => if (e.outcome? c.ticket).isSome then { c with listening := false } else c

/-- An engine with its callers, the latest first. -/
structure Desk (α : Type) where
  engine : Engine α
  sweeper : Option Ticker := none
  now : Duration := .zero
  callers : List Caller := []
  notes : List (Note (Outcome α)) := []
  gone : Bool := false
  deriving Inhabited

namespace Desk

variable {α : Type}

/-- An engine that sweeps only when told to. -/
def ofTimeout (defaultTimeout : Duration) : Desk α := { engine := { defaultTimeout } }

def ofConfig (c : Config.Correlation) : Desk α :=
  { engine := { defaultTimeout := c.defaultTimeout }
    sweeper := Ticker.start? .zero c.sweepInterval }

def caller? (d : Desk α) (name : String) : Option Caller := d.callers.find? (·.name == name)

/-- Tells the callers whose outcome has come. -/
def tell (d : Desk α) : Desk α :=
  { d with
    notes := d.notes ++ (d.engine.answered d.callers).map fun (c, o) => ⟨d.now.millis, c.name, o⟩
    callers := d.engine.unanswered d.callers }

/-- Does something with the engine and tells the callers what came of it. -/
def act {β : Type} (d : Desk α) (f : Engine α → Engine α × β) : Desk α × β :=
  let (engine, b) := f d.engine
  ({ d with engine }.tell, b)

def enter (d : Desk α) (name : String) (id : Id) : Registration → Desk α
  | .registered ticket => { d with callers := ⟨name, id, ticket, true⟩ :: d.callers }
  | .refused _ | .impossible => d

def register (d : Desk α) (name : String) (id : Id) (timeout : Option Duration) :
    Desk α × Registration :=
  let (d, r) := d.act fun e => e.register d.now id timeout
  (d.enter name id r, r)

/-- A caller registers a generated identifier. -/
def registerNew (d : Desk α) (name : String) (timeout : Option Duration) :
    Desk α × Registration :=
  let (d, id, r) := d.act fun e => e.registerNew d.now name timeout
  (d.enter name id r, r)

def resolve (d : Desk α) (id : Id) (outcome : Outcome α) : Desk α × Bool :=
  d.act fun e => e.resolve d.now id outcome

def sweep (d : Desk α) : Desk α × Nat := d.act fun e => e.sweep d.now

def shutdown (d : Desk α) : Desk α × Nat := { d with sweeper := none }.act Engine.shutdown

def drop (d : Desk α) : Desk α :=
  ({ d with sweeper := none, gone := true }.act fun e => (e.drop, ())).1

def forget (d : Desk α) (name : String) : Desk α :=
  match d.caller? name with
  | some c =>
    { d with callers := d.callers.map fun x =>
        if x.ticket = c.ticket then { x with listening := false } else x }
  | none => d

def due? (d : Desk α) : Option Duration :=
  match d.sweeper, d.engine.firstExpiry? with
  | some ticker, some expiry => some (ticker.nextAfter d.now expiry)
  | _, _ => none

def sweepAt (t : Duration) (d : Desk α) : Desk α := ({ d with now := d.now.tickFrom t }.sweep).1

def sleep (d : Desk α) (time : Duration) : Desk α :=
  let moment := d.now.tickFrom (d.now + time)
  { runUntil due? sweepAt moment (d.engine.count + 1) d with now := moment }

/-- The clock is set forward; a sweep that was due in between is made up for. -/
def jump (d : Desk α) (time : Duration) : Desk α :=
  let after := { d with now := d.now + time }
  match d.sweeper with
  | some ticker => if ticker.nextAfter d.now d.now ≤ after.now then after.sweep.1 else after
  | none => after

/-- The notes taken since they were last looked at. -/
def collect (d : Desk α) : Desk α × List (Note (Outcome α)) :=
  ({ d with notes := [] }, chronicle d.notes)

end Desk

end AgentGateway.Correlation
