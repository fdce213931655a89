import AgentGateway.Correlation.Engine
import AgentGateway.Session.Registry
import AgentGateway.Timeline

/-!
# A registry and its sweepers

Sessions come, act and go while time passes, and any number of sweepers remove idle sessions at
regular times.
-/

namespace AgentGateway.Session

open Correlation (Id)

/-- A task that removes idle sessions at regular times. One that could not start or was stopped does
not. -/
structure Sweeper where
  maxIdle : Duration
  ticker : Option Ticker
  deriving DecidableEq, Repr, Inhabited

/-- A registry of named connections with its sweepers, and the identifiers that have been generated,
the latest first. -/
structure Desk where
  registry : Registry Id String
  sweepers : List Sweeper := []
  now : Duration := .zero
  issued : Nat := 0
  names : List (String × Id) := []
  deriving Repr, Inhabited

namespace Desk

def register (d : Desk) (name connection : String) : Except Failure Desk := do
  let id := .generated d.issued name
  let registry ← d.registry.register d.now id connection
  return { d with registry, issued := d.issued + 1, names := (name, id) :: d.names }

def registerAs (d : Desk) (id connection : String) : Except Failure Desk := do
  return { d with registry := ← d.registry.register d.now (.given id) connection }

def get (d : Desk) (id : Id) : Desk × Option String :=
  let (registry, connection) := d.registry.get d.now id
  ({ d with registry }, connection)

def touch (d : Desk) (id : Id) : Desk × Bool :=
  let (registry, known) := d.registry.touch d.now id
  ({ d with registry }, known)

def unregister (d : Desk) (id : Id) : Desk := { d with registry := d.registry.unregister id }

def cleanup (d : Desk) (maxIdle : Duration) : Desk × Nat :=
  let (registry, removed) := d.registry.cleanup d.now maxIdle
  ({ d with registry }, removed)

def clear (d : Desk) : Desk × Nat :=
  let (registry, removed) := d.registry.clear
  ({ d with registry }, removed)

def startSweeper (d : Desk) (maxIdle period : Duration) : Desk :=
  { d with sweepers := d.sweepers ++ [⟨maxIdle, Ticker.start? d.now period⟩] }

def stopSweepers (d : Desk) : Desk :=
  { d with sweepers := d.sweepers.map fun s => { s with ticker := none } }

/-- When the next sweep finds something: the first tick at which a session has been idle for
longer than the sweeper allows. -/
def due? (d : Desk) : Option Duration :=
  earliest? (d.sweepers.flatMap fun s =>
    match s.ticker with
    | some ticker => d.registry.entries.map fun e =>
        ticker.nextAfter d.now ⟨e.lastActivity.nanos + s.maxIdle.nanos + 1⟩
    | none => [])

def sweepAt (t : Duration) (d : Desk) : Desk :=
  d.sweepers.foldl (fun (d : Desk) s =>
    match s.ticker with
    | some ticker => if ticker.next t = t then (d.cleanup s.maxIdle).1 else d
    | none => d) { d with now := d.now.tickFrom t }

def sleep (d : Desk) (time : Duration) : Desk :=
  let moment := d.now.tickFrom (d.now + time)
  { runUntil due? sweepAt moment (d.registry.count + 1) d with now := moment }

/-- The clock is set forward; sweeps that were due in between are made up for. -/
def jump (d : Desk) (time : Duration) : Desk :=
  let moment := d.now + time
  d.sweepers.foldl (fun (r : Desk) s =>
    match s.ticker with
    | some ticker => if ticker.nextAfter d.now d.now ≤ moment then (r.cleanup s.maxIdle).1 else r
    | none => r) { d with now := moment }

end Desk

end AgentGateway.Session
