import AgentGateway.Admission.Basic
import AgentGateway.Timeline

/-!
# Callers at a limiter

Named callers ask for slots, wait with or without a limit, and give slots back, while time passes.
A caller whose wait runs out looks once more whether it has been handed a slot before it gives up.
-/

namespace AgentGateway.Admission

inductive Verdict where
  | admitted (key : String)
  | failed (cause : Failure)
  | crashed
  deriving DecidableEq, Repr, Inhabited

/-- A caller in line. The limit says how long it is willing to wait, and when that ends. -/
structure Visit where
  name : String
  ticket : Ticket
  key : String
  limit : Option (Duration × Duration) := none
  deriving DecidableEq, Repr, Inhabited

structure Holder where
  name : String
  ticket : Ticket
  key : String
  deriving DecidableEq, Repr, Inhabited

structure Desk where
  limiter : Limiter
  now : Duration := .zero
  waiting : List Visit := []
  holders : List Holder := []
  issued : Nat := 0
  notes : List (Note Verdict) := []
  deriving Repr, Inhabited

namespace Desk

def note (d : Desk) (who : String) (what : Verdict) : Desk :=
  { d with notes := d.notes ++ [⟨d.now.millis, who, what⟩] }

/-- Notes the answer to a caller; one that has to wait is put on the list. -/
def settle (d : Desk) (v : Visit) : Answer → Desk
  | .granted =>
    { d with holders := ⟨v.name, v.ticket, v.key⟩ :: d.holders }.note v.name (.admitted v.key)
  | .refused cause => d.note v.name (.failed cause)
  | .impossible => d.note v.name .crashed
  | .waiting => { d with waiting := d.waiting ++ [v] }

/-- All callers in line look whether they have been handed a slot. -/
def checkAll (d : Desk) : Desk :=
  d.waiting.foldl (fun (d : Desk) (v : Visit) =>
    let (limiter, answer) := d.limiter.check v.key v.ticket
    { d with limiter }.settle v answer) { d with waiting := [] }

/-- A caller asks for a slot and waits for it. -/
def acquire (d : Desk) (name key : String) (override : Option Nat) : Desk :=
  let (limiter, answer) := d.limiter.request key override d.issued
  { d with limiter, issued := d.issued + 1 }.settle ⟨name, d.issued, key, none⟩ answer

/-- A caller asks for a slot that is free at once. -/
def tryAcquire (d : Desk) (name key : String) (override : Option Nat) : Desk :=
  let (limiter, answer) := d.limiter.tryRequest key override d.issued
  { d with limiter, issued := d.issued + 1 }.settle ⟨name, d.issued, key, none⟩ answer

def due? (d : Desk) : Option Duration :=
  earliest? (d.waiting.filterMap fun v => v.limit.map (·.2))

/-- A caller whose wait has run out looks once more and then gives up. -/
def giveUp (d : Desk) (v : Visit) (wait : Duration) : Desk :=
  match d.limiter.check v.key v.ticket with
  | (limiter, .waiting) =>
    { d with limiter := limiter.leave v.key v.ticket }.note v.name
      (.failed (waitedOut v.key wait))
  | (limiter, answer) => { d with limiter }.settle v answer

def expire (t : Duration) (d : Desk) : Desk :=
  let d := { d with now := if d.now ≤ t then t else d.now }
  (d.waiting.foldl (fun (d : Desk) (v : Visit) =>
    match v.limit with
    | some (wait, deadline) =>
      if deadline ≤ t then d.giveUp v wait else { d with waiting := d.waiting ++ [v] }
    | none => { d with waiting := d.waiting ++ [v] }) { d with waiting := [] }).checkAll

def runTo (d : Desk) (moment : Duration) : Desk :=
  runUntil due? expire moment (d.waiting.length + 1) d

/-- A caller asks for a slot and waits for it, but not longer than it says. -/
def acquireWithin (d : Desk) (name key : String) (override : Option Nat) (wait : Duration) :
    Desk :=
  let (limiter, answer) := d.limiter.request key override d.issued
  let visit : Visit := ⟨name, d.issued, key, some (wait, (d.now + wait).tick)⟩
  ({ d with limiter, issued := d.issued + 1 }.settle visit answer).runTo d.now

/-- A caller gives its slot back, if it has one. -/
def release (d : Desk) (name : String) : Desk × Bool :=
  match d.holders.find? (·.name == name) with
  | some h =>
    ({ d with
      holders := d.holders.filter (·.ticket != h.ticket)
      limiter := d.limiter.release h.key h.ticket }.checkAll, true)
  | none => (d, false)

def abort (d : Desk) (name : String) : Desk :=
  match d.waiting.find? (·.name == name) with
  | some v =>
    { d with
      waiting := d.waiting.filter (·.ticket != v.ticket)
      limiter := d.limiter.leave v.key v.ticket }.checkAll
  | none => d

def close (d : Desk) : Desk := { d with limiter := d.limiter.close }.checkAll

def sleep (d : Desk) (time : Duration) : Desk :=
  let moment := (d.now + time).tick
  { d.runTo moment with now := moment }

/-- The notes taken since they were last looked at. -/
def collect (d : Desk) : Desk × List (Note Verdict) :=
  ({ d with notes := [] }, chronicle d.notes)

end Desk

end AgentGateway.Admission
