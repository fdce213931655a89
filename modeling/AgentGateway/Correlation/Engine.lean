import AgentGateway.Failure
import AgentGateway.Timeline

/-!
# Pending replies

A request that travels by itself is tied to its reply by an identifier. The engine keeps one
entry for each identifier that a reply is awaited for, and gives each awaiting party exactly one
outcome: the value or failure of the reply, or the failure that the reply was overdue, that the
engine was shut down, or that it is gone. An entry is overdue from the moment at which it
expires, whether or not anybody has looked at it since.
-/

namespace AgentGateway.Correlation

/-- An identifier: one that a caller chose, or a generated one. Generated identifiers with
different numbers differ; they are shown by the name that they go by. -/
inductive Id where
  | given (text : String)
  | generated (number : Nat) (name : String)
  deriving DecidableEq, Repr, Inhabited

def Id.text : Id → String
  | given text => text
  | generated _ name => "<" ++ name ++ ">"

/-- An entry: a reply is awaited by the party with the given ticket. -/
structure Pending where
  id : Id
  ticket : Nat
  expiresAt : Duration
  deriving DecidableEq, Repr, Inhabited

abbrev Outcome (α : Type) := Except Failure α

/-- The entries, and the outcomes that have been given out, the latest first. Tickets are numbered
as they are `issued`. -/
structure Engine (α : Type) where
  defaultTimeout : Duration
  entries : List Pending := []
  closed : Bool := false
  issued : Nat := 0
  outcomes : List (Nat × Outcome α) := []
  deriving Inhabited

/-- What a registration leads to. It is `impossible` if the clock cannot show the moment of expiry.
-/
inductive Registration where
  | registered (ticket : Nat)
  | refused (cause : Failure)
  | impossible
  deriving DecidableEq, Repr, Inhabited

def isShutDown : Failure := .shutdown "correlation engine is shut down"

def alreadyPending (id : Id) : Failure :=
  .conflict ("correlation id '" ++ id.text ++ "' is already pending")

def overdue (id : Id) : Failure :=
  .correlationTimeout ("no reply for '" ++ id.text ++ "' before expiry")

def shutDownBefore (id : Id) : Failure :=
  .shutdown ("correlation engine shut down before reply to '" ++ id.text ++ "'")

def engineGone : Failure := .shutdown "correlation engine dropped before a reply arrived"

def Pending.isOverdue (now : Duration) (p : Pending) : Bool := p.expiresAt ≤ now

namespace Engine

variable {α : Type}

def find? (e : Engine α) (id : Id) : Option Pending := e.entries.find? (·.id == id)

/-- Whether a reply is awaited under an identifier. -/
def contains (e : Engine α) (id : Id) : Bool := e.entries.any (·.id == id)

def count (e : Engine α) : Nat := e.entries.length

def remove (e : Engine α) (id : Id) : Engine α :=
  { e with entries := e.entries.filter (·.id != id) }

/-- Gives the party of an entry its outcome. -/
def deliver (e : Engine α) (p : Pending) (outcome : Outcome α) : Engine α :=
  { e with outcomes := (p.ticket, outcome) :: e.outcomes }

/-- Takes an overdue entry out and tells its party. -/
def expire (e : Engine α) (p : Pending) : Engine α :=
  (e.remove p.id).deliver p (.error (overdue p.id))

/-- Awaits a reply under an identifier that nobody awaits a reply under. -/
def insert (e : Engine α) (now : Duration) (id : Id) (timeout : Duration) :
    Engine α × Registration :=
  let expiresAt := now + timeout
  if Ticker.Showable expiresAt then
    ({ e with
      entries := e.entries ++ [⟨id, e.issued, expiresAt⟩]
      issued := e.issued + 1 }, .registered e.issued)
  else (e, .impossible)

/-- Awaits a reply under an identifier. An entry of the same identifier stands in the way unless
it is overdue. -/
def register (e : Engine α) (now : Duration) (id : Id) (timeout : Option Duration) :
    Engine α × Registration :=
  if e.closed then (e, .refused isShutDown)
  else
    let timeout := timeout.getD e.defaultTimeout
    match e.find? id with
    | some p =>
      if p.isOverdue now then (e.expire p).insert now id timeout
      else (e, .refused (alreadyPending id))
    | none => e.insert now id timeout

/-- Awaits a reply under a generated identifier. -/
def registerNew (e : Engine α) (now : Duration) (name : String) (timeout : Option Duration) :
    Engine α × Id × Registration :=
  let id := .generated e.issued name
  let (e, r) := e.register now id timeout
  (e, id, r)

/-- A reply arrives: its entry is taken out, and its party gets the outcome unless the entry is
overdue. Tells whether the reply was delivered. -/
def resolve (e : Engine α) (now : Duration) (id : Id) (outcome : Outcome α) : Engine α × Bool :=
  match e.find? id with
  | none => (e, false)
  | some p =>
    if p.isOverdue now then (e.expire p, false)
    else ((e.remove id).deliver p outcome, true)

def complete (e : Engine α) (now : Duration) (id : Id) (value : α) : Engine α × Bool :=
  e.resolve now id (.ok value)

def fail (e : Engine α) (now : Duration) (id : Id) (cause : Failure) : Engine α × Bool :=
  e.resolve now id (.error cause)

/-- Takes all overdue entries out and tells their parties; gives their number. -/
def sweep (e : Engine α) (now : Duration) : Engine α × Nat :=
  let gone := e.entries.filter (·.isOverdue now)
  (gone.foldl expire e, gone.length)

/-- Takes all entries out, tells their parties, and takes no more; gives their number. -/
def shutdown (e : Engine α) : Engine α × Nat :=
  let told := e.entries.foldl (fun e p => e.deliver p (.error (shutDownBefore p.id))) e
  ({ told with entries := [], closed := true }, e.entries.length)

/-- The engine goes away; whoever still awaits a reply is told. -/
def drop (e : Engine α) : Engine α :=
  let told := e.entries.foldl (fun e p => e.deliver p (.error engineGone)) e
  { told with entries := [], closed := true }

def outcome? (e : Engine α) (ticket : Nat) : Option (Outcome α) := e.outcomes.lookup ticket

def firstExpiry? (e : Engine α) : Option Duration := earliest? (e.entries.map (·.expiresAt))

end Engine

end AgentGateway.Correlation
