import AgentGateway.Failure
import AgentGateway.Duration

/-!
# Sessions

A bounded registry of connections. Each session knows when it was last active, and sessions that
have been idle for too long can be removed. A session that registers again keeps its identifier
and counts as new in every other respect.
-/

namespace AgentGateway.Session

structure Entry (ι γ : Type) where
  id : ι
  connection : γ
  connectedAt : Duration
  lastActivity : Duration
  deriving DecidableEq, Repr, Inhabited

structure Registry (ι γ : Type) where
  maxSessions : Nat
  entries : List (Entry ι γ) := []
  deriving DecidableEq, Repr, Inhabited

structure Info (ι : Type) where
  id : ι
  connectedAt : Duration
  idleSeconds : Nat
  deriving DecidableEq, Repr, Inhabited

def limitReached (max : Nat) : Failure :=
  .capacityExceeded ("session limit of " ++ toString max ++ " reached")

namespace Registry

variable {ι γ : Type} [DecidableEq ι]

def count (r : Registry ι γ) : Nat := r.entries.length

def find? (r : Registry ι γ) (id : ι) : Option (Entry ι γ) :=
  r.entries.find? fun e => decide (e.id = id)

def contains (r : Registry ι γ) (id : ι) : Bool := (r.find? id).isSome

def unregister (r : Registry ι γ) (id : ι) : Registry ι γ :=
  { r with entries := r.entries.filter fun e => decide (e.id ≠ id) }

/-- Registers a connection. One that is there already is replaced; a new one needs room. -/
def register (r : Registry ι γ) (now : Duration) (id : ι) (connection : γ) :
    Except Failure (Registry ι γ) :=
  if !r.contains id ∧ r.maxSessions ≤ r.count then .error (limitReached r.maxSessions)
  else
    let r := r.unregister id
    .ok { r with entries := r.entries ++ [⟨id, connection, now, now⟩] }

/-- Notes that a session was active; tells whether there is one. -/
def touch (r : Registry ι γ) (now : Duration) (id : ι) : Registry ι γ × Bool :=
  if r.contains id then
    ({ r with entries := r.entries.map fun e =>
        if e.id = id then { e with lastActivity := now } else e }, true)
  else (r, false)

/-- The connection of a session, which counts as active by being asked for. -/
def get (r : Registry ι γ) (now : Duration) (id : ι) : Registry ι γ × Option γ :=
  let connection := (r.find? id).map (·.connection)
  ((r.touch now id).1, connection)

def Entry.idle (now : Duration) (e : Entry ι γ) : Duration :=
  ⟨now.nanos - e.lastActivity.nanos⟩

/-- Removes the sessions that have been idle for longer than `maxIdle`; gives their number. -/
def cleanup (r : Registry ι γ) (now maxIdle : Duration) : Registry ι γ × Nat :=
  let kept := r.entries.filter fun e => decide (Entry.idle now e ≤ maxIdle)
  ({ r with entries := kept }, r.entries.length - kept.length)

/-- Removes all sessions; gives their number. -/
def clear (r : Registry ι γ) : Registry ι γ × Nat := ({ r with entries := [] }, r.count)

def list (r : Registry ι γ) (now : Duration) : List (Info ι) :=
  r.entries.map fun e => ⟨e.id, e.connectedAt, (Entry.idle now e).seconds⟩

end Registry

end AgentGateway.Session
