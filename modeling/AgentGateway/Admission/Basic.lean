import AgentGateway.Config.Basic
import AgentGateway.Failure

/-!
# Admission

Each key has a pool of slots, made when the key is first used and never resized. A request takes a
free slot or waits in line; a slot that comes back goes to the first in line. Between the moment
at which a slot is handed to a waiting request and the moment at which the request notices, the
slot belongs to neither the free ones nor the held ones. A closed limiter admits nothing more, but
slots that are held stay held until they are given back.
-/

namespace AgentGateway.Admission

/-- What names a request, and later the slot that it holds. -/
abbrev Ticket := Nat

/-- The slots of one key. Of its `capacity` some are `free`, some are `held`, and some were `handed`
to requests that have not noticed yet. The other requests are in line. -/
structure Pool where
  capacity : Nat
  free : Nat
  held : List Ticket := []
  handed : List Ticket := []
  line : List Ticket := []
  closed : Bool := false
  deriving DecidableEq, Repr, Inhabited

/-- What a request learns when it asks for a slot. It is `impossible` to make a pool that is too
large. -/
inductive Answer where
  | granted
  | waiting
  | refused (cause : Failure)
  | impossible
  deriving DecidableEq, Repr, Inhabited

def poolClosed (key : String) : Failure := .shutdown ("admission pool '" ++ key ++ "' is closed")

def limiterClosed (key : String) : Failure :=
  .shutdown ("admission limiter is closed, no pool for '" ++ key ++ "'")

/-- The failure of a request that does not want to wait. -/
def poolFull (key : String) : Failure :=
  .capacityExceeded ("admission pool '" ++ key ++ "' is full")

def waitedOut (key : String) (wait : Duration) : Failure :=
  .capacityExceeded ("no admission slot for '" ++ key ++ "' within " ++ wait.format)

namespace Pool

def ofCapacity (n : Nat) : Pool := { capacity := n, free := n }

def enter (key : String) (t : Ticket) (p : Pool) : Pool × Answer :=
  if p.closed then (p, .refused (poolClosed key))
  else if 0 < p.free then ({ p with free := p.free - 1, held := t :: p.held }, .granted)
  else ({ p with line := p.line ++ [t] }, .waiting)

def tryEnter (key : String) (t : Ticket) (p : Pool) : Pool × Answer :=
  if p.closed then (p, .refused (poolClosed key))
  else if 0 < p.free then ({ p with free := p.free - 1, held := t :: p.held }, .granted)
  else (p, .refused (poolFull key))

/-- A slot comes back: the first in line gets it. Nobody waits in line at a closed pool. -/
def give (p : Pool) : Pool :=
  match p.closed, p.line with
  | false, t :: rest => { p with line := rest, handed := p.handed ++ [t] }
  | _, _ => { p with free := p.free + 1 }

/-- Leaves the line; a slot that was handed over already goes on to the next. -/
def leave (t : Ticket) (p : Pool) : Pool :=
  if t ∈ p.handed then give { p with handed := p.handed.erase t }
  else { p with line := p.line.erase t }

/-- A request in line looks whether it has been handed a slot. At a closed pool it fails, and a
slot that was handed to it comes back. -/
def check (key : String) (t : Ticket) (p : Pool) : Pool × Answer :=
  if p.closed then (leave t p, .refused (poolClosed key))
  else if t ∈ p.handed then
    ({ p with handed := p.handed.erase t, held := t :: p.held }, .granted)
  else (p, .waiting)

/-- Gives a slot back; a request that holds none gives nothing. -/
def release (t : Ticket) (p : Pool) : Pool :=
  if t ∈ p.held then give { p with held := p.held.erase t } else p

def close (p : Pool) : Pool := { p with closed := true }

end Pool

/-- The pools of all keys that have been used, and how large the others will be. -/
structure Limiter where
  defaultCapacity : Nat
  named : List (String × Nat) := []
  pools : List (String × Pool) := []
  closed : Bool := false
  deriving DecidableEq, Repr, Inhabited

namespace Limiter

def maxCapacity : Nat := 2305843009213693951

/-- A limiter without limits of single keys; every key has at least one slot. -/
def ofDefault (n : Nat) : Limiter := { defaultCapacity := max n 1 }

def ofConfig (c : Config.Concurrency) : Limiter :=
  { defaultCapacity := max c.defaultLimit 1, named := c.limits }

/-- The size of a pool that is made without an override. -/
def configuredCapacity (l : Limiter) (key : String) : Nat :=
  (l.named.lookup key).getD l.defaultCapacity

/-- The size of the pool that a request makes. -/
def sizeFor (l : Limiter) (key : String) (override : Option Nat) : Nat :=
  max (override.getD (l.configuredCapacity key)) 1

def pool? (l : Limiter) (key : String) : Option Pool := l.pools.lookup key

def available (l : Limiter) (key : String) : Option Nat := (l.pool? key).map (·.free)

def setPool (l : Limiter) (key : String) (p : Pool) : Limiter :=
  { l with pools := l.pools.map fun e => if e.1 = key then (key, p) else e }

def modifyPool (l : Limiter) (key : String) (f : Pool → Pool) : Limiter :=
  { l with pools := l.pools.map fun e => if e.1 = key then (key, f e.2) else e }

def addPool (l : Limiter) (key : String) (p : Pool) : Limiter :=
  { l with pools := l.pools ++ [(key, p)] }

/-- Asks the pool of a key, which is made if need be; `override` counts only then. -/
def ask (enter : Pool → Pool × Answer) (key : String) (override : Option Nat) (l : Limiter) :
    Limiter × Answer :=
  match l.pool? key with
  | some p =>
    let (p, answer) := enter p
    (l.setPool key p, answer)
  | none =>
    if l.closed then (l, .refused (limiterClosed key))
    else
      let size := l.sizeFor key override
      if maxCapacity < size then (l, .impossible)
      else
        let (p, answer) := enter (.ofCapacity size)
        (l.addPool key p, answer)

def request (l : Limiter) (key : String) (override : Option Nat) (t : Ticket) :
    Limiter × Answer :=
  l.ask (Pool.enter key t) key override

def tryRequest (l : Limiter) (key : String) (override : Option Nat) (t : Ticket) :
    Limiter × Answer :=
  l.ask (Pool.tryEnter key t) key override

/-- A waiting request looks whether it has been handed a slot. -/
def check (l : Limiter) (key : String) (t : Ticket) : Limiter × Answer :=
  match l.pool? key with
  | some p =>
    let (p, answer) := p.check key t
    (l.setPool key p, answer)
  | none => (l, .waiting)

def leave (l : Limiter) (key : String) (t : Ticket) : Limiter := l.modifyPool key (Pool.leave t)

def release (l : Limiter) (key : String) (t : Ticket) : Limiter :=
  l.modifyPool key (Pool.release t)

/-- Ends all waiting and admits nothing more. -/
def close (l : Limiter) : Limiter :=
  { l with closed := true, pools := l.pools.map fun e => (e.1, e.2.close) }

end Limiter

end AgentGateway.Admission
