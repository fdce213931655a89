/-!
# Bounded channels

A channel holds a bounded number of items. A sender that finds no room waits with its item, and
moves up in the order of arrival when an item is taken. Once the receiving side is gone, nothing
can be sent any more, and what was in the channel or waiting for it is lost.
-/

namespace AgentGateway.Bus

/-- A channel with the items that wait for room. Each side may have gone away: `received` and `sent`
say whether it is there. -/
structure Channel (α : Type) where
  capacity : Nat
  items : List α := []
  waiting : List α := []
  received : Bool := true
  sent : Bool := true
  deriving Repr, Inhabited

namespace Channel

variable {α : Type}

def hasRoom (c : Channel α) : Bool := c.waiting.isEmpty && c.items.length < c.capacity

/-- Sends an item, which may have to wait for room; fails if nobody receives. -/
def send? (c : Channel α) (x : α) : Option (Channel α) :=
  if !c.received then none
  else if c.hasRoom then some { c with items := c.items ++ [x] }
  else some { c with waiting := c.waiting ++ [x] }

def trySend? (c : Channel α) (x : α) : Option (Channel α) :=
  if c.received && c.hasRoom then some { c with items := c.items ++ [x] } else none

/-- Moves the first waiting item up, if there is room. -/
def moveUp (c : Channel α) : Channel α :=
  match c.waiting with
  | x :: rest =>
    if c.items.length < c.capacity then { c with items := c.items ++ [x], waiting := rest } else c
  | [] => c

def receive? (c : Channel α) : Option (α × Channel α) :=
  match c.items with
  | x :: rest => some (x, { c with items := rest }.moveUp)
  | [] => none

def hangUp (c : Channel α) : Channel α :=
  { c with items := [], waiting := [], received := false }

def finish (c : Channel α) : Channel α := { c with sent := false }

def isExhausted (c : Channel α) : Bool := !c.sent && c.items.isEmpty && c.waiting.isEmpty

end Channel

end AgentGateway.Bus
