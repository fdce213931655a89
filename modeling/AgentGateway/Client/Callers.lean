import AgentGateway.Client.Desk

/-!
# Callers

Callers with names make calls, hear what their calls tell them, and may hang up.
-/

namespace AgentGateway.Client

/-- The calls, and who made them, the latest first. -/
structure Callers where
  desk : Desk
  names : List (String × Admission.Ticket) := []

namespace Callers

def call (c : Callers) (name key : String) (prompt : Prompt) (streams : Bool) : Callers :=
  let (desk, t) := c.desk.start key prompt streams
  { desk := desk.settle, names := (name, t) :: c.names }

def hangUp (c : Callers) (name : String) : Callers :=
  match c.names.lookup name with
  | some t => { c with desk := (c.desk.drop t).settle }
  | none => c

def shut (c : Callers) : Callers := { c with desk := c.desk.shut.settle }

def sleep (c : Callers) (time : Duration) : Callers := { c with desk := c.desk.sleep time }

def nameOf (c : Callers) (t : Admission.Ticket) : String :=
  ((c.names.find? (·.2 == t)).map (·.1)).getD ""

/-- What callers have heard since this was last asked. -/
def collect (c : Callers) : Callers × List (Note Message) :=
  let (desk, messages) := c.desk.collect
  ({ c with desk }, chronicle (messages.map fun (t, time, m) => ⟨time.millis, c.nameOf t, m⟩))

end Callers

end AgentGateway.Client
