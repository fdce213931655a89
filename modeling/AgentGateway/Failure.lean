/-!
# Failures

Every way in which the gateway can refuse or lose a piece of work, with the text shown to a
person and the classification that decides whether trying again makes sense. A failure is a
plain value: one failure can be handed to a waiting caller and kept for the record at once.
-/

namespace AgentGateway

/-- A cause of failure with its description. The description never carries the category label;
`Failure.display` adds it. A launch that failed is `transient` if a later try may succeed. -/
inductive Failure where
  | config (message : String)
  | launch (message : String) (transient : Bool)
  | timeout (message : String)
  | protocolDecode (message : String)
  | agentFailed (message : String)
  | correlationTimeout (message : String)
  | capacityExceeded (message : String)
  | shutdown (message : String)
  | cancelled (message : String)
  | conflict (message : String)
  | notFound (message : String)
  | ipc (message : String)
  | io (message : String)
  deriving DecidableEq, Repr, Inhabited

namespace Failure

/-- The description without its category label. -/
def message : Failure → String
  | config m | launch m _ | timeout m | protocolDecode m | agentFailed m
  | correlationTimeout m | capacityExceeded m | shutdown m | cancelled m
  | conflict m | notFound m | ipc m | io m => m

/-- The label that introduces the description when a failure is shown. -/
def label : Failure → String
  | config _ => "config"
  | launch _ _ => "launch"
  | timeout _ => "timeout"
  | protocolDecode _ => "protocol decode"
  | agentFailed _ => "agent failed"
  | correlationTimeout _ => "correlation timeout"
  | capacityExceeded _ => "capacity exceeded"
  | shutdown _ => "shutdown"
  | cancelled _ => "cancelled"
  | conflict _ => "conflict"
  | notFound _ => "not found"
  | ipc _ => "ipc"
  | io _ => "io"

/-- The name of the category, as reports and retry classifications spell it. -/
def kind : Failure → String
  | config _ => "Config"
  | launch _ _ => "Launch"
  | timeout _ => "Timeout"
  | protocolDecode _ => "ProtocolDecode"
  | agentFailed _ => "AgentFailed"
  | correlationTimeout _ => "CorrelationTimeout"
  | capacityExceeded _ => "CapacityExceeded"
  | shutdown _ => "Shutdown"
  | cancelled _ => "Cancelled"
  | conflict _ => "Conflict"
  | notFound _ => "NotFound"
  | ipc _ => "Ipc"
  | io _ => "Io"

/-- The failure of a category named by `kind`; `transient` matters for launches only. -/
def ofKind? (kind message : String) (transient : Bool) : Option Failure :=
  [config message, launch message transient, timeout message, protocolDecode message,
    agentFailed message, correlationTimeout message, capacityExceeded message,
    shutdown message, cancelled message, conflict message, notFound message, ipc message,
    io message].find? fun f => f.kind == kind

/-- What a person reads: the label, a colon and the description. -/
def display (f : Failure) : String := f.label ++ ": " ++ f.message

/-- Whether another try may succeed. Only input/output failures and launches marked transient
qualify; running out of time never does. -/
def isTransient : Failure → Bool
  | io _ => true
  | launch _ transient => transient
  | _ => false

theorem isTransient_iff (f : Failure) :
    f.isTransient = true ↔ (∃ m, f = io m) ∨ ∃ m, f = launch m true := by
  cases f <;> simp [isTransient]

end Failure

end AgentGateway
