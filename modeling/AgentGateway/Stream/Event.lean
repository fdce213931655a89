import AgentGateway.Failure
import AgentGateway.Stream.Usage

/-!
# Events and responses

An agent's output arrives as a sequence of events: fragments of text, tool calls, and one event
that ends the stream. The response is what has been gathered from them by the end.
-/

namespace AgentGateway

structure ToolCall where
  name : String
  arguments : Json.Members
  deriving Repr, Inhabited, BEq

/-- A unit of the agent's output: a fragment of the answer, the call of a tool, the end of the
stream with the usage of the whole stream, an error that the agent or the end of its output
reported, or a line that could not be decoded, after which the stream goes on. -/
inductive Event where
  | partialContent (text : String)
  | toolInvocation (call : ToolCall)
  | completion (usage : Usage)
  | failed (message : String)
  | undecodable (message line : String)
  deriving Repr, Inhabited, BEq

inductive Verdict where
  | completed
  | failed (message : String)
  | incomplete
  deriving DecidableEq, Repr, Inhabited

structure Response where
  content : String
  toolCalls : List ToolCall
  usage : Usage
  outcome : Verdict
  decodeFailures : Nat
  deriving Repr, Inhabited, BEq

namespace Event

def isTerminal : Event → Bool
  | completion _ | failed _ => true
  | partialContent _ | toolInvocation _ | undecodable _ _ => false

/-- The wire form of an event; `object` says how an object is made of its members. -/
def shape (object : Json.Members → Json) : Event → Json
  | partialContent text =>
    object [("type", .string "partial_content"), ("text", .string text)]
  | toolInvocation call =>
    object [("type", .string "tool_invocation"), ("name", .string call.name),
      ("arguments", .object call.arguments)]
  | completion usage =>
    object [("type", .string "completion"), ("terminal", .bool true),
      ("usage", object usage.members)]
  | failed message =>
    object [("type", .string "error"), ("message", .string message),
      ("decode_failure", .bool false)]
  | undecodable message line =>
    object [("type", .string "error"), ("message", .string message),
      ("raw_line", .string line), ("decode_failure", .bool true)]

def toJson : Event → Json := shape .ofMembers

end Event

namespace Verdict

def toJson : Verdict → Json
  | completed => .ofMembers [("status", .string "completed")]
  | failed message => .ofMembers [("status", .string "failed"), ("message", .string message)]
  | incomplete => .ofMembers [("status", .string "incomplete")]

end Verdict

namespace ToolCall

def toJson (call : ToolCall) : Json :=
  .ofMembers [("name", .string call.name), ("arguments", .object call.arguments)]

end ToolCall

namespace Response

def toJson (r : Response) : Json :=
  .ofMembers [("content", .string r.content),
    ("tool_calls", .array (r.toolCalls.map ToolCall.toJson)),
    ("usage", r.usage.toJson), ("outcome", r.outcome.toJson),
    ("decode_failures", .ofNat r.decodeFailures)]

/-- Whether the stream ended with a completion. -/
def isComplete (r : Response) : Bool := r.outcome == .completed

def noTerminal : String := "stream ended without terminal event"

/-- The response if it is complete, and otherwise the reason why it is not. -/
def intoCompleted (r : Response) : Except Failure Response :=
  match r.outcome with
  | .completed => .ok r
  | .failed message => .error (.agentFailed message)
  | .incomplete => .error (.agentFailed noTerminal)

end Response

end AgentGateway
