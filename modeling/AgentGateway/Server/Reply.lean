import AgentGateway.Correlation.Engine
import AgentGateway.Json.Printer
import AgentGateway.Session.Registry
import AgentGateway.Stream.Event

/-!
# Replies

What the server writes to a peer, one reply per line. Every command leads to one last reply; a
prompt that is run leads to a reply for each of its events before that.
-/

namespace AgentGateway.Server

open Correlation (Id)

inductive Reply where
  | event (e : Event)
  | pong
  | response (r : Response)
  | sessions (infos : List (Session.Info Id))
  | error (text : String)
  deriving Repr, Inhabited

namespace Reply

def isLast : Reply → Bool
  | event _ => false
  | _ => true

/-- The reply to a prompt that was run or asked for. -/
def ofResult : Except Failure Response → Reply
  | .ok r => .response r
  | .error f => .error f.display

/-- Whether the command has not failed, and under some key what there is to say. -/
def members (ok : Bool) (key : String) (v : Json) : Json.Members := [("ok", .bool ok), (key, v)]

/-- The sessions as data; `name` and `stamp` say how identifiers and moments are written. -/
def sessionsJson (name : Id → Json) (stamp : Duration → Json) (infos : List (Session.Info Id)) :
    Json :=
  .ofMembers [("sessions", .array (infos.map fun i =>
    .ofMembers [("session_id", name i.id), ("connected_at", stamp i.connectedAt),
      ("idle_seconds", .ofNat i.idleSeconds)]))]

/-- The wire form; `object` says how the objects of the reply itself are made of their members. -/
def shape (object : Json.Members → Json) (name : Id → Json) (stamp : Duration → Json) :
    Reply → Json
  | event e => object (members true "event" (e.shape object))
  | pong => object (members true "data" (.ofMembers [("pong", .bool true)]))
  | response r => object (members true "data" (.ofMembers [("response", r.toJson)]))
  | sessions infos => object (members true "data" (sessionsJson name stamp infos))
  | error text => object (members false "error" (.string text))

def toJson (name : Id → Json) (stamp : Duration → Json) : Reply → Json :=
  shape .ofMembers name stamp

def line (name : Id → Json) (stamp : Duration → Json) (r : Reply) : String :=
  (r.shape .object name stamp).print ++ "\n"

end Reply

end AgentGateway.Server
