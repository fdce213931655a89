import AgentGateway.Json.Decode

/-!
# Correlation metadata

What travels beside a message, never inside its body: the identifier that links a reply to its
request, and the address that the reply goes to.
-/

namespace AgentGateway.Correlation

open Json

structure Metadata where
  id : String
  replyTo : String
  deriving DecidableEq, Repr, Inhabited

namespace Metadata

structure Fields where
  id : Option String := none
  replyTo : Option String := none

def member (f : Fields) (key : String) (c : Cursor) : Except Problem (Fields × Cursor) := do
  if key = "correlation_id" then
    let (v, c) ← readField key f.id readText c
    return ({ f with id := v }, c)
  else if key = "reply_to" then
    let (v, c) ← readField key f.replyTo readText c
    return ({ f with replyTo := v }, c)
  else return (f, ← skipField c)

def Fields.metadata (f : Fields) : Except Cause Metadata := do
  return ⟨← require "correlation_id" f.id, ← require "reply_to" f.replyTo⟩

def listForm : String := "struct CorrelationMetadata with 2 elements"

def items (c : Cursor) : Except Problem (Metadata × Cursor) := do
  let (id, c) ← readItem true readText c
  let id ← requireItem 0 listForm id c
  let (replyTo, c) ← readItem false readText c
  let replyTo ← requireItem 1 listForm replyTo c
  return (⟨id, replyTo⟩, c)

def parse (text : List Char) : Except Problem Metadata :=
  readWhole (readStruct "struct CorrelationMetadata" member {} Fields.metadata items) text

end Metadata

end AgentGateway.Correlation
