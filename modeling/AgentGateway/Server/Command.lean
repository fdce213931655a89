import AgentGateway.Client.Basic
import AgentGateway.Prompt

/-!
# Commands

A peer writes one command per line: a verb, and for some verbs a prompt with its limits and the
key of its caller. A command may be written as an object or as the list of its fields.
-/

namespace AgentGateway.Server

open Json

structure Command where
  verb : String
  prompt : Option String := none
  key : Option String := none
  timeoutSeconds : Option Nat := none
  maxTokens : Option Nat := none
  deriving DecidableEq, Repr, Inhabited

namespace Command

structure Fields where
  verb : Option String := none
  prompt : Option (Option String) := none
  key : Option (Option String) := none
  timeoutSeconds : Option (Option Nat) := none
  maxTokens : Option (Option Nat) := none

def member (f : Fields) (name : String) (c : Cursor) : Except Problem (Fields × Cursor) := do
  if name = "command" then
    let (v, c) ← readField name f.verb readText c
    return ({ f with verb := v }, c)
  else if name = "prompt" then
    let (v, c) ← readField name f.prompt (readOption readText) c
    return ({ f with prompt := v }, c)
  else if name = "key" then
    let (v, c) ← readField name f.key (readOption readText) c
    return ({ f with key := v }, c)
  else if name = "timeout_seconds" then
    let (v, c) ← readField name f.timeoutSeconds (readOption readUnsigned64) c
    return ({ f with timeoutSeconds := v }, c)
  else if name = "max_tokens" then
    let (v, c) ← readField name f.maxTokens (readOption readUnsigned32) c
    return ({ f with maxTokens := v }, c)
  else return (f, ← skipField c)

/-- The command, provided that its verb was given. -/
def Fields.command (f : Fields) : Except Cause Command :=
  (require "command" f.verb).map fun verb =>
    ⟨verb, f.prompt.join, f.key.join, f.timeoutSeconds.join, f.maxTokens.join⟩

def listForm : String := "struct IpcRequest with 5 elements"

/-- Reads the fields of a command that is written as a list; none may be left out. -/
def items (c : Cursor) : Except Problem (Command × Cursor) := do
  let (verb, c) ← readItem true readText c
  let verb ← requireItem 0 listForm verb c
  let (prompt, c) ← readItem false (readOption readText) c
  let prompt ← requireItem 1 listForm prompt c
  let (key, c) ← readItem false (readOption readText) c
  let key ← requireItem 2 listForm key c
  let (timeoutSeconds, c) ← readItem false (readOption readUnsigned64) c
  let timeoutSeconds ← requireItem 3 listForm timeoutSeconds c
  let (maxTokens, c) ← readItem false (readOption readUnsigned32) c
  let maxTokens ← requireItem 4 listForm maxTokens c
  return (⟨verb, prompt, key, timeoutSeconds, maxTokens⟩, c)

def parse (line : List Char) : Except Problem Command :=
  readWhole (readStruct "struct IpcRequest" member {} Fields.command items) line

def errand? (c : Command) : Option (String × Prompt) :=
  c.prompt.map fun text => (c.key.getD Client.defaultKey, ⟨text, c.maxTokens, c.timeoutSeconds⟩)

end Command

end AgentGateway.Server
