import AgentGateway.Json.Decode

/-!
# Prompts

One request to the agent: the text for its standard input and, when the caller gives them, a
budget of tokens and a time limit. A prompt may be written as an object or as the list of its
fields.
-/

namespace AgentGateway

open Json

/-- A prompt with its limits. The timeout policy looks at the number of tokens, unless there is a
time limit, which goes before the policy's. -/
structure Prompt where
  text : String
  maxTokens : Option Nat := none
  timeoutSeconds : Option Nat := none
  deriving DecidableEq, Repr, Inhabited

namespace Prompt

structure Fields where
  text : Option String := none
  maxTokens : Option (Option Nat) := none
  timeoutSeconds : Option (Option Nat) := none

def member (f : Fields) (key : String) (c : Cursor) : Except Problem (Fields × Cursor) := do
  if key = "prompt" then
    let (v, c) ← readField key f.text readText c
    return ({ f with text := v }, c)
  else if key = "max_tokens" then
    let (v, c) ← readField key f.maxTokens (readOption readUnsigned32) c
    return ({ f with maxTokens := v }, c)
  else if key = "timeout_seconds" then
    let (v, c) ← readField key f.timeoutSeconds (readOption readUnsigned64) c
    return ({ f with timeoutSeconds := v }, c)
  else return (f, ← skipField c)

/-- The prompt, provided that its text was given. -/
def Fields.prompt (f : Fields) : Except Cause Prompt :=
  (require "prompt" f.text).map fun text => ⟨text, f.maxTokens.join, f.timeoutSeconds.join⟩

def items (c : Cursor) : Except Problem (Prompt × Cursor) := do
  let (text, c) ← readItem true readText c
  let text ← requireItem 0 "struct AgentRequest with 3 elements" text c
  let (maxTokens, c) ← readItem false (readOption readUnsigned32) c
  let (timeoutSeconds, c) ← readItem false (readOption readUnsigned64) c
  return (⟨text, maxTokens.join, timeoutSeconds.join⟩, c)

def read (c : Cursor) : Except Problem (Prompt × Cursor) :=
  readStruct "struct AgentRequest" member {} Fields.prompt items c

def parse (text : List Char) : Except Problem Prompt := readWhole read text

end Prompt

end AgentGateway
