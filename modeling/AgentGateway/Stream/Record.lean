import AgentGateway.Json.Decode
import AgentGateway.Stream.Event

/-!
# Records

An agent writes one JSON object per line. Its `type` says which record it is; any record may
report usage. The type and the usage are read in the order of the text and typed while they are
read; all other fields are gathered first and looked at once the type is known.

| `type`           | record                       |
|------------------|------------------------------|
| `delta`, `text`  | a fragment of text           |
| `tool_use`       | a tool call                  |
| `stop`, `result` | the end of the answer        |
| `error`          | the end, with an error       |
| any other        | nothing but the usage counts |
-/

namespace AgentGateway

open Json

structure Envelope where
  kind : String
  usage : Option Usage
  fields : Members
  deriving Repr, Inhabited

inductive Record where
  | fragment (text : String)
  | toolUse (call : ToolCall)
  | stop
  | result (isError : Bool) (text : Option String) (totalCost : Option Binary64)
  | error (message : String)
  | unknown (kind : String)
  deriving Repr, Inhabited

namespace Envelope

structure UsageFields where
  input : Option Nat := none
  output : Option Nat := none
  cost : Option (Option Binary64) := none

/-- The report with zero for counts that were not given. -/
def UsageFields.usage (f : UsageFields) : Usage :=
  ⟨f.input.getD 0, f.output.getD 0, f.cost.join⟩

def usageMember (f : UsageFields) (key : String) (c : Cursor) :
    Except Problem (UsageFields × Cursor) := do
  if key = "input_tokens" then
    let (v, c) ← readField key f.input readUnsigned64 c
    return ({ f with input := v }, c)
  else if key = "output_tokens" then
    let (v, c) ← readField key f.output readUnsigned64 c
    return ({ f with output := v }, c)
  else if key = "cost_usd" then
    let (v, c) ← readField key f.cost (readOption readReal) c
    return ({ f with cost := v }, c)
  else return (f, ← skipField c)

/-- Reads the fields of a usage report that is written as a list. -/
def usageItems (c : Cursor) : Except Problem (Usage × Cursor) := do
  let (input, c) ← readItem true readUnsigned64 c
  let (output, c) ← readItem input.isNone readUnsigned64 c
  let (cost, c) ← readItem output.isNone (readOption readReal) c
  return (⟨input.getD 0, output.getD 0, cost.join⟩, c)

/-- Reads a usage report, as an object or as a list of its fields. -/
def readUsage (c : Cursor) : Except Problem (Usage × Cursor) :=
  readStruct "struct WireUsage" usageMember {} (fun f => .ok f.usage) usageItems c

structure Parts where
  kind : Option String := none
  usage : Option (Option Usage) := none
  fields : Members := []

def member (p : Parts) (key : String) (c : Cursor) : Except Problem (Parts × Cursor) := do
  if key = "type" then
    let (v, c) ← readField key p.kind readText c
    return ({ p with kind := v }, c)
  else if key = "usage" then
    let (v, c) ← readField key p.usage (readOption readUsage) c
    return ({ p with usage := v }, c)
  else
    let c ← readColon c
    let (v, c) ← readValue (c.rest.length + 1) (depthLimit - 1) c
    return ({ p with fields := p.fields.insert key v }, c)

/-- The envelope, provided that the type was given. -/
def Parts.envelope (p : Parts) : Except Cause Envelope :=
  (require "type" p.kind).map fun kind => ⟨kind, p.usage.join, p.fields⟩

def read (c : Cursor) : Except Problem (Envelope × Cursor) := do
  let c := c.skipBlank
  match c.rest with
  | [] => .error (c.blameNext .endInValue)
  | '\x7b' :: _ => readObject member {} Parts.envelope c
  | _ => .error (mismatch "struct Envelope" c)

def parse (line : List Char) : Except Problem Envelope := readWhole read line

end Envelope

namespace Record

def field? {α : Type} (fields : Members) (name : String) (decode : Json → Except Cause α) :
    Except Cause (Option α) :=
  match fields.get? name with
  | none => .ok none
  | some v => (decode v).map some

def ofFragment (fields : Members) : Except Cause Record := do
  return .fragment (← require "text" (← field? fields "text" asText))

/-- The arguments of a tool call may also stand under `input`, but not under both names. -/
def arguments (fields : Members) : Except Cause Members := do
  match ← field? fields "arguments" asMembers, fields.get? "input" with
  | some _, some _ => .error (.duplicateField "arguments")
  | none, some v => asMembers v
  | given, none => .ok (given.getD [])

def ofToolUse (fields : Members) : Except Cause Record := do
  let arguments ← arguments fields
  return .toolUse ⟨← require "name" (← field? fields "name" asText), arguments⟩

def ofResult (fields : Members) : Except Cause Record := do
  let isError ← field? fields "is_error" asBool
  let text ← field? fields "result" (asOption asText)
  let totalCost ← field? fields "total_cost_usd" (asOption asReal)
  return .result (isError.getD false) text.join totalCost.join

def ofError (fields : Members) : Except Cause Record := do
  return .error (← require "message" (← field? fields "message" asText))

/-- The record that an envelope holds, or why its fields are refused. -/
def ofEnvelope (e : Envelope) : Except Cause Record :=
  if e.kind = "delta" ∨ e.kind = "text" then ofFragment e.fields
  else if e.kind = "tool_use" then ofToolUse e.fields
  else if e.kind = "stop" then .ok .stop
  else if e.kind = "result" then ofResult e.fields
  else if e.kind = "error" then ofError e.fields
  else .ok (.unknown e.kind)

/-- What a refused record of a type is called. -/
def refusal (kind : String) : String :=
  if kind = "delta" ∨ kind = "text" then "invalid delta record: "
  else "invalid " ++ kind ++ " record: "

/-- The record on a line and its usage, or the description of why it cannot be decoded. -/
def decode (line : List Char) : Except String (Record × Option Usage) :=
  match Envelope.parse line with
  | .error p => .error ("malformed json: " ++ p.describe line)
  | .ok e =>
    match ofEnvelope e with
    | .error cause => .error (refusal e.kind ++ cause.message)
    | .ok record => .ok (record, e.usage)

end Record

end AgentGateway
