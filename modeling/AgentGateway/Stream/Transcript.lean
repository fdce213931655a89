import AgentGateway.Stream.Record
import AgentGateway.Text.Blank
import AgentGateway.Text.Lines

/-!
# Transcripts

The state of one stream while its lines come in. Each line gives at most one event and updates
what has been gathered. The first event that ends the stream closes the transcript: from then on
no line changes it and no event is given. A stream whose lines run out before that is ended by an
error event, so every stream ends with exactly one such event.
-/

namespace AgentGateway

/-- What has been gathered from the lines so far. The transcript is closed exactly when it has an
outcome. -/
structure Transcript where
  content : String := ""
  toolCalls : List ToolCall := []
  usage : Usage := {}
  outcome : Option Verdict := none
  decodeFailures : Nat := 0
  deriving Repr, Inhabited

namespace Transcript

def isClosed (t : Transcript) : Bool := t.outcome.isSome

/-- Adds what a record reports, if it reports anything. -/
def addUsage (t : Transcript) : Option Usage → Transcript
  | none => t
  | some u => { t with usage := t.usage.accumulate u }

def complete (t : Transcript) : Transcript × Event :=
  ({ t with outcome := some .completed }, .completion t.usage)

def fail (t : Transcript) (message : String) : Transcript × Event :=
  ({ t with outcome := some (.failed message) }, .failed message)

/-- What an error without a description says. -/
def unnamedError : String := "agent reported an error"

/-- Takes in a decoded record whose usage has been added. -/
def apply (t : Transcript) : Record → Transcript × Option Event
  | .fragment text => ({ t with content := t.content ++ text }, some (.partialContent text))
  | .toolUse call => ({ t with toolCalls := t.toolCalls ++ [call] }, some (.toolInvocation call))
  | .stop => let (t, e) := t.complete; (t, some e)
  | .result isError text totalCost =>
    let t := match totalCost with
      | some cost => { t with usage := { t.usage with cost := some cost } }
      | none => t
    if isError then let (t, e) := t.fail (text.getD unnamedError); (t, some e)
    else
      let t := if t.content.isEmpty then { t with content := text.getD "" } else t
      let (t, e) := t.complete; (t, some e)
  | .error message => let (t, e) := t.fail message; (t, some e)
  | .unknown _ => (t, none)

/-- Takes in one line. Blank lines and lines after the end give nothing; a line that cannot be
decoded changes nothing but the count of such lines. -/
def feed (t : Transcript) (line : List Char) : Transcript × Option Event :=
  let trimmed := Text.trim line
  if trimmed.isEmpty ∨ t.isClosed then (t, none)
  else
    match Record.decode trimmed with
    | .error message =>
      ({ t with decodeFailures := t.decodeFailures + 1 },
        some (.undecodable message (String.ofList trimmed)))
    | .ok (record, usage) => (t.addUsage usage).apply record

/-- Ends the stream with an error, unless it has ended already. -/
def abort (t : Transcript) (message : String) : Transcript × Option Event :=
  if t.isClosed then (t, none)
  else let (t, e) := t.fail message; (t, some e)

/-- Ends the stream because its lines have run out. -/
def close (t : Transcript) : Transcript × Option Event := t.abort Response.noTerminal

/-- Takes in lines one after another and collects the events. -/
def feedAll (t : Transcript) : List (List Char) → Transcript × List Event
  | [] => (t, [])
  | line :: rest =>
    let (t, event) := t.feed line
    let (t, events) := feedAll t rest
    (t, event.toList ++ events)

def response (t : Transcript) : Response where
  content := t.content
  toolCalls := t.toolCalls
  usage := t.usage
  outcome := t.outcome.getD .incomplete
  decodeFailures := t.decodeFailures

end Transcript

end AgentGateway
