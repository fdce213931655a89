import AgentGateway.Execution
import AgentGateway.Failure
import AgentGateway.Timeline

/-!
# Scripted executions

An agent that is not run but played: each execution takes the next part of a script, which says
how long it takes and what it gives. A part serves both for an execution whose output is captured
and for one whose output is streamed. Every execution is recorded.
-/

namespace AgentGateway.Execution

/-- What one execution does. It ends at once unless it takes some time (`after`); a streamed one
writes its lines before, each after a `gap`. It may end with a failure instead of a result, and a
streamed one may crash at its end. -/
structure Part where
  after : Option Duration := none
  result : Result := {}
  lines : List String := []
  gap : Option Duration := none
  failure : Option Failure := none
  crashes : Bool := false
  deriving Repr, Inhabited

inductive Method where
  | captured
  | streamed
  deriving DecidableEq, Repr, Inhabited

inductive Ending where
  | done
  | cancelled
  | dropped
  deriving DecidableEq, Repr, Inhabited

structure Record where
  method : Method
  time : Duration
  request : Request
  ending : Option Ending := none
  deriving Repr, Inhabited

def interrupted : Failure := .cancelled "scripted execution cancelled"

/-- What a caller learns about a streamed execution that crashed. -/
def crashed : Failure := .io "execution task panicked"

namespace Part

def afterWait (start : Duration) : Option Duration → Duration
  | none => start
  | some wait => (start + wait).tick

def captured (p : Part) : Except Failure Result :=
  match p.failure with
  | some f => .error f
  | none => .ok p.result

/-- The outcome of a streamed execution: its exit code. -/
def streamed (p : Part) : Except Failure Int :=
  if p.crashes then .error crashed
  else
    match p.failure with
    | some f => .error f
    | none => .ok p.result.exitCode

/-- The moments at which lines arrive, and the moment of the last one or of the start. -/
def lineTimes (gap : Option Duration) (start : Duration) :
    List String → List (Duration × String) × Duration
  | [] => ([], start)
  | line :: rest =>
    let t := afterWait start gap
    let (times, last) := lineTimes gap t rest
    ((t, line) :: times, last)

/-- When a streamed execution delivers its lines, and when it ends. -/
def plan (p : Part) (start : Duration) : List (Duration × String) × Duration :=
  let (times, last) := lineTimes p.gap start p.lines
  (times, afterWait last p.after)

/-- How a captured execution ends that may be cancelled at a moment. -/
def capture (p : Part) (start : Duration) (cancelAt : Option Duration) :
    Duration × Except Failure Result × Ending :=
  let finish := afterWait start p.after
  match cancelAt with
  | some c =>
    if p.after.isSome ∧ c < finish then
      (if c ≤ start then start else c, .error interrupted, .cancelled)
    else (finish, p.captured, .done)
  | none => (finish, p.captured, .done)

/-- How a streamed execution ends that may be cancelled at a moment, and the lines it gave. -/
def stream (p : Part) (start : Duration) (cancelAt : Option Duration) :
    Duration × List String × Except Failure Int × Ending :=
  let (times, finish) := p.plan start
  let ending := if p.crashes then Ending.dropped else .done
  match cancelAt with
  | some c =>
    if c < finish then
      (c, (times.filter fun e => e.1 ≤ c).map (·.2), .error interrupted, .cancelled)
    else (finish, p.lines, p.streamed, ending)
  | none => (finish, p.lines, p.streamed, ending)

end Part

def partAt (script : List Part) (number : Nat) : Part := (script[number]?).getD {}

abbrev Agent := (number : Nat) → Request → Part

def Agent.scripted (script : List Part) : Agent := fun number _ => partAt script number

end AgentGateway.Execution
