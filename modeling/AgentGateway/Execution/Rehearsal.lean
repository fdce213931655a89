import AgentGateway.Execution.Script
import AgentGateway.Retry

/-!
# Playing a script with retries

One caller runs a request against a script. It waits for the outcome itself, or has the work done
by a task of its own, which it can cancel or let go of; letting go cancels the work as well.
-/

namespace AgentGateway.Execution

/-- What a caller sees in the end. There is no outcome if it has let go of the work; `endedBefore`
says whether the work had ended when the caller intervened. -/
structure Sight (α : Type) where
  outcome : Option (Except Failure α)
  finish : Duration
  lines : List String := []
  endedBefore : Option Bool := none
  records : List Record

inductive Intervention where
  | none
  | cancel (moment : Duration)
  | drop (moment : Duration)
  deriving DecidableEq, Repr, Inhabited

def Intervention.moment? : Intervention → Option Duration
  | none => .none
  | cancel t | drop t => some t

def report (script : List Part) (retry : Retry) (request : Request)
    (cancelAt : Option Duration) : Retry.Report Request Result :=
  retry.run (fun _ attempt start =>
    let (finish, outcome, _) := (partAt script (attempt - 1)).capture start cancelAt
    (finish, outcome)) request cancelAt

def recordsOf (script : List Part) (cancelAt : Option Duration)
    (report : Retry.Report Request Result) : List Record :=
  report.trials.mapIdx fun i trial =>
    let (_, _, ending) := (partAt script i).capture trial.start cancelAt
    ⟨.captured, trial.start, trial.request, some ending⟩

/-- The caller waits for the outcome; somebody else may cancel. -/
def execute (script : List Part) (retry : Retry) (request : Request)
    (cancelAt : Option Duration) : Sight Result :=
  let r := report script retry request cancelAt
  { outcome := some r.outcome, finish := r.finish, records := recordsOf script cancelAt r }

/-- How long a caller stays that has let go of the work. -/
def lingering : Duration := .ofSeconds 3600

/-- The caller has a task do the work and intervenes or waits. -/
def executeDetached (script : List Part) (retry : Retry) (request : Request)
    (intervention : Intervention) : Sight Result :=
  let r := report script retry request intervention.moment?
  let records := recordsOf script intervention.moment? r
  match intervention with
  | .none => { outcome := some r.outcome, finish := r.finish, records }
  | .cancel t =>
    { outcome := some r.outcome, finish := Retry.later r.finish t
      endedBefore := some (r.finish < t), records }
  | .drop t =>
    { outcome := none, finish := t + lingering, endedBefore := some (r.finish < t), records }

/-- The caller has a task stream the output of a single execution. -/
def stream (script : List Part) (request : Request) (cancelAt : Option Duration) : Sight Int :=
  let (finish, lines, outcome, ending) := (partAt script 0).stream .zero cancelAt
  { outcome := some outcome
    finish := Retry.later finish (cancelAt.getD .zero)
    lines
    records := [⟨.streamed, .zero, request, some ending⟩] }

end AgentGateway.Execution
