import AgentGateway.Admission.Basic
import AgentGateway.Client.Basic
import AgentGateway.Execution.Script
import AgentGateway.Power
import AgentGateway.Prompt
import AgentGateway.Retry
import AgentGateway.TimeoutPolicy

/-!
# Calls in progress

A call waits for a slot of its key, runs its prompt, and gives the slot back when it ends: with an
answer, with a failure, by a crash, or because its caller goes away. A call that asks has its
output captured and may be tried again; a call that streams passes its events on as they come.
-/

namespace AgentGateway.Client

open Admission (Limiter Ticket)
open Execution (Part)

/-- What all calls share. Captured executions may be tried again. -/
structure Settings where
  policy : TimeoutPolicy
  args : List String := []
  workingDir : String := ""
  retry : Option Retry := none

def Settings.limit? (s : Settings) (p : Prompt) : Option Duration :=
  match p.timeoutSeconds with
  | some seconds => some (.ofSeconds seconds)
  | none => s.policy.limit? p.maxTokens

def Settings.execution (s : Settings) (p : Prompt) (limit : Duration) : Execution.Request :=
  ({ args := s.args, workingDir := s.workingDir, timeout := limit } : Execution.Request).withInput
    (Text.Utf8.encode p.text.toList)

def Settings.decide (s : Settings) (attempt : Nat)
    (outcome : Except Failure Execution.Result) : Retry.Decision :=
  match s.retry with
  | some r => r.decide attempt outcome
  | none => .finish

/-- Where a call stands. One that is `summoned` has been handed a slot and is about to notice; one
that is `pausing` waits before its next attempt. -/
inductive Phase where
  | waiting
  | summoned
  | executing (number attempt : Nat) (part : Part)
  | pausing (attempt : Nat)
  deriving Repr, Inhabited

structure Call where
  ticket : Ticket
  key : String
  prompt : Prompt
  streams : Bool
  phase : Phase := .waiting
  transcript : Transcript := {}
  deriving Repr, Inhabited

inductive Ending where
  | answered (response : Response)
  | failed (cause : Failure)
  | crashed
  deriving Repr, Inhabited

inductive Message where
  | event (e : Event)
  | ended (how : Ending)
  deriving Repr, Inhabited

/-- Something that is due for a call: it notices that it was handed a slot or that there will be
none, its execution delivers a line or ends, or its next attempt starts. -/
inductive Task where
  | notice (ticket : Ticket)
  | line (ticket : Ticket) (text : String)
  | finish (ticket : Ticket)
  | retry (ticket : Ticket)
  deriving Repr, Inhabited

def Task.ticket : Task → Ticket
  | notice t | line t _ | finish t | retry t => t

/-- The calls with all that they share, and the messages to callers, the latest last. -/
structure Desk where
  settings : Settings
  limiter : Limiter
  agent : Execution.Agent := .scripted []
  records : List Execution.Record := []
  calls : List Call := []
  agenda : Agenda Task := {}
  now : Duration := .zero
  issued : Nat := 0
  messages : List (Ticket × Duration × Message) := []

namespace Desk

def call? (d : Desk) (t : Ticket) : Option Call := d.calls.find? (·.ticket == t)

/-- Puts a call in the place of its earlier state. -/
def update (d : Desk) (c : Call) : Desk :=
  { d with calls := d.calls.map fun x => if x.ticket = c.ticket then c else x }

def tell (d : Desk) (t : Ticket) (m : Message) : Desk :=
  { d with messages := d.messages ++ [(t, d.now, m)] }

def record (d : Desk) (number : Nat) (ending : Execution.Ending) : Desk :=
  { d with records := d.records.modify number fun r => { r with ending := some ending } }

/-- Whether a waiting call has been handed a slot, or will never be. -/
def isDecided (l : Limiter) (c : Call) : Bool :=
  match c.phase, l.pool? c.key with
  | .waiting, some p => p.closed || p.handed.contains c.ticket
  | _, _ => false

/-- Calls whose waiting has been decided are to notice it. -/
def summon (d : Desk) : Desk :=
  let (calls, agenda) := d.calls.foldr (fun c (calls, agenda) =>
    if isDecided d.limiter c then ({ c with phase := .summoned } :: calls, c.ticket :: agenda)
    else (c :: calls, agenda)) ([], [])
  { d with calls, agenda := agenda.foldl (fun a t => a.add d.now (.notice t)) d.agenda }

def release (d : Desk) (c : Call) : Desk :=
  { d with limiter := d.limiter.release c.key c.ticket }.summon

def close (d : Desk) (c : Call) (how : Ending) : Desk :=
  ({ d with calls := d.calls.filter (·.ticket != c.ticket) }.tell c.ticket (.ended how)).release c

def launch (d : Desk) (c : Call) (attempt : Nat) : Desk :=
  match d.settings.limit? c.prompt with
  | none => d.close c .crashed
  | some limit =>
    let number := d.records.length
    let request := d.settings.execution c.prompt limit
    let part := d.agent number request
    let method := if c.streams then Execution.Method.streamed else .captured
    let record : Execution.Record := ⟨method, d.now, request, none⟩
    let (lines, finish) :=
      if c.streams then part.plan d.now else ([], Part.afterWait d.now part.after)
    let agenda := lines.foldl (fun (a : Agenda Task) (t, text) => a.add t (.line c.ticket text))
      d.agenda
    { d with
      records := d.records ++ [record]
      agenda := agenda.add finish (.finish c.ticket) }.update
        { c with phase := .executing number attempt part }

/-- A call begins: its ticket, and whether it holds a slot at once. -/
def start (d : Desk) (key : String) (prompt : Prompt) (streams : Bool) : Desk × Ticket :=
  let t := d.issued
  let c : Call := { ticket := t, key, prompt, streams }
  let (limiter, answer) := d.limiter.request key none t
  let d := { d with limiter, issued := t + 1 }
  match answer with
  | .refused cause => (d.tell t (.ended (.failed cause)), t)
  | .impossible => (d.tell t (.ended .crashed), t)
  | .waiting => ({ d with calls := d.calls ++ [c] }, t)
  | .granted => ({ d with calls := d.calls ++ [c] }.launch c 1, t)

/-- A call notices what has been decided about its slot. -/
def notice (d : Desk) (c : Call) : Desk :=
  let (limiter, answer) := d.limiter.check c.key c.ticket
  let d := { d with limiter }
  match answer with
  | .granted => d.launch c 1
  | .refused cause =>
    { d with calls := d.calls.filter (·.ticket != c.ticket) }.tell c.ticket
      (.ended (.failed cause)) |>.summon
  | .waiting | .impossible => d.update { c with phase := .waiting }

def line (d : Desk) (c : Call) (text : String) : Desk :=
  let (transcript, event) := c.transcript.feed text.toList
  let d := d.update { c with transcript }
  match event with
  | some e => d.tell c.ticket (.event e)
  | none => d

def finishCaptured (d : Desk) (c : Call) (attempt : Nat)
    (outcome : Except Failure Execution.Result) : Desk :=
  match d.settings.decide attempt outcome with
  | .again wait =>
    { d with agenda := d.agenda.add (d.now + wait).tick (.retry c.ticket) }.update
      { c with phase := .pausing attempt }
  | .finish =>
    d.close c (match outcome with
      | .ok r => .answered (answer r)
      | .error f => .failed f)

def finishStreamed (d : Desk) (c : Call) (outcome : Except Failure Int) : Desk :=
  let (event, result) := endStream c.transcript outcome
  let d := match event with
    | some e => d.tell c.ticket (.event e)
    | none => d
  d.close c (match result with
    | .ok r => .answered r
    | .error f => .failed f)

def finish (d : Desk) (c : Call) : Desk :=
  match c.phase with
  | .executing number attempt part =>
    if c.streams then
      (d.record number (if part.crashes then .dropped else .done)).finishStreamed c part.streamed
    else (d.record number .done).finishCaptured c attempt part.captured
  | _ => d

def retry (d : Desk) (c : Call) : Desk :=
  match c.phase with
  | .pausing attempt => d.launch c (attempt + 1)
  | _ => d

def perform (d : Desk) (task : Task) : Desk :=
  match d.call? task.ticket with
  | none => d
  | some c =>
    match task with
    | .notice _ => d.notice c
    | .line _ text => d.line c text
    | .finish _ => d.finish c
    | .retry _ => d.retry c

/-- A caller goes away: its call ends wherever it stands. -/
def drop (d : Desk) (t : Ticket) : Desk :=
  match d.call? t with
  | none => d
  | some c =>
    let d := { d with
      calls := d.calls.filter (·.ticket != t)
      agenda := d.agenda.remove (·.ticket == t) }
    match c.phase with
    | .waiting | .summoned => { d with limiter := d.limiter.leave c.key t }.summon
    | .executing number _ _ =>
      (d.record number (if c.streams then .cancelled else .dropped)).release c
    | .pausing _ => d.release c

def shut (d : Desk) : Desk := { d with limiter := d.limiter.close }.summon

def due? (d : Desk) : Option Duration := d.agenda.items.head?.map (·.1)

/-- Does the first thing that is due by a moment. -/
def step (moment : Duration) (d : Desk) : Desk :=
  match d.agenda.next? moment with
  | some (t, task, agenda) =>
    { d with agenda, now := if d.now ≤ t then t else d.now }.perform task
  | none => d

def manySteps : Nat := maxSigned64 / 2

def runTo (d : Desk) (moment : Duration) : Desk := runUntil due? step moment manySteps d

def settle (d : Desk) : Desk := d.runTo d.now

def sleep (d : Desk) (time : Duration) : Desk :=
  let moment := (d.now + time).tick
  { d.runTo moment with now := moment }

/-- What callers have been told since this was last asked. -/
def collect (d : Desk) : Desk × List (Ticket × Duration × Message) :=
  ({ d with messages := [] }, d.messages)

end Desk

end AgentGateway.Client
