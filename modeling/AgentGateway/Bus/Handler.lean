import AgentGateway.Bus.Worker
import AgentGateway.Client.Desk

/-!
# Handlers

Whoever handles requests is told when the handling of one starts or is given up, and tells when
one has come to its end. Two handlers are given: one that does chores, which take a given time and
have a given outcome, and one that has prompts answered by the agent.
-/

namespace AgentGateway.Bus

/-- How the handling of a request ended; a crash has no result. -/
abbrev Finding (α : Type) := Option (Except Failure α)

/-- A handler with its state. `run` does all that is due by a moment, and tells which requests have
been handled; by `drop` the handling of a request is given up. -/
structure Handler (η β α : Type) where
  start : Duration → Job β → η → η
  due? : η → Option Duration
  run : Duration → η → η × List (Nat × Finding α)
  drop : Nat → η → η

structure Chore (α : Type) where
  after : Option Duration := none
  finding : Finding α
  deriving Inhabited

/-- The chores that are being done, by the numbers of their requests. -/
abbrev Chores (α : Type) := Agenda (Nat × Finding α)

def takeDue {τ : Type} (moment : Duration) : List (Duration × τ) → List τ × List (Duration × τ)
  | (t, x) :: rest =>
    if t ≤ moment then
      let (due, rest) := takeDue moment rest
      (x :: due, rest)
    else ([], (t, x) :: rest)
  | [] => ([], [])

def chores {α : Type} : Handler (Chores α) (Chore α) α where
  start now job a :=
    a.add (Execution.Part.afterWait now job.body.after) (job.number, job.body.finding)
  due? a := a.items.head?.map (·.1)
  run moment a :=
    let (due, rest) := takeDue moment a.items
    (⟨rest⟩, due)
  drop number a := a.remove (·.1 == number)

structure Errand where
  key : String := Client.defaultKey
  prompt : Prompt
  deriving Repr, Inhabited

/-- The calls that answer prompts, and the numbers of the requests that they are made for. -/
structure Calls where
  desk : Client.Desk
  numbers : List (Admission.Ticket × Nat) := []

namespace Calls

/-- Takes out what the ends of calls say about requests. -/
def findings (c : Calls) : Calls × List (Nat × Finding Response) :=
  let (ends, others) := c.desk.messages.partition fun (t, _, m) =>
    match m with
    | .ended _ => (c.numbers.lookup t).isSome
    | .event _ => false
  let found := ends.filterMap fun (t, _, m) =>
    match m, c.numbers.lookup t with
    | .ended (.answered r), some n => some (n, some (.ok r))
    | .ended (.failed f), some n => some (n, some (.error f))
    | .ended .crashed, some n => some (n, none)
    | _, _ => none
  ({ c with desk := { c.desk with messages := others } }, found)

end Calls

def answering : Handler Calls Errand Response where
  start now job c :=
    let (desk, t) := { c.desk with now }.start job.body.key job.body.prompt false
    { c with desk, numbers := (t, job.number) :: c.numbers }
  due? c := if c.desk.messages.any (fun m => (c.numbers.lookup m.1).isSome) then some c.desk.now
    else c.desk.due?
  run moment c := { c with desk := c.desk.runTo moment }.findings
  drop number c :=
    match c.numbers.find? (·.2 == number) with
    | some (t, _) => { c with desk := c.desk.drop t }
    | none => c

end AgentGateway.Bus
