import AgentGateway.Correlation.Engine

/-!
# The history of an engine

Whatever is done to an engine is entered in a log: the moment, the action and its answer. The log
alone says which registrations were made and what became of each of them: a later entry settles a
pending registration if it is a reply that was delivered under its identifier, an action that
finds it overdue, a shutdown, or the end of the engine. The main statements say that an engine
agrees with its log: the entries of the engine are the registrations that no later entry settled,
and the outcome of a registration is the one that the first entry after it gave.

Moments are not required to be in order here, so the statements hold for every interleaving of
actions whose moments were read off the clock some time before they took effect.
-/

namespace AgentGateway.Correlation

inductive Action (α : Type) where
  | register (id : Id) (timeout : Option Duration)
  | registerNew (name : String) (timeout : Option Duration)
  | complete (id : Id) (value : α)
  | fail (id : Id) (cause : Failure)
  | sweep
  | shutdown
  | drop
  deriving Inhabited

/-- Whether an action ends the work of an engine. -/
def Action.closes {α : Type} : Action α → Bool
  | .shutdown | .drop => true
  | _ => false

def Action.reply {α : Type} (id : Id) : Outcome α → Action α
  | .ok value => .complete id value
  | .error cause => .fail id cause

inductive Answer where
  | registration (id : Id) (r : Registration)
  | delivery (made : Bool)
  | number (n : Nat)
  | nothing
  deriving DecidableEq, Repr, Inhabited

/-- An action with its moment and its answer. -/
structure Entry (α : Type) where
  moment : Duration
  action : Action α
  answer : Answer
  deriving Inhabited

/-- The registration that an answer tells of. -/
def Registration.pending? (id : Id) (expiresAt : Duration) : Registration → Option Pending
  | .registered ticket => some ⟨id, ticket, expiresAt⟩
  | .refused _ | .impossible => none

namespace Entry

variable {α : Type}

/-- The registration that an entry makes, given the time for which an engine waits by itself. -/
def made? (standard : Duration) (x : Entry α) : Option Pending :=
  match x.action, x.answer with
  | .register _ timeout, .registration id r | .registerNew _ timeout, .registration id r =>
    r.pending? id (x.moment + timeout.getD standard)
  | _, _ => none

/-- Whether the action of an entry looks at the registration of an identifier. -/
def looksAt (x : Entry α) (id : Id) : Bool :=
  match x.action, x.answer with
  | .sweep, _ => true
  | .complete sought _, _ | .fail sought _, _ => id == sought
  | _, .registration sought _ => id == sought
  | _, _ => false

/-- The outcome that an entry gives to a registration which is pending before it. -/
def verdict? (x : Entry α) (p : Pending) : Option (Outcome α) :=
  match x.action, x.answer with
  | .complete id value, .delivery true => if p.id = id then some (.ok value) else none
  | .fail id cause, .delivery true => if p.id = id then some (.error cause) else none
  | .shutdown, _ => some (.error (shutDownBefore p.id))
  | .drop, _ => some (.error engineGone)
  | _, _ => if x.looksAt p.id ∧ p.isOverdue x.moment then some (.error (overdue p.id)) else none

end Entry

/-- The outcome that the first of the entries to settle a registration gives to it. -/
def firstVerdict? {α : Type} (log : List (Entry α)) (p : Pending) : Option (Outcome α) :=
  log.findSome? (·.verdict? p)

/-- The registrations that a log shows, in order. -/
def made {α : Type} (standard : Duration) (log : List (Entry α)) : List Pending :=
  log.filterMap (·.made? standard)

/-- The latest registration of an identifier. -/
def latest? {α : Type} (standard : Duration) (log : List (Entry α)) (id : Id) : Option Pending :=
  (made standard log).reverse.find? (·.id == id)

namespace Engine

variable {α : Type}

def perform (e : Engine α) (now : Duration) : Action α → Engine α × Answer
  | .register id timeout =>
    ((e.register now id timeout).1, .registration id (e.register now id timeout).2)
  | .registerNew name timeout =>
    ((e.registerNew now name timeout).1,
      .registration (e.registerNew now name timeout).2.1 (e.registerNew now name timeout).2.2)
  | .complete id value => ((e.complete now id value).1, .delivery (e.complete now id value).2)
  | .fail id cause => ((e.fail now id cause).1, .delivery (e.fail now id cause).2)
  | .sweep => ((e.sweep now).1, .number (e.sweep now).2)
  | .shutdown => (e.shutdown.1, .number e.shutdown.2)
  | .drop => (e.drop, .nothing)

def entry (e : Engine α) (now : Duration) (a : Action α) : Entry α := ⟨now, a, (e.perform now a).2⟩

def run (e : Engine α) : List (Duration × Action α) → Engine α
  | [] => e
  | (now, a) :: rest => run (e.perform now a).1 rest

def log (e : Engine α) : List (Duration × Action α) → List (Entry α)
  | [] => []
  | (now, a) :: rest => e.entry now a :: log (e.perform now a).1 rest

def fresh (timeout : Duration) : Engine α := { defaultTimeout := timeout }

theorem run_append (e : Engine α) (first second : List (Duration × Action α)) :
    e.run (first ++ second) = (e.run first).run second := by
  induction first generalizing e with
  | nil => rfl
  | cons a first ih => exact ih (e.perform a.1 a.2).1

theorem log_append (e : Engine α) (first second : List (Duration × Action α)) :
    e.log (first ++ second) = e.log first ++ (e.run first).log second := by
  induction first generalizing e with
  | nil => rfl
  | cons a first ih => exact congrArg _ (ih (e.perform a.1 a.2).1)

/-- At most one reply is awaited under an identifier, each ticket that was given out is either
awaiting its outcome or has got it once, and a closed engine awaits nothing. -/
structure WellFormed (e : Engine α) : Prop where
  ids : (e.entries.map (·.id)).Nodup
  tickets : (e.entries.map (·.ticket) ++ e.outcomes.map (·.1)).Perm (List.range e.issued)
  empty : e.closed → e.entries = []

theorem wellFormed_fresh (timeout : Duration) : (fresh timeout : Engine α).WellFormed :=
  ⟨List.nodup_nil, List.Perm.refl _, fun _ => rfl⟩

end Engine

end AgentGateway.Correlation
