import AgentGateway.Duration
import AgentGateway.Power

/-!
# Time and what happens in it

A moment is the span of time since the clock started. Timers go off at whole milliseconds: one
that is set for a moment between two goes off at the later one. What happened is noted with the
moment and the name of the one it happened to.
-/

namespace AgentGateway

/-- The moment at which a timer set for `d` goes off. -/
def Duration.tick (d : Duration) : Duration := .ofMillis d.ceilMillis

/-- What the clock shows when a timer set for `d` goes off, given that it shows `now` before. The
clock moves by whole milliseconds from timer to timer, so a fraction that it has stays. -/
def Duration.tickFrom (now d : Duration) : Duration :=
  ⟨d.tick.nanos + now.nanos % Duration.nanosPerMilli⟩

theorem Duration.le_tick (d : Duration) : d ≤ d.tick := by
  simp only [le_def, tick, ofMillis, ceilMillis, nanosPerMilli]
  omega

/-- Whole milliseconds since the clock started. -/
def Duration.millis (d : Duration) : Nat := d.nanos / Duration.nanosPerMilli

/-- Something that happened: when, to whom, and what. -/
structure Note (α : Type) where
  time : Nat
  who : String
  what : α
  deriving Repr, Inhabited

namespace Note

/-- Earlier notes come first, and notes of one moment in the order of the names. -/
def le {α : Type} (a b : Note α) : Bool :=
  a.time < b.time || (a.time == b.time && (a.who < b.who || a.who == b.who))

end Note

/-- Notes in order; those with equal time and name stay in the order in which they were taken. -/
def chronicle {α : Type} (notes : List (Note α)) : List (Note α) := notes.mergeSort Note.le

/-- Lets everything happen that is due by a moment: as long as something is due by then, the
earliest of it happens. -/
def runUntil {σ : Type} (due? : σ → Option Duration) (happen : Duration → σ → σ)
    (moment : Duration) : (fuel : Nat) → σ → σ
  | 0, s => s
  | fuel + 1, s =>
    match due? s with
    | some t => if t ≤ moment then runUntil due? happen moment fuel (happen t s) else s
    | none => s

theorem runUntil_keeps {σ : Type} {P : σ → Prop} {due? : σ → Option Duration}
    {happen : Duration → σ → σ} (h : ∀ t s, P s → P (happen t s)) (moment : Duration)
    (fuel : Nat) {s : σ} (hs : P s) : P (runUntil due? happen moment fuel s) := by
  induction fuel generalizing s with
  | zero => exact hs
  | succ fuel ih =>
      rw [runUntil]
      split
      next t _ =>
        split
        · exact ih (h t s hs)
        · exact hs
      next => exact hs

/-- Things to do, each with the moment at which it is due, the earliest first. Of things that are
due at one moment the one that was put down first comes first. -/
structure Agenda (τ : Type) where
  items : List (Duration × τ) := []
  deriving Repr, Inhabited

namespace Agenda

variable {τ : Type}

/-- Puts a thing behind all that are due no later. -/
def insert (due : Duration) (x : τ) : List (Duration × τ) → List (Duration × τ)
  | [] => [(due, x)]
  | (t, y) :: rest => if t ≤ due then (t, y) :: insert due x rest else (due, x) :: (t, y) :: rest

def add (a : Agenda τ) (due : Duration) (x : τ) : Agenda τ := ⟨insert due x a.items⟩

/-- Takes the first thing that is due by a moment. -/
def next? (a : Agenda τ) (moment : Duration) : Option (Duration × τ × Agenda τ) :=
  match a.items with
  | (t, x) :: rest => if t ≤ moment then some (t, x, ⟨rest⟩) else none
  | [] => none

def remove (a : Agenda τ) (p : τ → Bool) : Agenda τ := ⟨a.items.filter fun e => !p e.2⟩

end Agenda

def earliest? (moments : List Duration) : Option Duration :=
  moments.foldl (fun best t => some (match best with
    | some b => b.min t
    | none => t)) none

/-- Something that is done over and over: first one period after the start, then every period. -/
structure Ticker where
  start : Duration
  period : Duration
  deriving DecidableEq, Repr, Inhabited

namespace Ticker

/-- The first number of seconds that the clock cannot show. -/
def clockBound : Nat := maxSigned64 + 1

def Showable (moment : Duration) : Prop := moment.seconds < clockBound

instance (moment : Duration) : Decidable (Showable moment) :=
  inferInstanceAs (Decidable (_ < _))

/-- A ticker that starts now. There is none with a period of zero, and none whose first tick the
clock cannot show. -/
def start? (now period : Duration) : Option Ticker :=
  if period = .zero ∨ ¬ Showable (now + period) then none else some ⟨now, period⟩

/-- The first tick that goes off at or after a moment. A tick goes off at the first whole
millisecond, so the first that does so is the first due after the whole millisecond before. -/
def next (t : Ticker) (moment : Duration) : Duration :=
  let due := moment.tick.nanos - (Duration.nanosPerMilli - 1)
  let periods := max 1 ((due - t.start.nanos + (t.period.nanos - 1)) / t.period.nanos)
  Duration.tick ⟨t.start.nanos + periods * t.period.nanos⟩

/-- The first tick that goes off when the clock shows more than it does now and at least
`moment`. -/
def nextAfter (t : Ticker) (now moment : Duration) : Duration :=
  t.next (if moment ≤ now then ⟨now.nanos + 1⟩
    else ⟨moment.nanos - now.nanos % Duration.nanosPerMilli⟩)

end Ticker

end AgentGateway
