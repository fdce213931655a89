import AgentGateway.Shell.Command
import AgentGateway.Timeline

/-!
# What processes read and write

A source gives bytes as they arrive, and ends, or never does. A sink keeps what has been written
to it, when and by whom, and when each process that holds it lets go of it. Once all of its
writers have been followed to their end, a sink turns into a source.
-/

namespace AgentGateway.Shell

/-- What is read: chunks with the moments of their arrival. Nothing is known of what comes after the
chunks of a source that does not end. -/
structure Source where
  chunks : List (Duration × Bytes) := []
  ending : Option Duration := some .zero
  deriving Repr, Inhabited

namespace Source

def ofBytes (text : Bytes) : Source := ⟨if text.isEmpty then [] else [(.zero, text)], some .zero⟩

/-- How much of an endless source is looked at. -/
def horizon : Nat := 4194304

def endless (text : Bytes) : Source :=
  let copies := List.replicate (horizon / text.length + 1) text
  ⟨[(.zero, copies.flatten)], none⟩

def all (s : Source) : Bytes := (s.chunks.map (·.2)).flatten

def later (a b : Duration) : Duration := if a ≤ b then b else a

/-- When a reader that starts at a moment has read everything. -/
def finish? (s : Source) (start : Duration) : Option Duration := s.ending.map (later start)

/-- Reads some bytes at most: those read, the moment when they are there, and what is left. There
is no such moment if the source neither has so many bytes nor ends. -/
def take : (count : Nat) → (start : Duration) → Source → Bytes × Option Duration × Source
  | 0, start, s => ([], some start, s)
  | count, start, ⟨[], ending⟩ => ([], if count = 0 then some start else ending.map (later start),
      ⟨[], ending⟩)
  | count, start, ⟨(t, chunk) :: rest, ending⟩ =>
    let start := later start t
    let taken := chunk.take count
    let left := chunk.drop count
    if left.isEmpty then
      let (more, finish, s) := take (count - taken.length) start ⟨rest, ending⟩
      (taken ++ more, finish, s)
    else (taken, some start, ⟨(t, left) :: rest, ending⟩)
termination_by _ _ s => s.chunks.length

/-- Reads up to the next newline: the line, whether the newline was there, the moment, and what is
left. -/
def takeLine : List (Duration × Bytes) → (ending : Option Duration) → (start : Duration) →
    Bytes × Bool × Option Duration × Source
  | [], ending, start => ([], false, ending.map (later start), ⟨[], ending⟩)
  | (t, chunk) :: rest, ending, start =>
    let start := later start t
    let head := chunk.takeWhile (· != 10)
    match chunk.drop head.length with
    | _ :: left =>
      (head, true, some start, ⟨if left.isEmpty then rest else (t, left) :: rest, ending⟩)
    | [] =>
      let (more, found, finish, s) := takeLine rest ending start
      (head ++ more, found, finish, s)

end Source

structure Writing where
  time : Duration
  writer : Nat
  text : Bytes
  deriving Repr, Inhabited

/-- What is written, the latest first, and when each process that could write lets go. -/
structure Sink where
  writings : List Writing := []
  holders : List (Nat × Option Duration) := []
  deriving Repr, Inhabited

namespace Sink

/-- When all holders have let go, if all ever do. -/
def ending (s : Sink) : Option Duration :=
  s.holders.foldl (fun t h => match t, h.2 with
    | some t, some u => some (Source.later t u)
    | _, _ => none) (some .zero)

def toSource (s : Sink) : Source :=
  ⟨(s.writings.reverse.mergeSort fun a b => decide (a.time ≤ b.time)).map fun w =>
    (w.time, w.text), s.ending⟩

/-- A process that is killed at a moment writes nothing any more and lets go. -/
def cutOff (s : Sink) (process : Nat) (time : Duration) : Sink :=
  { writings := s.writings.filter fun w => w.writer != process || decide (w.time ≤ time)
    holders := s.holders.map fun (p, t) =>
      if p = process then (p, some (match t with
        | some t => t.min time
        | none => time))
      else (p, t) }

end Sink

/-- What a descriptor stands for. With `nothing` there is nothing to read, and writing is lost. -/
inductive Port where
  | nothing
  | zeros
  | sink (number : Nat)
  | source (number : Nat)
  deriving DecidableEq, Repr, Inhabited

/-- All sinks and sources, and the files, which are sinks with a path. -/
structure Ports where
  sinks : List (Nat × Sink) := []
  sources : List (Nat × Source) := []
  files : List (Bytes × Nat) := []
  issued : Nat := 0
  deriving Repr, Inhabited

def alter {α : Type} (key : Nat) (f : α → α) : List (Nat × α) → List (Nat × α)
  | [] => []
  | (k, v) :: rest => if k = key then (k, f v) :: rest else (k, v) :: alter key f rest

namespace Ports

def addSink (p : Ports) (s : Sink) : Nat × Ports :=
  (p.issued, { p with sinks := (p.issued, s) :: p.sinks, issued := p.issued + 1 })

def addSource (p : Ports) (s : Source) : Nat × Ports :=
  (p.issued, { p with sources := (p.issued, s) :: p.sources, issued := p.issued + 1 })

def removeSink (p : Ports) (number : Nat) : Sink × Ports :=
  ((p.sinks.lookup number).getD {}, { p with sinks := p.sinks.filter (·.1 != number) })

def removeSource (p : Ports) (number : Nat) : Ports :=
  { p with sources := p.sources.filter (·.1 != number) }

def source (p : Ports) : Port → Source
  | .zeros => .endless [0]
  | .source n => (p.sources.lookup n).getD {}
  | .nothing | .sink _ => {}

def setSource (p : Ports) (port : Port) (s : Source) : Ports :=
  match port with
  | .source n => { p with sources := alter n (fun _ => s) p.sources }
  | _ => p

def write (p : Ports) (port : Port) (w : Writing) : Ports :=
  match port with
  | .sink n =>
    if w.text.isEmpty then p
    else { p with sinks := alter n (fun s => { s with writings := w :: s.writings }) p.sinks }
  | _ => p

def hold (p : Ports) (port : Port) (process : Nat) (time : Option Duration) : Ports :=
  match port with
  | .sink n =>
    { p with
      sinks := alter n (fun s => { s with holders := (process, time) :: s.holders }) p.sinks }
  | _ => p

def cutOff (p : Ports) (process : Nat) (time : Duration) : Ports :=
  { p with sinks := p.sinks.map fun (n, s) => (n, s.cutOff process time) }

end Ports

end AgentGateway.Shell
