import AgentGateway.Host
import AgentGateway.Shell.Reader
import AgentGateway.Shell.Utility

/-!
# The state of a shell

What a shell process knows while it runs a script: its variables and arguments, what its
descriptors stand for, the jobs that it has started, and the time. A process that it starts works
on a copy of this; the ports and the numbering of processes are common to all.
-/

namespace AgentGateway.Shell

/-- Why a command does not go on to the next one: out of some loops around it, to the next round of
one, out of a function, out of the script, because of a signal, or because it never comes to its
end. -/
inductive Leap where
  | leave (levels : Nat)
  | again (levels : Nat)
  | giveBack
  | exit
  | killed (signal : Nat)
  | forever
  deriving DecidableEq, Repr, Inhabited

structure Variable where
  value : Bytes
  exported : Bool := false
  deriving Repr, Inhabited

/-- A process in the background. It may not end, and a signal may end it. -/
structure Job where
  process : Nat
  finish : Option Duration
  status : Nat
  signal : Option Nat := none
  deriving Repr, Inhabited

/-- The state of a shell process. `substituted` is the status of the last substituted command. A
command that fails ends the script if that is `strict`, unless success or failure is being asked for
(`tested`). `traps` says what is done about signals, of which zero stands for the exit, and `hidden`
what local variables hide, for each function in progress. -/
structure State where
  host : Host := {}
  ports : Ports := {}
  processes : Nat := 4001
  process : Nat := 4000
  mainProcess : Nat := 4000
  name : Bytes := []
  arguments : List Bytes := []
  bindings : List (String × Variable) := []
  functions : List (String × Command) := []
  descriptors : List (Nat × Port) := []
  status : Nat := 0
  now : Duration := .zero
  jobs : List Job := []
  lastJob : Option Nat := none
  directory : String := "/"
  line : Nat := 1
  substituted : Option Nat := none
  strict : Bool := false
  tested : Bool := false
  traps : List (Nat × Bytes) := []
  hidden : List (List (String × Option Variable)) := []

abbrev Action := EStateM Leap State

def toText (value : Bytes) : String := String.ofList (Text.Utf8.decodeLossy value)

namespace State

def put {α : Type} (key : String) (value : α) : List (String × α) → List (String × α)
  | [] => [(key, value)]
  | (k, v) :: rest => if k = key then (k, value) :: rest else (k, v) :: put key value rest

def assign (s : State) (name : String) (value : Bytes) : State :=
  let exported := match s.bindings.lookup name with
    | some v => v.exported
    | none => false
  { s with bindings := put name ⟨value, exported⟩ s.bindings }

def «export» (s : State) (name : String) : State :=
  match s.bindings.lookup name with
  | some v => { s with bindings := put name { v with exported := true } s.bindings }
  | none => s

def unset (s : State) (name : String) : State :=
  { s with bindings := s.bindings.filter (·.1 != name) }

def restore (s : State) (name : String) (old : Option Variable) : State :=
  match old with
  | some v => { s with bindings := put name v s.bindings }
  | none => s.unset name

/-- The variables that programs are given, in the order of their names. -/
def environment (s : State) : List (String × Bytes) :=
  ((s.bindings.filter (·.2.exported)).map fun (x, v) => (x, v.value)).mergeSort
    fun a b => decide (a.1 ≤ b.1)

def value? (s : State) (name : String) : Option Bytes :=
  match name with
  | "?" => some (bytes (toString s.status))
  | "#" => some (bytes (toString s.arguments.length))
  | "$" => some (bytes (toString s.mainProcess))
  | "!" => s.lastJob.map fun p => bytes (toString p)
  | "-" => some (if s.strict then bytes "e" else [])
  | "0" => some s.name
  | "@" | "*" =>
    if s.arguments.isEmpty then none else some (List.intercalate [32] s.arguments)
  | _ =>
    let chars := name.toList
    if chars.all Char.isDigit then s.arguments[digitsValue chars - 1]?
    else (s.bindings.lookup name).map (·.value)

def separators (s : State) : Bytes :=
  match s.bindings.lookup "IFS" with
  | some v => v.value
  | none => [32, 9, 10]

def port? (s : State) (descriptor : Nat) : Option Port := s.descriptors.lookup descriptor

def setPort (s : State) (descriptor : Nat) (port : Option Port) : State :=
  let others := s.descriptors.filter (·.1 != descriptor)
  { s with descriptors := match port with
      | some p => (descriptor, p) :: others
      | none => others }

/-- Writes to a descriptor at a moment. Tells whether it is open. -/
def writeAt (s : State) (time : Duration) (descriptor : Nat) (text : Bytes) : State × Bool :=
  match s.port? descriptor with
  | some p => ({ s with ports := s.ports.write p ⟨time, s.process, text⟩ }, true)
  | none => (s, false)

def write (s : State) (descriptor : Nat) (text : Bytes) : State × Bool :=
  s.writeAt s.now descriptor text

/-- Says something about the command on the current line. -/
def complain (s : State) (text : Bytes) : State :=
  (s.write 2 (s.name ++ bytes (": " ++ toString s.line ++ ": ") ++ text ++ [10])).1

def source (s : State) (descriptor : Nat) : Source :=
  match s.port? descriptor with
  | some p => s.ports.source p
  | none => {}

def setSource (s : State) (descriptor : Nat) (source : Source) : State :=
  match s.port? descriptor with
  | some p => { s with ports := s.ports.setSource p source }
  | none => s

def fullPath (s : State) (path : Bytes) : Bytes :=
  if path.head? = some 47 then path else bytes s.directory ++ 47 :: path

/-- The device of a path, if it is one: what it stands for, or that it stands for nothing that is
open. -/
def device? (s : State) (path : Bytes) : Option (Option Port) :=
  match toText path with
  | "/dev/null" => some (some .nothing)
  | "/dev/zero" => some (some .zeros)
  | "/dev/stdin" | "/dev/fd/0" => some (s.port? 0)
  | "/dev/stdout" | "/dev/fd/1" => some (s.port? 1)
  | "/dev/stderr" | "/dev/fd/2" => some (s.port? 2)
  | _ => none

def readFile (s : State) (path : Bytes) : Except SystemError Source :=
  match s.device? path with
  | some (some p) => .ok (s.ports.source p)
  | some none => .error (SystemError.ofNumber 6)
  | none =>
    match s.ports.files.lookup (s.fullPath path) with
    | some n =>
      let content := (((s.ports.sinks.lookup n).getD {}).toSource.chunks.filter fun c =>
        decide (c.1 ≤ s.now)).map (·.2)
      .ok (.ofBytes content.flatten)
    | none =>
      match s.host.find s.directory (toText path) with
      | .ok (_, .document content) => .ok (.ofBytes content)
      | .ok (_, .program _) => .ok {}
      | .ok (_, .folder) => .error (SystemError.ofNumber 21)
      | .error e => .error e

def parentOf (path : Bytes) : Bytes :=
  let before := (path.reverse.dropWhile (· != 47)).drop 1
  if before.isEmpty then [47] else before.reverse

def openFile (s : State) (path : Bytes) (appending : Bool) : Except String (Port × State) :=
  match s.device? path with
  | some (some p) => .ok (p, s)
  | some none => .error "No such device or address"
  | none =>
    let full := s.fullPath path
    match s.ports.files.lookup full, appending with
    | some n, true => .ok (.sink n, s)
    | _, _ =>
      match s.host.find s.directory (toText path) with
      | .ok (_, .folder) => .error "Is a directory"
      | .ok (_, _) => .error "Permission denied"
      | .error _ =>
        if path.isEmpty then .error "Directory nonexistent"
        else
          match s.host.findFolder "/" (toText (parentOf full)) with
          | .error _ => .error "Directory nonexistent"
          | .ok _ =>
            let (n, ports) := s.ports.addSink {}
            let files := (full, n) :: ports.files.filter (·.1 != full)
            .ok (.sink n, { s with ports := { ports with files } })

/-- Whether there is something at a path, and of what sort. -/
def lookAt (s : State) (path : Bytes) : Option Entry :=
  if (s.device? path).isSome then some (.document [])
  else
    match s.ports.files.lookup (s.fullPath path) with
    | some n => some (.document ((s.ports.sinks.lookup n).getD {}).toSource.all)
    | none => (s.host.find s.directory (toText path)).toOption.map (·.2)

def resolve (s : State) (name : Bytes) : Except SystemError Program :=
  s.host.resolve s.directory ((s.bindings.lookup "PATH").map fun v => toText v.value)
    (toText name)

end State

def update (f : State → State) : Action Unit := modify f

def finishWith (status : Nat) : Action Unit := modify fun s => { s with status }

def complainWith (status : Nat) (text : Bytes) : Action Unit :=
  modify fun s => { s.complain text with status }

/-- Lets time pass up to a moment, which may never come. -/
def waitUntil (moment : Option Duration) : Action Unit := do
  match moment with
  | some t => modify fun s => { s with now := Source.later s.now t }
  | none => throw .forever

/-- Runs something in a process of its own, from now on. What it does to the state is lost but for
the ports; its end is told. -/
def inProcess (setup : State → State) (body : Action Unit) : Action Job := fun s =>
  let process := s.processes
  let child := setup { s with
    process, processes := process + 1, jobs := []
    traps := s.traps.filter (·.2.isEmpty) }
  let (job, child) : Job × State := match body child with
    | .ok _ child | .error .exit child | .error .giveBack child | .error (.leave _) child
    | .error (.again _) child => (⟨process, some child.now, child.status, none⟩, child)
    | .error (.killed signal) child =>
      (⟨process, some child.now, 128 + signal, some signal⟩, child)
    | .error .forever child => (⟨process, none, 0, none⟩, child)
  let ports := child.descriptors.foldl (fun ports d => ports.hold d.2 process job.finish)
    child.ports
  .ok job { s with ports, processes := child.processes }

end AgentGateway.Shell
