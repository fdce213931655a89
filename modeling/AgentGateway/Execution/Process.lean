import AgentGateway.Execution.Script
import AgentGateway.Framing
import AgentGateway.Shell.Evaluation

/-!
# Running the agent as a process

The agent's program is started on a host, given its arguments, its input, and a few variables, and
followed until it has ended and closed its outputs. If its time is up or its caller cancels before
that, it is killed together with everything that it started.
-/

namespace AgentGateway.Execution

open Shell (Bytes Source Sink Action State)

/-- How the agent is started. The agent is given the `surroundings` of the gateway and on top of
them the variables in `env`; `binary` is a path, or a name to be looked for. -/
structure Launcher where
  host : Host := {}
  surroundings : List (String × String) := []
  binary : String
  env : List (String × String) := []
  deriving Repr, Inhabited

/-- What became of a process that was left to itself. It may not end, and need not wait for its jobs
in the background. -/
structure Course where
  output : Source
  errors : Source
  finish : Option Duration
  exitCode : Int
  jobs : List Shell.Job := []
  deriving Repr, Inhabited

inductive Stop where
  | timeout
  | cancel
  deriving DecidableEq, Repr, Inhabited

/-- The variables that pass from the gateway to the agent. -/
def passedOn : List String :=
  ["PATH", "HOME", "LANG", "TERM", "RUST_LOG", "USERPROFILE", "SystemRoot", "TEMP", "TMP",
    "USERNAME", "APPDATA", "LOCALAPPDATA", "COMSPEC"]

namespace Launcher

/-- The variables that the agent is given. Those given on top replace those passed on. -/
def environment (l : Launcher) : List (String × String) :=
  (l.surroundings.filter fun (x, _) => passedOn.contains x && (l.env.lookup x).isNone) ++ l.env

/-- The longest text that a program can be given as an argument or a variable. -/
def longestArgument : Nat := 131071

/-- Texts with a zero byte, and texts that are too long, cannot be passed to a program. -/
def objection? (l : Launcher) (r : Request) : Option SystemError :=
  let texts := l.binary :: r.args ++ l.environment.map fun (x, v) => x ++ "=" ++ v
  if (r.workingDir :: texts).any fun t => t.toList.contains '\x00' then
    some (SystemError.ofKind "InvalidInput" "nul byte found in provided data")
  else if texts.any fun t => longestArgument < t.utf8ByteSize then
    some (SystemError.ofNumber 7)
  else none

/-- The program that is started, and the folder that it is started in. -/
def program (l : Launcher) (r : Request) : Except SystemError (Program × String) := do
  if let some e := l.objection? r then throw e
  let folder ← l.host.findFolder l.host.directory r.workingDir
  return (← l.host.resolve folder (l.environment.lookup "PATH") l.binary, folder)

def start (l : Launcher) (r : Request) (program : Program) (folder : String) : State :=
  let shellVariables := match program with
    | .shell => [("PWD", Shell.Variable.mk (Shell.bytes folder) true)]
    | .utility _ => []
  let bindings := l.environment.foldl (fun vs (x, v) =>
    State.put x ⟨Shell.bytes v, true⟩ vs) shellVariables
  let input := match r.input with
    | some _ => Shell.Port.source 2
    | none => .nothing
  { host := l.host
    ports :=
      { sinks := [(0, {}), (1, {})]
        sources := [(2, .ofBytes (r.input.getD []))]
        issued := 3 }
    name := Shell.bytes l.binary
    bindings
    descriptors := [(0, input), (1, .sink 0), (2, .sink 1)]
    directory := folder }

def action (program : Program) (name : String) (args : List String) : Action Unit :=
  let arguments := args.map Shell.bytes
  match program with
  | .shell => Shell.runShell Shell.patience arguments
  | .utility _ => Shell.runProgram Shell.patience (Shell.bytes name) arguments

/-- Starts the agent and follows it to its end. -/
def course (l : Launcher) (r : Request) : Except Failure Course :=
  match l.program r with
  | .error e => .error e.launchFailure
  | .ok (program, folder) =>
    let (finish, code, s) : Option Duration × Nat × State :=
      match action program l.binary r.args (l.start r program folder) with
      | .ok _ s => (some s.now, s.status, s)
      | .error (.killed signal) s => (some s.now, 128 + signal, s)
      | .error .forever s => (none, 0, s)
      | .error _ s => (some s.now, s.status, s)
    let sink (number : Nat) : Source :=
      let k := (s.ports.sinks.lookup number).getD {}
      ({ k with holders := (s.process, finish) :: k.holders } : Sink).toSource
    .ok { output := sink 0, errors := sink 1, finish, exitCode := code, jobs := s.jobs }

end Launcher

namespace Course

/-- When the program has ended and both of its outputs are closed. -/
def done? (c : Course) : Option Duration := do
  return Source.later (Source.later (← c.finish) (← c.output.ending)) (← c.errors.ending)

/-- What stops a process, and when, if it is stopped before it is done. A process takes some time
for whatever it does, so one that is stopped at the very moment is not done. -/
def stop? (c : Course) (timeout : Duration) (cancelAt : Option Duration) :
    Option (Duration × Stop) :=
  let first := match cancelAt with
    | some t => if t < timeout then (t, Stop.cancel) else (timeout, .timeout)
    | none => (timeout, .timeout)
  match c.done? with
  | some t => if t < first.1 then none else some first
  | none => some first

/-- The chunks of output that come before a process is stopped. -/
def chunksUntil (c : Course) (moment : Duration) : List Bytes :=
  (c.output.chunks.filter fun (t, _) => decide (t < moment)).map (·.2)

def linesOf (frames : List Frame) : List (List Char) :=
  frames.filterMap fun f => match f with
    | .line text => some text
    | .oversized => none

/-- The lines that a process gives, up to its end or until it is stopped. -/
def lines (c : Course) (stop : Option Duration) : List (List Char) :=
  match stop with
  | none =>
    linesOf (Framer.frameChunks Framer.maxLine {} [c.output.all])
  | some t =>
    linesOf ((({} : Framer).append (c.chunksUntil t).flatten).drain Framer.maxLine).1

/-- The processes that outlive an execution. One that is stopped takes all of its processes with
it. -/
def survivors (c : Course) (stopped : Bool) : List Shell.Job :=
  if stopped then []
  else c.jobs.filter fun job => match job.finish, c.done? with
    | some t, some u => decide (u < t)
    | _, _ => true

def result (c : Course) : Result where
  exitCode := c.exitCode
  stdout := Text.Utf8.decodeLossy c.output.all
  stderr := Text.Utf8.decodeLossy c.errors.all

end Course

/-- What the caller of a stopped execution learns. -/
def Stop.failure (stop : Stop) (timeout : Duration) : Failure :=
  match stop with
  | .timeout => .timeout ("agent did not finish within " ++ timeout.format)
  | .cancel => .cancelled "execution cancelled by caller"

namespace Launcher

def execute (l : Launcher) (r : Request) (cancelAt : Option Duration) : Except Failure Result := do
  let c ← l.course r
  match c.stop? r.timeout cancelAt with
  | some (_, stop) => throw (stop.failure r.timeout)
  | none => return c.result

/-- Runs the agent and passes its output on line by line: the lines, and the exit code. -/
def stream (l : Launcher) (r : Request) (cancelAt : Option Duration) :
    List (List Char) × Except Failure Int :=
  match l.course r with
  | .error f => ([], .error f)
  | .ok c =>
    match c.stop? r.timeout cancelAt with
    | some (t, stop) => (c.lines (some t), .error (stop.failure r.timeout))
    | none => (c.lines none, .ok c.exitCode)

/-- The agent that is started anew for each execution. -/
def agent (l : Launcher) : Agent := fun _ r =>
  match l.course r with
  | .error f => { failure := some f }
  | .ok c =>
    match c.stop? r.timeout none with
    | some (t, stop) =>
      { after := some t, lines := (c.lines (some t)).map String.ofList
        failure := some (stop.failure r.timeout) }
    | none =>
      { after := c.done?, result := c.result, lines := (c.lines none).map String.ofList }

end Launcher

end AgentGateway.Execution
