import AgentGateway.Client.Basic
import AgentGateway.Power

/-!
# Arguments of the command line

Options come before the command that they belong to, each with a value behind it or behind an
equals sign, and each at most once. The value of an option is looked at when the next option or
the end comes, so that a wish for help on the way is met first.
-/

namespace AgentGateway.CommandLine

inductive LogFormat where
  | text
  | json
  deriving DecidableEq, Repr, Inhabited

/-- What is to be done: one prompt is run and its events are written, or sessions are served. -/
inductive Order where
  | run (key prompt : String) (maxTokens : Option Nat)
  | serve
  deriving DecidableEq, Repr, Inhabited

structure Arguments where
  config : String
  logFormat : LogFormat := .text
  order : Order
  deriving DecidableEq, Repr, Inhabited

inductive Topic where
  | general
  | run
  | serve
  | help
  deriving DecidableEq, Repr, Inhabited

/-- Why there is no order to follow. -/
inductive Halt where
  | help (topic : Topic)
  | version
  | mistake
  deriving DecidableEq, Repr, Inhabited

/-- A number of 32 bits without a sign: digits, perhaps behind a sign that changes nothing. -/
def unsigned32? (text : String) : Option Nat :=
  let (negative, digits) := match text.toList with
    | '-' :: rest => (true, rest)
    | '+' :: rest => (false, rest)
    | rest => (false, rest)
  if digits.isEmpty || !digits.all Char.isDigit then none
  else
    let n := digits.foldl (fun n c => n * 10 + (c.toNat - '0'.toNat)) 0
    if n ≤ maxWord32 ∧ (!negative ∨ n = 0) then some n else none

def logFormat? : String → Option LogFormat
  | "text" => some .text
  | "json" => some .json
  | _ => none

/-- The options and commands that may stand at one place. An option comes with a test of its values.
-/
structure Level where
  topic : Topic
  options : List (String × (String → Bool))
  commands : List String := []

def topLevel : Level where
  topic := .general
  options := [("config", fun v => !v.isEmpty), ("log-format", fun v => (logFormat? v).isSome)]
  commands := ["run", "serve", "help"]

def runLevel : Level where
  topic := .run
  options := [("prompt", fun _ => true), ("key", fun _ => true),
    ("max-tokens", fun v => (unsigned32? v).isSome)]

def serveLevel : Level where
  topic := .serve
  options := []

/-- Options that have been read: those that have been looked at, and one that is still to be. -/
structure Reading where
  settled : List (String × String) := []
  pending : Option (String × Option String) := none
  deriving DecidableEq, Repr, Inhabited

namespace Reading

/-- Looks at the pending option: it needs a value of its own, and may not be there already. -/
def settle (level : Level) (r : Reading) : Except Halt Reading :=
  match r.pending with
  | none => .ok r
  | some (_, none) => .error .mistake
  | some (name, some value) =>
    match level.options.lookup name with
    | some accepts =>
      if accepts value && (r.settled.lookup name).isNone then
        .ok ⟨r.settled ++ [(name, value)], none⟩
      else .error .mistake
    | none => .error .mistake

def halt {α : Type} (level : Level) (r : Reading) (h : Halt) : Except Halt α := do
  let _ ← r.settle level
  throw h

def flag? (level : Level) (name : String) : Option Halt :=
  if name = "help" ∨ name = "h" then some (.help level.topic)
  else if (name = "version" ∨ name = "V") ∧ level.topic = .general then some .version
  else none

def long (level : Level) (text : List Char) (r : Reading) : Except Halt Reading := do
  let name := String.ofList (text.takeWhile (· != '='))
  let value? := match text.drop name.length with
    | _ :: value => some (String.ofList value)
    | [] => none
  match flag? level name, value? with
  | some h, none => if name.length = 1 then throw .mistake else r.halt level h
  | _, _ =>
    if (level.options.lookup name).isNone then throw .mistake
    let r ← r.settle level
    match value? with
    | some value => settle level { r with pending := some (name, some value) }
    | none => return { r with pending := some (name, none) }

/-- Reads arguments up to a command: the options, and the command with what follows it. -/
def read (level : Level) : List String → Reading →
    Except Halt (Reading × Option (String × List String))
  | [], r => .ok (r, none)
  | argument :: rest, r =>
    match argument.toList, r.pending with
    | ['-', '-'], _ => if rest.isEmpty then .ok (r, none) else .error .mistake
    | '-' :: '-' :: text, _ => do read level rest (← r.long level text)
    | '-' :: letter :: _, _ =>
      match flag? level letter.toString with
      | some h => r.halt level h
      | none => .error .mistake
    | _, some (name, none) => read level rest { r with pending := some (name, some argument) }
    | _, _ =>
      if level.commands.contains argument then .ok (r, some (argument, rest))
      else .error .mistake

end Reading

def readHelp : List String → Halt
  | [] => .help .general
  | ["run"] => .help .run
  | ["serve"] => .help .serve
  | ["help"] => .help .help
  | _ => .mistake

/-- Reads the options of a command that has no commands below it. -/
def readOptions (level : Level) (arguments : List String) :
    Except Halt (List (String × String)) := do
  let (r, _) ← Reading.read level arguments {}
  return (← r.settle level).settled

def readOrder (command : String) (arguments : List String) : Except Halt Order :=
  match command with
  | "run" => do
    let options ← readOptions runLevel arguments
    let some prompt := options.lookup "prompt" | throw .mistake
    return .run ((options.lookup "key").getD Client.defaultKey) prompt
      ((options.lookup "max-tokens").bind unsigned32?)
  | "serve" => do
    let _ ← readOptions serveLevel arguments
    return .serve
  | _ => .error (readHelp arguments)

def Arguments.read (arguments : List String) : Except Halt Arguments := do
  let (r, command) ← Reading.read topLevel arguments {}
  let order ← command.mapM fun (name, rest) => readOrder name rest
  let options := (← r.settle topLevel).settled
  let some config := options.lookup "config" | throw .mistake
  let some order := order | throw .mistake
  return { config, logFormat := ((options.lookup "log-format").bind logFormat?).getD .text, order }

end AgentGateway.CommandLine
