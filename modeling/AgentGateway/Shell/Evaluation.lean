import AgentGateway.Shell.Arithmetic
import AgentGateway.Shell.Condition
import AgentGateway.Shell.Fragment

/-!
# Running scripts

Commands change the state of the shell that runs them. The fuel bounds the depth of commands and
the rounds of a loop; a script that uses it up is one that never ends.
-/

namespace AgentGateway.Shell

/-! ## What needs no other command -/

def putOut (name : String) (text : Bytes) : Action Unit := do
  let (s, open_) := (← get).write 1 text
  set s
  if open_ then finishWith 0
  else complainWith 1 (bytes (name ++ ": " ++ name ++ ": I/O error"))

/-- Ends the script because of a mistake in a command. -/
def stopScript {α : Type} (text : Bytes) : Action α := do
  complainWith 2 text
  throw .exit

def assignNumbers (values : Arithmetic.Values) : Action Unit :=
  update fun s => values.reverse.foldl (fun s (x, n) => s.assign x (bytes (toString n))) s

def calculate (text : Bytes) : Action Bytes := do
  let s ← get
  let chars := Text.Utf8.decodeLossy text
  let look (x : String) : Except Arithmetic.Problem Int :=
    Arithmetic.ofText (Text.Utf8.decodeLossy ((s.value? x).getD []))
  match Arithmetic.read chars with
  | .error lack =>
    stopScript (bytes ("arithmetic expression: " ++ lack.text ++ ": \"") ++ text ++ bytes "\"")
  | .ok e =>
    match Arithmetic.evaluate look e [] with
    | .ok (n, values) =>
      assignNumbers values
      return bytes (toString n)
    | .error .divisionByZero =>
      stopScript (bytes "arithmetic expression: division by zero: \"" ++ text ++ bytes "\"")
    | .error (.badNumber value) =>
      stopScript (bytes "Illegal number: " ++ Text.Utf8.encode value)

/-- A word whose first piece may be a tilde that stands for the home folder. -/
def withHome (s : State) (word : List Piece) : List Piece :=
  match word, s.value? "HOME" with
  | .text (126 :: rest) false :: more, some home =>
    if (rest.isEmpty ∧ more.isEmpty) ∨ rest.head? = some 47 then
      .text home true :: .text rest false :: more
    else word
  | _, _ => word

/-- Says that a signal has ended a process that was waited for. -/
def mourn (job : Job) : Action Unit :=
  match job.signal with
  | some signal =>
    if signal = 2 ∨ signal = 13 then pure ()
    else update fun s => (s.write 2 (bytes (obituary signal ++ "\n"))).1
  | none => pure ()

def parameterFragments (s : State) (name : String) (quoted : Bool) : List Fragment :=
  let joined := List.intersperse .boundary
    (s.arguments.map fun a => if quoted then Fragment.fixed a true else .loose a)
  match name, quoted with
  | "@", _ | "*", false => joined
  | "*", true =>
    match s.separators with
    | [] => [.fixed s.arguments.flatten true]
    | separator :: _ => [.fixed (List.intercalate [separator] s.arguments) true]
  | _, _ =>
    match s.value? name with
    | some value => [if quoted then .fixed value true else .loose value]
    | none => if quoted then [.fixed [] true] else []

def valueFragment (value : Bytes) (quoted : Bool) : Fragment :=
  if quoted then .fixed value true else .loose value

/-- Takes off the newlines at the end of a text, and the bytes that no value can have. -/
def trimOutput (text : Bytes) : Bytes :=
  ((text.filter (· != 0)).reverse.dropWhile (· == 10)).reverse

/-- Names the variable and the value of an assignment. -/
def splitAssignment (text : Bytes) : String × Option Bytes :=
  let name := text.takeWhile (· != 61)
  (toText name, if name.length < text.length then some (text.drop (name.length + 1)) else none)

/-- The fields of a line that is read: as many as there are names, the last with all the rest. -/
def readFields (separators : Bytes) : (names : Nat) → Bytes → List Bytes
  | 0, _ => []
  | 1, line =>
    let isBlank (b : UInt8) : Bool := separators.contains b && Filter.isSpace b
    [((line.dropWhile isBlank).reverse.dropWhile isBlank).reverse]
  | n + 1, line =>
    let isBlank (b : UInt8) : Bool := separators.contains b && Filter.isSpace b
    let line := line.dropWhile isBlank
    let field := line.takeWhile fun b => !separators.contains b
    let rest := (line.drop field.length).dropWhile isBlank
    let rest := match rest with
      | b :: more => if separators.contains b then more else rest
      | [] => []
    field :: readFields separators n rest

def dropBackslashes : Bytes → Bytes
  | 92 :: b :: rest => b :: dropBackslashes rest
  | b :: rest => b :: dropBackslashes rest
  | [] => []

def readLine (arguments : List Bytes) : Action Unit := do
  let (raw, names) := match arguments with
    | [45, 114] :: names => (true, names)
    | names => (false, names)
  let s ← get
  let source := s.source 0
  let (line, found, finish, left) := Source.takeLine source.chunks source.ending s.now
  update fun s => s.setSource 0 left
  waitUntil finish
  let line := if raw then line else dropBackslashes line
  let names := if names.isEmpty then [bytes "REPLY"] else names
  let values := readFields s.separators names.length line
  update fun s => (names.zip values).foldl (fun s (x, v) => s.assign (toText x) v) s
  finishWith (if found then 0 else 1)

def changeFolder (arguments : List Bytes) : Action Unit := do
  let s ← get
  let target := match arguments with
    | [] => (s.value? "HOME").getD [47]
    | a :: _ => if a = [45] then (s.value? "OLDPWD").getD (bytes s.directory) else a
  match s.host.findFolder s.directory (toText target) with
  | .ok folder =>
    update fun s =>
      { (s.assign "OLDPWD" (bytes s.directory)).assign "PWD" (bytes folder) with
        directory := folder, status := 0 }
  | .error _ => complainWith 2 (bytes "cd: can't cd to " ++ target)

def waitForJobs (arguments : List Bytes) : Action Unit := do
  let s ← get
  match arguments with
  | [] =>
    s.jobs.forM fun job => waitUntil job.finish
    update fun s => { s with jobs := [], status := 0 }
  | _ =>
    for a in arguments do
      match s.jobs.find? fun job => bytes (toString job.process) = a with
      | some job =>
        waitUntil job.finish
        mourn job
        finishWith job.status
      | none => finishWith 127

def killJob (process signal : Nat) : Action Unit :=
  update fun s =>
    { s with
      ports := s.ports.cutOff process s.now
      jobs := s.jobs.map fun job =>
        let ended := match job.finish with
          | some t => decide (t ≤ s.now)
          | none => false
        if job.process = process ∧ !ended then
          ⟨process, some s.now, 128 + signal, some signal⟩
        else job }

def wordsOf (text : Bytes) : List Bytes := Fragment.fields [32, 9, 10] [.loose text]

/-- The builtin commands that are found before functions, and whose assignments stay. -/
def specialBuiltins : List String :=
  [":", "break", "continue", "eval", "exec", "exit", "export", "readonly", "return", "set",
    "shift", "times", "trap", "unset"]

def builtins : List String :=
  ["[", "cd", "command", "echo", "false", "kill", "local", "printf", "pwd", "read", "test", "true",
    "type", "umask", "wait"]

def whereabouts (s : State) (name : Bytes) : Option Bytes :=
  if name.contains 47 then (s.resolve name).toOption.map fun _ => name
  else
    let folders := Text.split (· == 58) ((s.value? "PATH").getD (bytes Host.usualSearch))
    (folders.map (· ++ 47 :: name)).find? fun path => (s.resolve path).toOption.isSome

def describeCommand (s : State) (name : Bytes) : Option Bytes :=
  let text := toText name
  let named (what : String) : Option Bytes := some (name ++ bytes (" is " ++ what))
  if specialBuiltins.contains text then named "a special shell builtin"
  else if (s.functions.lookup text).isSome then named "a shell function"
  else if builtins.contains text then named "a shell builtin"
  else (whereabouts s name).map fun path => name ++ bytes " is " ++ path

def commandPath (s : State) (name : Bytes) : Option Bytes :=
  let text := toText name
  if specialBuiltins.contains text ∨ builtins.contains text ∨
      (s.functions.lookup text).isSome then some name
  else whereabouts s name

def statusOf (argument : Bytes) : Option Nat :=
  match count? argument with
  | some n => some (n % 256)
  | none => none

/-! ## The descent -/

mutual

def expand : (fuel : Nat) → List Piece → Action (List Fragment)
  | 0, _ => throw .forever
  | _, [] => return []
  | fuel + 1, piece :: rest => do
    let first ← expandPiece fuel piece
    return first ++ (← expand fuel rest)

def expandPiece : (fuel : Nat) → Piece → Action (List Fragment)
  | 0, _ => throw .forever
  | fuel + 1, piece => do
    match piece with
    | .text value quoted => return [.fixed value quoted]
    | .output body quoted =>
      let text ← captureOutput fuel body
      return [valueFragment text quoted]
    | .number expression quoted =>
      let text := Fragment.whole (← expand fuel expression)
      return [valueFragment (← calculate text) quoted]
    | .parameter name how operand quoted =>
      let s ← get
      let value := s.value? name
      let isMissing (orEmpty : Bool) : Bool := match value with
        | none => true
        | some v => orEmpty && v.isEmpty
      let found := parameterFragments s name quoted
      match how with
      | .plain => return found
      | .length =>
        let text := Text.Utf8.decodeLossy (value.getD [])
        return [valueFragment (bytes (toString text.length)) quoted]
      | .orElse orEmpty => if isMissing orEmpty then expand fuel operand else return found
      | .instead orEmpty =>
        if isMissing orEmpty then return (if quoted then [.fixed [] true] else [])
        else expand fuel operand
      | .assign orEmpty =>
        if isMissing orEmpty then
          let text := Fragment.whole (← expand fuel operand)
          update fun s => s.assign name text
          return [valueFragment text quoted]
        else return found
      | .demand orEmpty =>
        if isMissing orEmpty then
          let text := Fragment.whole (← expand fuel operand)
          let text := if text.isEmpty then
            bytes (if orEmpty then "parameter not set or null" else "parameter not set") else text
          stopScript (bytes (name ++ ": ") ++ text)
        else return found
      | .cutFront longest =>
        let pattern := Fragment.pattern (← expand fuel operand)
        return [valueFragment (pattern.cutFront longest (value.getD [])) quoted]
      | .cutBack longest =>
        let pattern := Fragment.pattern (← expand fuel operand)
        return [valueFragment (pattern.cutBack longest (value.getD [])) quoted]

/-- What a command writes, without the newlines at its end. -/
def captureOutput : (fuel : Nat) → Command → Action Bytes
  | 0, _ => throw .forever
  | fuel + 1, body => do
    let s ← get
    let (number, ports) := s.ports.addSink {}
    set { s with ports }
    let job ← inProcess (fun s => s.setPort 1 (some (.sink number))) (run fuel body)
    let s ← get
    let (sink, ports) := s.ports.removeSink number
    set { s with ports, status := job.status, substituted := some job.status }
    waitUntil job.finish
    let source := sink.toSource
    waitUntil source.ending
    return trimOutput source.all

def expandWords : (fuel : Nat) → List (List Piece) → List Bytes → Action (List Bytes)
  | 0, _, _ => throw .forever
  | _, [], done => return done
  | fuel + 1, word :: rest, done => do
    let fragments ← expand fuel (withHome (← get) word)
    let fields := Fragment.fields (← get).separators fragments
    expandWords fuel rest (done ++ fields)

def assignAll : (fuel : Nat) → List (String × List Piece) → (exporting : Bool) → Action Unit
  | 0, _, _ => throw .forever
  | _, [], _ => return ()
  | fuel + 1, (name, word) :: rest, exporting => do
    let value := Fragment.whole (← expand fuel (withHome (← get) word))
    update fun s =>
      let s := s.assign name value
      if exporting then s.export name else s
    assignAll fuel rest exporting

/-- Makes redirections, one after the other. Tells whether all could be made. -/
def redirectAll : (fuel : Nat) → List Redirection → Action Bool
  | 0, _ => throw .forever
  | _, [] => return true
  | fuel + 1, redirection :: rest => do
    match redirection with
    | .file descriptor how word =>
      let path := Fragment.whole (← expand fuel (withHome (← get) word))
      let s ← get
      match how with
      | .reading =>
        match s.device? path with
        | some port =>
          set (s.setPort descriptor port)
          redirectAll fuel rest
        | none =>
          match s.readFile path with
          | .ok source =>
            let (number, ports) := s.ports.addSource source
            set ({ s with ports }.setPort descriptor (some (.source number)))
            redirectAll fuel rest
          | .error e =>
            let why := reason e
            let why := if why = "No such file or directory" then "No such file" else why
            complainWith 2 (bytes "cannot open " ++ path ++ bytes (": " ++ why))
            return false
      | _ =>
        match s.openFile path (how = .appending) with
        | .ok (port, s) =>
          set (s.setPort descriptor (some port))
          redirectAll fuel rest
        | .error why =>
          complainWith 2 (bytes "cannot create " ++ path ++ bytes (": " ++ why))
          return false
    | .copy descriptor word =>
      let source := Fragment.whole (← expand fuel word)
      let s ← get
      if source = [45] then
        set (s.setPort descriptor none)
        redirectAll fuel rest
      else
        match (count? source).bind s.port? with
        | some port =>
          set (s.setPort descriptor (some port))
          redirectAll fuel rest
        | none =>
          complainWith 2 (source ++ bytes ": Bad file descriptor")
          return false
    | .document descriptor word =>
      let text := Fragment.whole (← expand fuel word)
      let s ← get
      let (number, ports) := s.ports.addSource (.ofBytes text)
      set ({ s with ports }.setPort descriptor (some (.source number)))
      redirectAll fuel rest

/-- Runs something with redirections that end with it. -/
def withRedirections : (fuel : Nat) → List Redirection → Action Unit → Action Unit
  | 0, _, _ => throw .forever
  | fuel + 1, redirections, body => do
    let before := (← get).descriptors
    if ← redirectAll fuel redirections then
      try body
      catch leap =>
        if leap ≠ .forever then update fun s => { s with descriptors := before }
        throw leap
    update fun s => { s with descriptors := before }

def run : (fuel : Nat) → Command → Action Unit
  | 0, _ => throw .forever
  | fuel + 1, command => do
    match command with
    | .nothing => return ()
    | .simple line assignments words redirections =>
      update fun s => { s with line, substituted := none }
      let fields ← expandWords fuel words []
      match fields with
      | [] =>
        withRedirections fuel redirections (do
          assignAll fuel assignments false
          update fun s => { s with status := s.substituted.getD 0 })
      | name :: arguments => runSimple fuel assignments name arguments redirections
      let s ← get
      if s.strict ∧ !s.tested ∧ s.status ≠ 0 then throw .exit
    | .join how first second =>
      match how with
      | .always => run fuel first
      | _ => runTested fuel first
      let s ← get
      if how = .always ∨ (how = .onSuccess ∧ s.status = 0) ∨
          (how = .onFailure ∧ s.status ≠ 0) then run fuel second
    | .negate body =>
      runTested fuel body
      update fun s => { s with status := if s.status = 0 then 1 else 0 }
    | .pipeline parts =>
      let s ← get
      let jobs ← runParts fuel parts (s.port? 0)
      jobs.forM fun job => waitUntil job.finish
      jobs.getLast?.forM fun job => do
        mourn job
        finishWith job.status
    | .background body =>
      let job ← inProcess (fun s => s.setPort 0 (some .nothing)) (run fuel body)
      update fun s =>
        { s with jobs := s.jobs ++ [job], lastJob := some job.process, status := 0 }
    | .isolate body =>
      let job ← inProcess id (run fuel body)
      waitUntil job.finish
      mourn job
      finishWith job.status
    | .redirect body redirections => withRedirections fuel redirections (run fuel body)
    | .branch condition body other =>
      runTested fuel condition
      if (← get).status = 0 then run fuel body
      else
        finishWith 0
        run fuel other
    | .loop whileSuccess condition body => runLoop fuel whileSuccess condition body 0
    | .each name words body =>
      let values ← match words with
        | some words => expandWords fuel words []
        | none => pure (← get).arguments
      finishWith 0
      runEach fuel name values body
    | .choose subject cases =>
      let text := Fragment.whole (← expand fuel (withHome (← get) subject))
      finishWith 0
      runCases fuel text cases
    | .define name body =>
      update fun s => { s with functions := State.put name body s.functions, status := 0 }

/-- Runs a command whose failure is asked for. -/
def runTested : (fuel : Nat) → Command → Action Unit
  | 0, _ => throw .forever
  | fuel + 1, command => do
    let before := (← get).tested
    update fun s => { s with tested := true }
    run fuel command
    update fun s => { s with tested := before }

/-- Runs the rounds of a loop. `last` is the status of the round before. -/
def runLoop : (fuel : Nat) → (whileSuccess : Bool) → (condition body : Command) → (last : Nat) →
    Action Unit
  | 0, _, _, _, _ => throw .forever
  | fuel + 1, whileSuccess, condition, body, last => do
    let more : Bool ← try
        runTested fuel condition
        if ((← get).status = 0) = whileSuccess then
          run fuel body
          pure true
        else
          finishWith last
          pure false
      catch leap =>
        match leap with
        | .leave 0 | .leave 1 => pure false
        | .leave n => throw (.leave (n - 1))
        | .again 0 | .again 1 => pure true
        | .again n => throw (.again (n - 1))
        | leap => throw leap
    if more then
      let status := (← get).status
      runLoop fuel whileSuccess condition body status
    else return ()

def runEach : (fuel : Nat) → (name : String) → List Bytes → Command → Action Unit
  | 0, _, _, _ => throw .forever
  | _, _, [], _ => return ()
  | fuel + 1, name, value :: rest, body => do
    update fun s => s.assign name value
    let more : Bool ← try
        run fuel body
        pure true
      catch leap =>
        match leap with
        | .leave 0 | .leave 1 => pure false
        | .leave n => throw (.leave (n - 1))
        | .again 0 | .again 1 => pure true
        | .again n => throw (.again (n - 1))
        | leap => throw leap
    if more then runEach fuel name rest body else return ()

def runCases : (fuel : Nat) → Bytes → List (List (List Piece) × Command) → Action Unit
  | 0, _, _ => throw .forever
  | _, _, [] => return ()
  | fuel + 1, text, (patterns, body) :: rest => do
    if ← matchesAny fuel text patterns then run fuel body
    else runCases fuel text rest

def matchesAny : (fuel : Nat) → Bytes → List (List Piece) → Action Bool
  | 0, _, _ => throw .forever
  | _, _, [] => return false
  | fuel + 1, text, word :: rest => do
    let pattern := Fragment.pattern (← expand fuel word)
    if pattern.matchesAll text then return true
    else matchesAny fuel text rest

/-- Runs the parts of a pipeline, each as a process that reads what the one before it writes. A
process that would write forever ends with its reader. -/
def runParts : (fuel : Nat) → List Command → (input : Option Port) → Action (List Job)
  | 0, _, _ => throw .forever
  | _, [], _ => return []
  | fuel + 1, [part], input => do
    return [← inProcess (fun s => s.setPort 0 input) (run fuel part)]
  | fuel + 1, part :: rest, input => do
    let s ← get
    let (number, ports) := s.ports.addSink {}
    set { s with ports }
    let job ← inProcess (fun s => (s.setPort 0 input).setPort 1 (some (.sink number)))
      (run fuel part)
    let s ← get
    let (sink, ports) := s.ports.removeSink number
    let (source, ports) := ports.addSource sink.toSource
    set { s with ports }
    let jobs ← runParts fuel rest (some (.source source))
    update fun s => { s with ports := s.ports.removeSource source }
    match job.finish, sink.writings, jobs.head?.bind (·.finish) with
    | none, _ :: _, some t =>
      update fun s => { s with ports := s.ports.cutOff job.process t }
      return { job with finish := some t, status := 141 } :: jobs
    | _, _, _ => return job :: jobs

def runSimple : (fuel : Nat) → List (String × List Piece) → (name : Bytes) → List Bytes →
    List Redirection → Action Unit
  | 0, _, _, _, _ => throw .forever
  | fuel + 1, assignments, name, arguments, redirections => do
    let text := toText name
    if text = "exec" then
      if ← redirectAll fuel redirections then
        match arguments with
        | [] => finishWith 0
        | name :: arguments =>
          assignAll fuel assignments true
          match (← get).resolve name with
          | .ok _ => runProgram fuel name arguments
          | .error e =>
            let denied := e = SystemError.ofNumber 13
            complainWith (if denied then 126 else 127)
              (bytes "exec: " ++ name ++ bytes (if denied then ": Permission denied"
                else ": not found"))
          throw .exit
      else throw .exit
    else if specialBuiltins.contains text then
      assignAll fuel assignments false
      withRedirections fuel redirections (runSpecial fuel text arguments)
    else
      let before := (← get).bindings
      let restored (s : State) : State := assignments.foldl (fun s (x, _) =>
        s.restore x (before.lookup x)) s
      withRedirections fuel redirections (do
        assignAll fuel assignments true
        try
          match (← get).functions.lookup text with
          | some body => runFunction fuel body arguments
          | none =>
            if builtins.contains text then runBuiltin fuel text arguments
            else runProgram fuel name arguments
        catch leap =>
          update restored
          throw leap)
      update restored

def runFunction : (fuel : Nat) → Command → List Bytes → Action Unit
  | 0, _, _ => throw .forever
  | fuel + 1, body, arguments => do
    let before := (← get).arguments
    let leave (s : State) : State :=
      let s := (s.hidden.headD []).foldl (fun s (x, old) => s.restore x old) s
      { s with arguments := before, hidden := s.hidden.drop 1 }
    update fun s => { s with arguments, hidden := [] :: s.hidden }
    try run fuel body
    catch leap =>
      if leap ≠ .giveBack then
        update leave
        throw leap
    update leave

/-- Runs a builtin command that concerns the shell itself. -/
def runSpecial : (fuel : Nat) → (name : String) → List Bytes → Action Unit
  | 0, _, _ => throw .forever
  | fuel + 1, name, arguments => do
    let levels := match arguments.head?.bind count? with
      | some n => n
      | none => 1
    match name with
    | "break" => throw (.leave levels)
    | "continue" => throw (.again levels)
    | "exit" | "return" =>
      match arguments with
      | [] => pure ()
      | a :: _ =>
        match statusOf a with
        | some n => finishWith n
        | none => stopScript (bytes (name ++ ": Illegal number: ") ++ a)
      throw (if name = "exit" then .exit else .giveBack)
    | "eval" => runText fuel (List.intercalate [32] arguments)
    | "export" | "readonly" =>
      arguments.forM fun a => do
        let (x, value) := splitAssignment a
        update fun s =>
          let s := match value with
            | some v => s.assign x v
            | none => s
          if name = "export" then s.export x else s
      finishWith 0
    | "unset" =>
      update fun s => arguments.foldl (fun s a => s.unset (toText a)) { s with status := 0 }
    | "shift" =>
      let s ← get
      if s.arguments.length < levels then stopScript (bytes "shift: can't shift that many")
      else set { s with arguments := s.arguments.drop levels, status := 0 }
    | "set" =>
      let s := { (← get) with status := 0 }
      match arguments with
      | [] => set s
      | a :: rest =>
        if a = bytes "--" then set { s with arguments := rest }
        else if a = bytes "-e" then set { s with strict := true }
        else if a = bytes "+e" then set { s with strict := false }
        else if a.head? = some 45 ∨ a.head? = some 43 then set s
        else set { s with arguments }
    | "trap" =>
      match arguments with
      | action :: names =>
        let numbers := names.filterMap fun n => signal? (toText n)
        update fun s =>
          let others := s.traps.filter fun t => !numbers.contains t.1
          { s with
            traps := if action = [45] then others else others ++ numbers.map (·, action)
            status := 0 }
      | [] => finishWith 0
    | _ => finishWith 0

def runBuiltin : (fuel : Nat) → (name : String) → List Bytes → Action Unit
  | 0, _, _ => throw .forever
  | fuel + 1, name, arguments => do
    match name with
    | "echo" => putOut "echo" (echoed arguments)
    | "printf" =>
      match arguments with
      | [] => stopScript (bytes "printf: usage: printf format [arg ...]")
      | format :: rest =>
        let f := formatted format rest
        putOut "printf" f.written.reverse
        f.rejected.forM fun a =>
          complainWith 1 (bytes "printf: " ++ a ++ bytes ": expected numeric value")
        match f.unknown with
        | some c => complainWith 2 (bytes ("printf: %" ++ c.toString ++ ": invalid directive"))
        | none => pure ()
    | "false" => finishWith 1
    | "pwd" => putOut "pwd" (bytes ((← get).directory ++ "\n"))
    | "cd" => changeFolder arguments
    | "read" => readLine arguments
    | "wait" => waitForJobs arguments
    | "test" | "[" =>
      let s ← get
      if name = "[" ∧ arguments.getLast? ≠ some [93] then
        complainWith 2 (bytes "[: missing ]")
      else
        match s.condition (if name = "[" then arguments.dropLast else arguments) with
        | .ok b => finishWith (if b then 0 else 1)
        | .error objection => complainWith 2 (bytes (name ++ ": ") ++ objection.text)
    | "local" =>
      if (← get).hidden.isEmpty then stopScript (bytes "local: not in a function")
      arguments.forM fun a => do
        let (x, value) := splitAssignment a
        update fun s =>
          let old := s.bindings.lookup x
          let s := { s with hidden := match s.hidden with
              | locals :: rest => ((x, old) :: locals) :: rest
              | [] => [] }
          match value with
          | some v => s.assign x v
          | none => s
      finishWith 0
    | "command" | "type" =>
      match arguments with
      | [] => finishWith 0
      | a :: rest =>
        if name = "type" then
          let s ← get
          let found := arguments.map fun a =>
            ((describeCommand s a).getD (a ++ bytes ": not found")) ++ [10]
          putOut name found.flatten
          if arguments.any fun a => (describeCommand s a).isNone then finishWith 127
        else if a = bytes "-v" then
          match commandPath (← get) (rest.headD []) with
          | some path => putOut name (path ++ [10])
          | none => finishWith 127
        else if builtins.contains (toText a) then runBuiltin fuel (toText a) rest
        else if specialBuiltins.contains (toText a) then runSpecial fuel (toText a) rest
        else runProgram fuel a rest
    | "kill" =>
      let (signal, targets) := match arguments with
        | [45, 115] :: name :: rest => (signal? (toText name), rest)
        | (45 :: name) :: rest => (signal? (toText name), rest)
        | rest => (some 15, rest)
      match signal with
      | none => complainWith 1 (bytes "kill: bad signal")
      | some signal =>
        finishWith 0
        sendSignal fuel signal targets
    | _ => finishWith 0

def sendSignal : (fuel : Nat) → (signal : Nat) → List Bytes → Action Unit
  | 0, _, _ => throw .forever
  | _, _, [] => return ()
  | fuel + 1, signal, target :: rest => do
    let s ← get
    let own (n : Nat) : Bool := n = s.process || n = s.mainProcess
    let group := target = [48] ∨ target.head? = some 45
    let process := match target with
      | 37 :: _ => s.lastJob
      | _ => count? target
    match process with
    | some n =>
      if own n ∨ group then
        match s.traps.lookup signal with
        | some action => if signal = 9 then throw (.killed 9) else runText fuel action
        | none =>
          if stopping.contains signal then throw .forever
          else if !unnoticed.contains signal then throw (.killed signal)
      else if s.jobs.any (·.process = n) then
        if !unnoticed.contains signal ∧ !stopping.contains signal then killJob n signal
      else complainWith 1 (bytes "kill: No such process\n")
    | none =>
      if group then throw (.killed signal)
      else complainWith 1 (bytes "kill: Illegal number: " ++ target)
    sendSignal fuel signal rest

def runProgram : (fuel : Nat) → (name : Bytes) → List Bytes → Action Unit
  | 0, _, _ => throw .forever
  | fuel + 1, name, arguments => do
    let s ← get
    match s.resolve name with
    | .error e =>
      let denied := e = SystemError.ofNumber 13
      complainWith (if denied then 126 else 127)
        (name ++ bytes (if denied then ": Permission denied" else ": not found"))
    | .ok .shell =>
      let job ← inProcess (fun s =>
        { s with
          mainProcess := s.process, bindings := s.bindings.filter (·.2.exported)
          functions := [], arguments := [], name, lastJob := none, line := 1, strict := false
          tested := false, status := 0, hidden := [] })
        (runShell fuel arguments)
      waitUntil job.finish
      mourn job
      finishWith job.status
    | .ok (.utility utility) =>
      if utility = "env" ∧ !arguments.isEmpty then
        let settings := arguments.takeWhile (·.contains 61)
        let before := s.bindings
        settings.forM fun a => do
          let (x, value) := splitAssignment a
          update fun s => (s.assign x (value.getD [])).export x
        match arguments.drop settings.length with
        | [] => runProgram fuel (bytes "env") []
        | name :: rest => runProgram fuel name rest
        update fun s => { s with bindings := before }
      else if (utility? utility).isNone then runBuiltin fuel utility arguments
      else
        let some what := utility? utility | pure ()
        let effect := what
          { arguments, input := s.source 0, start := s.now, environment := s.environment
            directory := s.directory, opens := s.readFile }
        update fun s =>
          let s := effect.output.foldl (fun s (t, text) => (s.writeAt t 1 text).1) s
          let s := (s.write 2 effect.complaint).1
          { s.setSource 0 effect.input with status := effect.status }
        waitUntil effect.finish

def runShell : (fuel : Nat) → List Bytes → Action Unit
  | 0, _ => throw .forever
  | fuel + 1, arguments => do
    let s ← get
    let strict (option : Bytes) : Bool := option.contains 101
    match arguments with
    | [] =>
      let source := s.source 0
      waitUntil source.ending
      update fun s => s.setSource 0 { ending := source.ending }
      runMain fuel source.all
    | option :: rest =>
      if option.head? = some 45 ∧ option.contains 99 then
        match rest with
        | [] =>
          update fun s => { s with line := 0 }
          stopScript (bytes "-c requires an argument")
        | script :: rest =>
          update fun s =>
            { s with name := rest.headD s.name, arguments := rest.drop 1, strict := strict option }
          runMain fuel script
      else if option.head? = some 45 ∧ 1 < option.length then
        update fun s => { s with strict := strict option }
        runShell fuel rest
      else
        match s.readFile option with
        | .ok source =>
          update fun s => { s with name := option, arguments := rest }
          runMain fuel source.all
        | .error _ =>
          update fun s => { s with line := 0 }
          stopScript (bytes "cannot open " ++ option ++ bytes ": No such file")

/-- Runs a whole script and what is to be done at its end. -/
def runMain : (fuel : Nat) → Bytes → Action Unit
  | 0, _ => throw .forever
  | fuel + 1, script => do
    try runText fuel script
    catch leap =>
      match leap with
      | .killed _ | .forever => throw leap
      | _ => pure ()
    let s ← get
    match s.traps.lookup 0 with
    | some action =>
      set { s with traps := s.traps.filter (·.1 != 0) }
      runText fuel action
      finishWith s.status
    | none => pure ()

def runText : (fuel : Nat) → Bytes → Action Unit
  | 0, _ => throw .forever
  | fuel + 1, script => runLines fuel (Cursor.ofText (Text.Utf8.decodeLossy script))

def runLines : (fuel : Nat) → Cursor → Action Unit
  | 0, _ => throw .forever
  | fuel + 1, cursor => do
    match readComplete cursor with
    | .ok none _ => return ()
    | .ok (some command) cursor =>
      run fuel command
      runLines fuel cursor
    | .error fault _ =>
      update fun s => { s with line := fault.line }
      stopScript (bytes fault.text)

end

/-- The rounds and levels that a script may take before it counts as endless. -/
def patience : Nat := 1000000

end AgentGateway.Shell
