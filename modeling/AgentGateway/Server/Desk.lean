import AgentGateway.Bus.Desk
import AgentGateway.Server.Connection
import AgentGateway.Session.Desk
import AgentGateway.SystemError

/-!
# The server

Peers connect, each connection takes up a session, and commands are carried out: prompts that are
run go to the agent directly, prompts that are asked for go over the bus.
-/

namespace AgentGateway.Server

open Correlation (Id)
open Session (Registry)

def cannotListen (e : SystemError) : Failure := .ipc ("failed to create ipc listener: " ++ e.text)

/-- What is said when another server listens on the socket already. -/
def addressInUse : Failure := cannotListen (SystemError.ofNumber 98)

abbrev Office := Bus.Desk Bus.Calls Bus.Errand Response

/-- The server with its connections, in the order in which they were opened, and the number of
sessions that have been registered. -/
structure Desk where
  registry : Registry Id Unit
  office : Office
  connections : List Connection := []
  issued : Nat := 0
  stopped : Bool := false
  sweeper : Option Session.Sweeper := none

namespace Desk

/-- What a reply may take longer than its execution. -/
def replyGrace : Duration := .ofSeconds 30

/-- A server for a client, with an engine for replies and a bus that holds some requests and as
many replies. -/
def ofParts (client : Client.Desk) (engine : Correlation.Desk Response) (capacity : Nat)
    (maxSessions : Nat) : Desk where
  registry := { maxSessions }
  office := .ofEngine engine capacity { desk := client }

def now (d : Desk) : Duration := d.office.now

def client (d : Desk) : Client.Desk := d.office.handler.desk

def setClient (d : Desk) (client : Client.Desk) : Desk :=
  { d with office := { d.office with handler := { d.office.handler with desk := client } } }

def connection? (d : Desk) (name : String) : Option Connection :=
  d.connections.find? (·.name == name)

/-- Puts a connection in the place of its earlier state. -/
def update (d : Desk) (c : Connection) : Desk :=
  { d with connections := d.connections.map fun x => if x.name = c.name then c else x }

/-- A connection ends and gives its session back. -/
def leave (d : Desk) (c : Connection) : Desk :=
  { d with registry := d.registry.unregister c.session }.update { c with activity := .ended }

/-- A peer connects. It is turned away if there is no session left. -/
def connect (d : Desk) (name : String) : Desk :=
  let session := .generated d.issued name
  let d := { d with connections := d.connections.filter (·.name != name) }
  match d.registry.register d.now session () with
  | .ok registry =>
    { d with registry, issued := d.issued + 1
             connections := d.connections ++ [{ name, session }] }
  | .error cause =>
    { d with connections := d.connections ++
        [{ name, session, activity := .ended, outgoing := [.error cause.display] }] }

def run (d : Desk) (c : Connection) (key : String) (prompt : Prompt) : Desk :=
  let (client, ticket) := { d.client with now := d.now }.start key prompt true
  (d.setClient client).update { c with activity := .running ticket }

def ask (d : Desk) (c : Connection) (key : String) (prompt : Prompt) : Desk :=
  match (d.client.settings.limit? prompt).bind (·.add? replyGrace) with
  | none => d.update { c with activity := .crashed }
  | some deadline =>
    { d with office := d.office.submit Bus.answering c.name ⟨key, prompt⟩ (some deadline) }.update
      { c with activity := .asking }

def dispatch (d : Desk) (c : Connection) (command : Command) : Desk :=
  if command.verb = "run" then
    match command.errand? with
    | some (key, prompt) => d.run c key prompt
    | none => d.update (c.conclude missingPrompt)
  else if command.verb = "ask" then
    match command.errand? with
    | some (key, prompt) => d.ask c key prompt
    | none => d.update (c.conclude missingPrompt)
  else if command.verb = "list" then
    d.update (c.conclude (.sessions (d.registry.list d.now)))
  else if command.verb = "ping" then d.update (c.conclude .pong)
  else d.update (c.conclude (unknownCommand command.verb))

def answerLine (d : Desk) (c : Connection) (text : List Char) : Desk :=
  match d.registry.touch d.now c.session with
  | (_, false) => d.leave (c.write sessionExpired)
  | (registry, true) =>
    let d := { d with registry }
    match Command.parse text with
    | .ok command => d.dispatch c command
    | .error problem => d.update (c.conclude (invalidLine (problem.describe text)))

/-- A connection reads its next line, if there is one; once the server has been stopped or its
writer has failed it ends instead. Tells whether anything happened. -/
def readLine? (d : Desk) (c : Connection) : Option Desk :=
  if c.activity = .leaving then some (d.leave c)
  else if c.activity = .reading then
    if d.stopped then some (d.leave c)
    else match c.nextLine with
    | (.incomplete, _) => none
    | (.exhausted, c) => some (d.leave c)
    | (.notText, c) => some (d.leave c)
    | (.text [], c) => some (d.update c)
    | (.text text, c) => some (d.answerLine c text)
  else none

/-- What a call tells goes to the connection that runs it. -/
def relay (d : Desk) (ticket : Nat) (m : Client.Message) : Desk :=
  match d.connections.find? (·.activity == .running ticket) with
  | none => d
  | some c =>
    match m with
    | .event e => d.update (c.write (.event e))
    | .ended (.answered r) => d.update (c.conclude (.response r))
    | .ended (.failed f) => d.update (c.conclude (.error f.display))
    | .ended .crashed => d.update { c with activity := .crashed }

/-- What the bus tells a caller goes to the connection that asks. -/
def hear (d : Desk) (note : Note (Bus.News Response)) : Desk :=
  match d.connections.find? (fun c => c.name == note.who && c.activity == .asking) with
  | none => d
  | some c =>
    match note.what with
    | .outcome o => d.update (c.conclude (.ofResult o))
    | .refused cause => d.update (c.conclude (.error cause.display))
    | .crashed => d.update { c with activity := .crashed }

/-- Lets the agent and the bus act and passes on what they tell. -/
def exchange (d : Desk) : Desk :=
  let office := d.office.act Bus.answering
  let (client, messages) := office.handler.desk.collect
  let (office, notes) := office.collect
  let d := { d with office }.setClient client
  let d := messages.foldl (fun d (t, _, m) => d.relay t m) d
  notes.foldl hear d

def readAny? (d : Desk) : Option Desk := d.connections.findSome? d.readLine?

def settle : (fuel : Nat) → Desk → Desk
  | 0, d => d.exchange
  | fuel + 1, d =>
    let d := d.exchange
    match d.readAny? with
    | some d => settle fuel d
    | none => d

/-- No more things happen at once than there are bytes and connections. -/
def actions (d : Desk) : Nat :=
  d.connections.foldl (fun n c => n + c.incoming.length + 1) 1

def act (d : Desk) : Desk := settle d.actions d

/-- Whether a peer's wish to read some last replies is met. -/
def hasReplies (d : Desk) (name : String) (count : Nat) : Bool :=
  match d.connection? name with
  | some c => c.isOver || count ≤ (c.outgoing.filter Reply.isLast).length
  | none => true

/-- Sweeps idle sessions at a moment, if it is a moment for that. -/
def sweepAt (t : Duration) (d : Desk) : Desk :=
  match d.sweeper with
  | some ⟨maxIdle, some ticker⟩ =>
    if ticker.next t = t then { d with registry := (d.registry.cleanup t maxIdle).1 } else d
  | _ => d

/-- When a sweep finds an idle session next. -/
def sweepDue? (d : Desk) : Option Duration :=
  match d.sweeper with
  | some ⟨maxIdle, some ticker⟩ =>
    earliest? (d.registry.entries.map fun e =>
      ticker.nextAfter d.now ⟨e.lastActivity.nanos + maxIdle.nanos + 1⟩)
  | _ => none

/-- What happens at a moment: sweeps, and what the bus and the agent do. -/
def happen (t : Duration) (d : Desk) : Desk :=
  let d := d.sweepAt t
  { d with office := d.office.happen Bus.answering t }.act

/-- When something is due next. A sweep by itself is nothing to wait for. -/
def due? (d : Desk) : Option Duration :=
  (d.office.due? Bus.answering).map fun t => match d.sweepDue? with
    | some u => t.min u
    | none => t

/-- Lets time pass until a wish is met, or nothing more happens. -/
def await (isMet : Desk → Bool) : (fuel : Nat) → Desk → Desk
  | 0, d => d
  | fuel + 1, d =>
    if isMet d then d
    else
      match d.due? with
      | some t => await isMet fuel (d.happen t)
      | none => d

/-- A peer sends bytes, and perhaps no more after them. -/
def send (d : Desk) (name : String) (bytes : List UInt8) (last : Bool) : Desk :=
  match d.connection? name with
  | some c =>
    (d.update { c with incoming := c.incoming ++ bytes, finished := c.finished || last }).act
  | none => d

inductive Sight where
  | reply (r : Reply)
  | endOfStream
  deriving Repr, Inhabited

def takeLasts : Nat → List Reply → List Reply × List Reply
  | _, [] => ([], [])
  | 0, rest => ([], rest)
  | n + 1, r :: rest =>
    let (taken, rest) := takeLasts (if r.isLast then n else n + 1) rest
    (r :: taken, rest)

/-- A peer reads up to the given number of last replies, or to the end of the stream. -/
def receive (d : Desk) (name : String) (count : Nat) : Desk × List Sight :=
  let d := d.await (·.hasReplies name count) Client.Desk.manySteps
  match d.connection? name with
  | none => (d, [])
  | some c =>
    let (taken, rest) := takeLasts count c.outgoing
    let lasts := (taken.filter Reply.isLast).length
    let sights := taken.map Sight.reply
    (d.update { c with outgoing := rest },
      if c.isOver ∧ lasts < count then sights ++ [.endOfStream] else sights)

/-- A peer that was turned away reads to the end of the stream. -/
def receiveAll (d : Desk) (name : String) : Desk × List Sight :=
  match d.connection? name with
  | some c => if c.isOver then d.receive name (c.outgoing.length + 1) else (d, [])
  | none => (d, [])

def isOver (d : Desk) (name : String) : Bool := (d.connection? name).all (·.isOver)

/-- A peer closes its connection, which ends once the command that it is about has been answered. -/
def disconnect (d : Desk) (name : String) : Desk :=
  match d.connection? name with
  | some c =>
    let d := (d.update { c with finished := true }).act.await (·.isOver name)
      Client.Desk.manySteps
    { d with connections := d.connections.filter (·.name != name) }
  | none => d

/-- A session is removed while its connection is there. -/
def evict (d : Desk) (name : String) : Desk :=
  match d.connection? name with
  | some c => { d with registry := d.registry.unregister c.session }
  | none => d

def evictAll (d : Desk) : Desk := { d with registry := d.registry.clear.1 }

def closeLimiter (d : Desk) : Desk := (d.setClient d.client.shut).act

def shutdownEngine (d : Desk) : Desk :=
  { d with office := d.office.shutdownEngine.1 }.act

/-- Stops the server: connections end, each once it has answered the command it is about. -/
def stop (d : Desk) : Desk := { d with stopped := true }.act

end Desk

end AgentGateway.Server
