import AgentGateway.Proofs.Bus.News
import AgentGateway.Server.Desk

/-!
# Traffic at the server

Peers connect, send, read and go away in any order, connections read lines one at a time, the
agent and the bus act, sessions are swept and removed, and time passes. Each move is one thing
that one of them does, carried out by the functions of the server; a move that is not possible
changes nothing.

What one move does to the connections is said here once: a connection that reads a line is
replaced by its next state or leaves (`Desk.readLine?_cases`), and what the agent and the bus tell
makes connections write or crash (`Desk.relay_cases`, `Desk.hear_cases`).
-/

namespace AgentGateway.Server

open Correlation (Id)

/-- What can happen at the server. `sever` is the end of a socket that is being read, also because
the peer has gone away. After `failWriter` nothing that a connection writes reaches its peer, which
the connection notices only when it writes a last reply. A connection that has ended is there until
it is forgotten. -/
inductive Move where
  | connect (name : String)
  | send (name : String) (bytes : List UInt8) (last : Bool)
  | read (name : String)
  | sever (name : String)
  | failWriter (name : String)
  | take (name : String) (count : Nat)
  | forget (name : String)
  | exchange
  | elapse (span : Duration)
  | sweep (maxIdle : Duration)
  | evict (name : String)
  | evictAll
  | closeLimiter
  | shutdownEngine
  | stop
  deriving Inhabited

namespace Desk

def opening (client : Client.Settings) (limiter : Admission.Limiter) (agent : Execution.Agent)
    (engine : Correlation.Desk Response) (capacity maxSessions : Nat) : Desk :=
  .ofParts { settings := client, limiter, agent } engine capacity maxSessions

def on (d : Desk) (name : String) (f : Connection → Desk) : Desk :=
  (d.connection? name).elim d f

def move (d : Desk) : Move → Desk
  | .connect name => if (d.connection? name).isSome then d else d.connect name
  | .send name bytes last => d.on name fun c =>
      d.update { c with incoming := c.incoming ++ bytes, finished := c.finished || last }
  | .read name => d.on name fun c => (d.readLine? c).getD d
  | .sever name => d.on name fun c => if c.activity = .reading then d.leave c else d
  | .failWriter name => d.on name fun c => d.update { c with writerFailed := true }
  | .take name count => d.on name fun c =>
      if c.writerFailed then d else d.update { c with outgoing := (takeLasts count c.outgoing).2 }
  | .forget name => d.on name fun c =>
      if c.activity = .ended then
        { d with connections := d.connections.filter (·.name != name) }
      else d
  | .exchange => d.exchange
  | .elapse span => { d with office := d.office.happen Bus.answering (d.now + span) }
  | .sweep maxIdle => { d with registry := (d.registry.cleanup d.now maxIdle).1 }
  | .evict name => d.evict name
  | .evictAll => d.evictAll
  | .closeLimiter => d.setClient d.client.shut
  | .shutdownEngine => { d with office := d.office.shutdownEngine.1 }
  | .stop => { d with stopped := true }

def play (d : Desk) (moves : List Move) : Desk := moves.foldl move d

theorem play_append (d : Desk) (front back : List Move) :
    d.play (front ++ back) = (d.play front).play back := List.foldl_append

end Desk

/-- One connection at two moments. -/
structure Connection.SameSession (b c : Connection) : Prop where
  name : c.name = b.name
  session : c.session = b.session

theorem Connection.SameSession.refl (c : Connection) : c.SameSession c := ⟨rfl, rfl⟩

theorem Connection.nextLine_sameSession (c : Connection) :
    c.SameSession c.nextLine.2 ∧ c.nextLine.2.activity = c.activity := by
  unfold nextLine
  dsimp only
  split
  next => exact ⟨⟨rfl, rfl⟩, rfl⟩
  next => split_ifs <;> exact ⟨⟨rfl, rfl⟩, rfl⟩

def Connection.command? (c : Connection) : Option Command :=
  match c.nextLine.1 with
  | .text text => (Command.parse text).toOption
  | _ => none

def Connection.Idle (c : Connection) : Prop := c.activity = .reading ∨ c.activity = .leaving

namespace Connection.Idle

variable {c : Connection}

theorem ne_ended (h : c.Idle) : c.activity ≠ .ended := by
  obtain h | h := h <;> simp [h]

theorem ne_asking (h : c.Idle) : c.activity ≠ .asking := by
  obtain h | h := h <;> simp [h]

theorem ne_running (h : c.Idle) (t : Nat) : c.activity ≠ .running t := by
  obtain h | h := h <;> simp [h]

end Connection.Idle

theorem Connection.idle_conclude (c : Connection) (r : Reply) : (c.conclude r).Idle := by
  unfold conclude Idle
  cases c.writerFailed
  · exact .inl rfl
  · exact .inr rfl

theorem Connection.conclude_eq {c : Connection} (h : c.writerFailed = false) (r : Reply) :
    c.conclude r = { c.write r with activity := .reading } := by
  simp [conclude, h]

namespace Desk

/-- The server when a connection has been noted as active. -/
def touched (d : Desk) (c : Connection) : Desk :=
  { d with registry := (d.registry.touch d.now c.session).1 }

inductive Dispatched (d : Desk) (b : Connection) (command : Command) : Desk → Prop
  | reply (c : Connection) (hc : b.SameSession c) (hidle : c.Idle) :
      Dispatched d b command (d.update c)
  | run (c : Connection) (hc : b.SameSession c) (key : String) (prompt : Prompt)
      (hverb : command.verb = "run") (herrand : command.errand? = some (key, prompt)) :
      Dispatched d b command (d.run c key prompt)
  | ask (c : Connection) (hc : b.SameSession c) (key : String) (prompt : Prompt)
      (hverb : command.verb = "ask") (herrand : command.errand? = some (key, prompt)) :
      Dispatched d b command (d.ask c key prompt)

theorem dispatched (d : Desk) {b c : Connection} (hc : b.SameSession c) (command : Command) :
    Dispatched d b command (d.dispatch c command) := by
  have hreply (r : Reply) : Dispatched d b command (d.update (c.conclude r)) :=
    .reply _ ⟨hc.name, hc.session⟩ (c.idle_conclude r)
  unfold dispatch
  split_ifs with hrun hask
  · split
    next key prompt herrand => exact .run c hc key prompt hrun herrand
    next => exact hreply _
  · split
    next key prompt herrand => exact .ask c hc key prompt hask herrand
    next => exact hreply _
  · exact hreply _
  · exact hreply _
  · exact hreply _

/-- What becomes of the server when a connection reads a line: the connection leaves, passes over a
blank line, answers a line that is no command, or carries out a command, since its session is there.
-/
inductive LineRead (d : Desk) (b : Connection) : Desk → Prop
  | left (c : Connection) (hc : b.SameSession c) : LineRead d b (d.leave c)
  | skipped (c : Connection) (hc : b.SameSession c) (hidle : c.Idle) :
      LineRead d b (d.update c)
  | refused (c : Connection) (hc : b.SameSession c) (hidle : c.Idle) :
      LineRead d b ((d.touched b).update c)
  | obeyed (command : Command) (hcommand : b.command? = some command)
      (hthere : (d.registry.touch d.now b.session).2 = true) {d' : Desk}
      (hd : Dispatched (d.touched b) b command d') : LineRead d b d'

theorem readLine?_cases {d d' : Desk} {c : Connection} (h : d.readLine? c = some d') :
    c.Idle ∧ LineRead d c d' := by
  obtain ⟨hsame, hactivity⟩ := c.nextLine_sameSession
  unfold readLine? at h
  split_ifs at h with hleaving hreading hstopped
  · obtain rfl := Option.some.inj h
    exact ⟨.inr hleaving, .left c (.refl c)⟩
  · obtain rfl := Option.some.inj h
    exact ⟨.inl hreading, .left c (.refl c)⟩
  · refine ⟨.inl hreading, ?_⟩
    cases hline : c.nextLine with
    | mk line c' =>
      rw [hline] at h hsame hactivity
      cases line with
      | incomplete => cases h
      | exhausted | notText =>
          obtain rfl := Option.some.inj h
          exact .left c' hsame
      | text text =>
          cases text with
          | nil =>
              obtain rfl := Option.some.inj h
              exact .skipped c' hsame (.inl (hactivity.trans hreading))
          | cons first rest =>
              obtain rfl := Option.some.inj h
              unfold answerLine
              rw [hsame.session]
              cases htouch : d.registry.touch d.now c.session with
              | mk registry there =>
                have htouched : { d with registry } = d.touched c := by
                  rw [touched, htouch]
                cases there with
                | false => exact .left _ ⟨hsame.name, hsame.session⟩
                | true =>
                    dsimp only
                    rw [htouched]
                    cases hparse : Command.parse (first :: rest) with
                    | ok command =>
                        refine .obeyed command ?_ (by rw [htouch]) (dispatched _ hsame command)
                        simp [Connection.command?, hline, hparse, Except.toOption]
                    | error problem =>
                        exact .refused _ ⟨hsame.name, hsame.session⟩ (c'.idle_conclude _)

/-- What becomes of the server when a connection hears something: it writes, and perhaps is done
with its command; or it crashes. -/
inductive Told (d : Desk) (crash : Prop) : Desk → Prop
  | ignored : Told d crash d
  | wrote {b : Connection} (hb : b ∈ d.connections) (c : Connection) (hc : b.SameSession c)
      (hactivity : c.activity = b.activity ∨ c.Idle)
      (hbusy : b.activity ≠ .ended) : Told d crash (d.update c)
  | crashed {b : Connection} (hb : b ∈ d.connections) (hcrash : crash)
      (hbusy : b.activity ≠ .ended) : Told d crash (d.update { b with activity := .crashed })

theorem relay_cases (d : Desk) (t : Nat) (m : Client.Message) :
    Told d ((∃ c ∈ d.connections, c.activity = .running t) ∧ m = .ended .crashed)
      (d.relay t m) := by
  unfold relay
  split
  next => exact .ignored
  next c hfind =>
    have hc : c ∈ d.connections := List.mem_of_find?_eq_some hfind
    have hrunning : c.activity = .running t := by simpa using List.find?_some hfind
    have hbusy : c.activity ≠ .ended := by simp [hrunning]
    split
    next => exact .wrote hc _ ⟨rfl, rfl⟩ (.inl rfl) hbusy
    next => exact .wrote hc _ ⟨rfl, rfl⟩ (.inr (c.idle_conclude _)) hbusy
    next => exact .wrote hc _ ⟨rfl, rfl⟩ (.inr (c.idle_conclude _)) hbusy
    next => exact .crashed hc ⟨⟨c, hc, hrunning⟩, rfl⟩ hbusy

theorem hear_cases (d : Desk) (n : Note (Bus.News Response)) :
    Told d (n.what = .crashed) (d.hear n) := by
  unfold hear
  split
  next => exact .ignored
  next c hfind =>
    have hc : c ∈ d.connections := List.mem_of_find?_eq_some hfind
    have hasking : c.activity = .asking := by
      have := List.find?_some hfind
      simp_all
    have hbusy : c.activity ≠ .ended := by simp [hasking]
    split
    next => exact .wrote hc _ ⟨rfl, rfl⟩ (.inr (c.idle_conclude _)) hbusy
    next => exact .wrote hc _ ⟨rfl, rfl⟩ (.inr (c.idle_conclude _)) hbusy
    next hwhat => exact .crashed hc hwhat hbusy

/-- The server after the agent and the bus have acted, before anyone has heard of it. -/
def acted (d : Desk) : Desk :=
  let office := d.office.act Bus.answering
  ({ d with office := office.collect.1 } : Desk).setClient office.handler.desk.collect.1

/-- Connections hear what calls tell, and then what the bus tells. -/
theorem exchange_eq (d : Desk) :
    d.exchange = (d.office.act Bus.answering).collect.2.foldl hear
      ((d.office.act Bus.answering).handler.desk.messages.foldl
        (fun d (t, _, m) => d.relay t m) d.acted) := rfl

end Desk

end AgentGateway.Server
