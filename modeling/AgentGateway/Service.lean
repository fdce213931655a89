import AgentGateway.Config.Load
import AgentGateway.Execution.Process
import AgentGateway.Server.Desk

/-!
# The gateway as configured

A configuration says which agent is run, how many executions there may be at once, how often they
are tried again, and how the server keeps its sessions and replies. Here the parts are put
together for the place where the gateway runs.
-/

namespace AgentGateway

structure Site where
  host : Host := {}
  surroundings : List (String × String) := []
  deriving Repr, Inhabited

namespace Site

def launcher (s : Site) (c : Config) : Execution.Launcher where
  host := s.host
  surroundings := s.surroundings
  binary := c.agent.binary
  env := c.agent.env

def client (s : Site) (c : Config) : Client.Desk where
  settings :=
    { policy := c.timeoutPolicy, args := c.agent.args, workingDir := c.agent.workingDir
      retry := some (.ofBackoff c.retry.backoff) }
  limiter := .ofConfig c.concurrency
  agent := (s.launcher c).agent

/-- How many requests and replies the bus of the server holds. -/
def busCapacity : Nat := 256

def server (s : Site) (c : Config) : Server.Desk :=
  { Server.Desk.ofParts (s.client c) (.ofConfig c.correlation) busCapacity
      c.sessions.maxSessions with
    sweeper := some ⟨c.sessions.idleTimeout, Ticker.start? .zero c.sessions.sweepInterval⟩ }

end Site

/-- How a single streamed prompt went: its events, and its end unless it never came to one. -/
structure Performance where
  events : List Event
  ending : Option Client.Ending
  deriving Repr, Inhabited

def Client.Desk.stream (d : Client.Desk) (key : String) (prompt : Prompt) : Performance :=
  let (d, _) := d.start key prompt true
  let (_, messages) := (d.runTo Duration.longest).collect
  { events := messages.filterMap fun (_, _, m) => match m with
      | .event e => some e
      | .ended _ => none
    ending := messages.findSome? fun (_, _, m) => match m with
      | .ended how => some how
      | .event _ => none }

end AgentGateway
