import AgentGateway.Backoff
import AgentGateway.Failure
import AgentGateway.TimeoutPolicy

/-!
# Configuration

What the gateway is told to do: which agent to run and how, how much of it at once, how often to
try again, and how long replies and sessions live. Every section but the agent's has defaults.
-/

namespace AgentGateway

namespace Config

/-- How the agent is started. Variables are added to its environment, in the order of their names.
-/
structure Agent where
  binary : String := ""
  args : List String := ["-p", "--output-format", "stream-json", "--verbose"]
  workingDir : String := "."
  defaultTimeoutSeconds : Nat := 300
  env : List (String × String) := []
  deriving DecidableEq, Repr, Inhabited

structure ScaledTimeout where
  baseSeconds : Nat := 0
  secondsPerThousand : Nat := 0
  maxSeconds : Nat := 0
  deriving DecidableEq, Repr, Inhabited

/-- How many executions may run at once, by the caller's key. Single keys have limits of their own,
in the order of the keys. -/
structure Concurrency where
  defaultLimit : Nat := 4
  limits : List (String × Nat) := []
  deriving DecidableEq, Repr, Inhabited

structure Retry where
  maxAttempts : Nat := 3
  initialDelayMillis : Nat := 200
  multiplier : Binary64 := .ofNat 2
  maxDelayMillis : Nat := 5000
  deriving DecidableEq, Repr, Inhabited

/-- How long replies are waited for, and how often overdue ones are looked for. -/
structure Correlation where
  defaultTimeoutSeconds : Nat := 60
  sweepIntervalSeconds : Nat := 60
  deriving DecidableEq, Repr, Inhabited

structure Sessions where
  maxSessions : Nat := 64
  idleTimeoutSeconds : Nat := 1800
  sweepIntervalSeconds : Nat := 60
  deriving DecidableEq, Repr, Inhabited

end Config

structure Config where
  agent : Config.Agent := {}
  scaledTimeout : Option Config.ScaledTimeout := none
  concurrency : Config.Concurrency := {}
  retry : Config.Retry := {}
  correlation : Config.Correlation := {}
  sessions : Config.Sessions := {}
  socketName : String := "agent-conduit"
  deriving DecidableEq, Repr, Inhabited

namespace Config

/-- The attempts and waits that a section describes. -/
def Retry.backoff (r : Retry) : Backoff :=
  ⟨r.maxAttempts, .ofMillis r.initialDelayMillis, r.multiplier, .ofMillis r.maxDelayMillis⟩

def Correlation.defaultTimeout (c : Correlation) : Duration := .ofSeconds c.defaultTimeoutSeconds

def Correlation.sweepInterval (c : Correlation) : Duration := .ofSeconds c.sweepIntervalSeconds

def Sessions.idleTimeout (s : Sessions) : Duration := .ofSeconds s.idleTimeoutSeconds

def Sessions.sweepInterval (s : Sessions) : Duration := .ofSeconds s.sweepIntervalSeconds

/-- The time limit of an execution when nothing else is said. -/
def executionTimeout (c : Config) : Duration := .ofSeconds c.agent.defaultTimeoutSeconds

/-- The rule for time limits: the scaled one if it is configured, and a fixed one otherwise. -/
def timeoutPolicy (c : Config) : TimeoutPolicy :=
  match c.scaledTimeout with
  | some s =>
    .scaled (.ofSeconds s.baseSeconds) (.ofSeconds s.secondsPerThousand) (.ofSeconds s.maxSeconds)
  | none => .fixed c.executionTimeout

inductive Flaw where
  | emptyBinary
  | zeroTimeout
  | badScaledTimeout
  | zeroDefaultLimit
  | zeroLimit (key : String)
  | zeroAttempts
  | badMultiplier
  | zeroCorrelationTime
  | zeroSessions
  | zeroSessionTime
  deriving DecidableEq, Repr, Inhabited

def Flaw.message : Flaw → String
  | emptyBinary => "agent.binary must not be empty"
  | zeroTimeout => "agent.default_timeout_seconds must be greater than zero"
  | badScaledTimeout =>
    "timeout_policy requires base_seconds > 0 and max_seconds >= base_seconds"
  | zeroDefaultLimit => "concurrency.default_limit must be greater than zero"
  | zeroLimit key => "concurrency.limits." ++ key ++ " must be greater than zero"
  | zeroAttempts => "retry.max_attempts must be greater than zero"
  | badMultiplier => "retry.multiplier must be a finite value >= 1.0"
  | zeroCorrelationTime =>
    "correlation timeouts and sweep interval must be greater than zero"
  | zeroSessions => "sessions.max_sessions must be greater than zero"
  | zeroSessionTime =>
    "sessions idle timeout and sweep interval must be greater than zero"

/-- The flaws of a configuration, in the order in which they are looked for. -/
def flaws (c : Config) : List Flaw :=
  (if c.agent.binary.isEmpty then [.emptyBinary] else []) ++
  (if c.agent.defaultTimeoutSeconds = 0 then [.zeroTimeout] else []) ++
  (match c.scaledTimeout with
    | some s =>
      if s.baseSeconds = 0 ∨ s.maxSeconds < s.baseSeconds then [.badScaledTimeout] else []
    | none => []) ++
  (if c.concurrency.defaultLimit = 0 then [.zeroDefaultLimit] else []) ++
  ((c.concurrency.limits.filter (·.2 == 0)).map fun l => .zeroLimit l.1) ++
  (if c.retry.maxAttempts = 0 then [.zeroAttempts] else []) ++
  (if !c.retry.multiplier.isFinite ∨ c.retry.multiplier.lt (.ofNat 1) then [.badMultiplier]
    else []) ++
  (if c.correlation.defaultTimeoutSeconds = 0 ∨ c.correlation.sweepIntervalSeconds = 0 then
    [.zeroCorrelationTime] else []) ++
  (if c.sessions.maxSessions = 0 then [.zeroSessions] else []) ++
  (if c.sessions.idleTimeoutSeconds = 0 ∨ c.sessions.sweepIntervalSeconds = 0 then
    [.zeroSessionTime] else [])

def validate (c : Config) : Except Flaw Config :=
  match c.flaws with
  | [] => .ok c
  | flaw :: _ => .error flaw

end Config

end AgentGateway
