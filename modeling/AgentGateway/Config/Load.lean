import AgentGateway.Config.Basic
import AgentGateway.SystemError
import AgentGateway.Text.Utf8
import AgentGateway.Toml.Decode
import AgentGateway.Toml.Tree

/-!
# Loading the configuration

From the bytes of a file to a valid configuration: the text must be readable, keep to the format,
hold values of the right kinds, and have no flaw. The first of these that fails is reported.
-/

namespace AgentGateway.Config

open Toml (optional required)

/-- Why a configuration cannot be used: the file cannot be read, its text does not keep to the
format, a value is missing or of the wrong kind, or the values do not go together. -/
inductive Rejection where
  | unreadable (text : String)
  | malformed
  | refused (complaint : Toml.Complaint)
  | flawed (flaw : Flaw)
  deriving DecidableEq, Repr, Inhabited

def Rejection.failure : Rejection → Failure
  | unreadable text => .config ("failed to read config: " ++ text)
  | malformed => .config "invalid config"
  | refused complaint => .config ("invalid config: " ++ complaint.cause.message)
  | flawed flaw => .config flaw.message

/-! ## Sections -/

def Agent.fields : List (Toml.Field Agent) :=
  [ required "binary" (Toml.asText "path string") fun s v => { s with binary := v },
    optional "args" Toml.asTexts fun s v => { s with args := v },
    optional "working_dir" (Toml.asText "path string") fun s v => { s with workingDir := v },
    optional "default_timeout_seconds" Toml.asUnsigned64 fun s v =>
      { s with defaultTimeoutSeconds := v },
    optional "env" (Toml.asMap (Toml.asText "a string")) fun s v => { s with env := v } ]

def ScaledTimeout.fields : List (Toml.Field ScaledTimeout) :=
  [ required "base_seconds" Toml.asUnsigned64 fun s v => { s with baseSeconds := v },
    required "seconds_per_1k_tokens" Toml.asUnsigned64 fun s v =>
      { s with secondsPerThousand := v },
    required "max_seconds" Toml.asUnsigned64 fun s v => { s with maxSeconds := v } ]

def Concurrency.fields : List (Toml.Field Concurrency) :=
  [ optional "default_limit" Toml.asCount fun s v => { s with defaultLimit := v },
    optional "limits" (Toml.asMap Toml.asCount) fun s v => { s with limits := v } ]

def Retry.fields : List (Toml.Field Retry) :=
  [ optional "max_attempts" Toml.asUnsigned32 fun s v => { s with maxAttempts := v },
    optional "initial_delay_ms" Toml.asUnsigned64 fun s v => { s with initialDelayMillis := v },
    optional "multiplier" Toml.asReal fun s v => { s with multiplier := v },
    optional "max_delay_ms" Toml.asUnsigned64 fun s v => { s with maxDelayMillis := v } ]

def Correlation.fields : List (Toml.Field Correlation) :=
  [ optional "default_timeout_seconds" Toml.asUnsigned64 fun s v =>
      { s with defaultTimeoutSeconds := v },
    optional "sweep_interval_seconds" Toml.asUnsigned64 fun s v =>
      { s with sweepIntervalSeconds := v } ]

def Sessions.fields : List (Toml.Field Sessions) :=
  [ optional "max_sessions" Toml.asCount fun s v => { s with maxSessions := v },
    optional "idle_timeout_seconds" Toml.asUnsigned64 fun s v =>
      { s with idleTimeoutSeconds := v },
    optional "sweep_interval_seconds" Toml.asUnsigned64 fun s v =>
      { s with sweepIntervalSeconds := v } ]

def fields : List (Toml.Field Config) :=
  [ required "agent" (Toml.asRecord "AgentConfig" Agent.fields {}) fun s v =>
      { s with agent := v },
    optional "timeout_policy" (Toml.asRecord "TimeoutPolicyConfig" ScaledTimeout.fields {})
      fun s v => { s with scaledTimeout := some v },
    optional "concurrency" (Toml.asRecord "ConcurrencyConfig" Concurrency.fields {}) fun s v =>
      { s with concurrency := v },
    optional "retry" (Toml.asRecord "RetryConfig" Retry.fields {}) fun s v =>
      { s with retry := v },
    optional "correlation" (Toml.asRecord "CorrelationConfig" Correlation.fields {}) fun s v =>
      { s with correlation := v },
    optional "sessions" (Toml.asRecord "SessionConfig" Sessions.fields {}) fun s v =>
      { s with sessions := v },
    optional "ipc_name" (Toml.asText "a string") fun s v => { s with socketName := v } ]

/-! ## Texts and files -/

def ofTree (root : Toml.Entries) : Except Toml.Complaint Config :=
  Toml.asRecord "GlobalConfig" fields {} (.table .header root)

def parse (text : List Char) : Except Rejection Config :=
  match Toml.parse? text with
  | none => .error .malformed
  | some root =>
    match ofTree root with
    | .error complaint => .error (.refused complaint)
    | .ok c =>
      match c.validate with
      | .error flaw => .error (.flawed flaw)
      | .ok c => .ok c

inductive File where
  | missing
  | directory
  | content (bytes : List UInt8)
  deriving Repr, Inhabited

def load : File → Except Rejection Config
  | .missing => .error (.unreadable (SystemError.ofNumber 2).text)
  | .directory => .error (.unreadable (SystemError.ofNumber 21).text)
  | .content bytes =>
    match Text.Utf8.decode? bytes with
    | none => .error (.unreadable "stream did not contain valid UTF-8")
    | some text => parse text

def lineColumn (text : List Char) (place : Nat) : Nat × Nat :=
  (text.take place).foldl (fun (line, column) c =>
    if c = '\n' then (line + 1, 1) else (line, column + 1)) (1, 1)

end AgentGateway.Config
