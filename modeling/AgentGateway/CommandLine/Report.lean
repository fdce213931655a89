import AgentGateway.CommandLine.Arguments
import AgentGateway.Service
import AgentGateway.Text.Quoted

/-!
# What the command line gives

The output, the error output and the exit code of an order: events as lines of JSON, and a failure
in its full form. A prompt whose stream does not end in a completion fails the order.
-/

namespace AgentGateway

/-- The full form of a failure: its category and its quoted description. -/
def Failure.inFull (f : Failure) : String :=
  match f with
  | launch message transient =>
    f.kind ++ " \x7b message: " ++ Text.quoted message ++ ", transient: " ++ toString transient ++
      " \x7d"
  | _ => f.kind ++ "(" ++ Text.quoted f.message ++ ")"

namespace CommandLine

/-- What an order gives. -/
structure Report where
  exitCode : Nat := 0
  output : List String := []
  errors : String := ""
  deriving Repr, Inhabited

def version : String := "agent-conduit 0.1.0"

/-- The exit code of arguments that make no sense. -/
def misuse : Nat := 2

def failed : Nat := 1

def crashed : Nat := 101

def Report.ofFailure (output : List String) (f : Failure) : Report :=
  { exitCode := failed, output, errors := "Error: " ++ f.inFull ++ "\n" }

def Topic.lines : Topic → List String
  | general =>
    [ "Bounded streaming gateway for CLI agents", "",
      "Usage: agent-conduit [OPTIONS] --config <CONFIG> <COMMAND>", "",
      "Commands:",
      "  run    Send one prompt and stream the agent's events to stdout",
      "  serve  Serve sessions on the configured local socket",
      "  help   Print this message or the help of the given subcommand(s)", "",
      "Options:",
      "      --config <CONFIG>          Path to the TOML configuration file",
      "      --log-format <LOG_FORMAT>  Log output format (text or json) " ++
        "[default: text] [possible values: text, json]",
      "  -h, --help                     Print help",
      "  -V, --version                  Print version" ]
  | run =>
    [ "Send one prompt and stream the agent's events to stdout", "",
      "Usage: agent-conduit --config <CONFIG> run [OPTIONS] --prompt <PROMPT>", "",
      "Options:",
      "      --prompt <PROMPT>          Prompt text",
      "      --key <KEY>                Admission key [default: default]",
      "      --max-tokens <MAX_TOKENS>  Token budget used to scale the timeout",
      "  -h, --help                     Print help" ]
  | serve =>
    [ "Serve sessions on the configured local socket", "",
      "Usage: agent-conduit --config <CONFIG> serve", "",
      "Options:",
      "  -h, --help  Print help" ]
  | help =>
    [ "Print this message or the help of the given subcommand(s)", "",
      "Usage: agent-conduit --config <CONFIG> help [COMMAND]..." ]

/-- What is given when there is no order to follow. -/
def Halt.report : Halt → Report
  | help topic => { output := topic.lines }
  | version => { output := [CommandLine.version] }
  | mistake =>
    { exitCode := misuse
      errors := "error: the arguments make no sense\n\nFor more information, try '--help'.\n" }

def Report.ofPerformance (p : Performance) : Report :=
  let output := p.events.map fun e => (e.shape .object).print
  match p.ending with
  | some (.answered r) =>
    match r.intoCompleted with
    | .ok _ => { output }
    | .error f => .ofFailure output f
  | some (.failed f) => .ofFailure output f
  | some .crashed | none => { output, exitCode := crashed }

def runPrompt (site : Site) (c : Config) (key prompt : String) (maxTokens : Option Nat) : Report :=
  .ofPerformance ((site.client c).stream key { text := prompt, maxTokens })

inductive Undertaking where
  | report (r : Report)
  | serve (config : Config)
  deriving Repr, Inhabited

/-- Follows arguments. `look` tells what stands at the path of the configuration. -/
def undertake (site : Site) (look : String → Config.File) (arguments : List String) :
    Undertaking :=
  match Arguments.read arguments with
  | .error h => .report h.report
  | .ok a =>
    match Config.load (look a.config) with
    | .error rejection => .report (.ofFailure [] rejection.failure)
    | .ok config =>
      match a.order with
      | .run key prompt maxTokens => .report (runPrompt site config key prompt maxTokens)
      | .serve => .serve config

end CommandLine

end AgentGateway
