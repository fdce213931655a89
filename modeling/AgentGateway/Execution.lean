import AgentGateway.Duration

/-!
# Executions

What it takes to run the agent once, and what a run gives when its output is captured.
-/

namespace AgentGateway

namespace Execution

/-- A single run of the agent program, with its arguments and what is written to its standard input,
if anything is. -/
structure Request where
  args : List String := []
  workingDir : String := ""
  input : Option (List UInt8) := none
  timeout : Duration := .zero
  deriving DecidableEq, Repr, Inhabited

/-- Attaches an input; a second one replaces the first. -/
def Request.withInput (r : Request) (input : List UInt8) : Request := { r with input := some input }

/-- A run that came to its end. An exit code other than zero is not a failure of the run; what it
means is for the caller to say. -/
structure Result where
  exitCode : Int := 0
  stdout : List Char := []
  stderr : List Char := []
  deriving DecidableEq, Repr, Inhabited

def Result.isSuccess (r : Result) : Bool := r.exitCode == 0

end Execution

end AgentGateway
