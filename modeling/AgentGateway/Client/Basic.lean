import AgentGateway.Execution
import AgentGateway.Stream.Transcript
import AgentGateway.Text.Lines
import AgentGateway.Text.Utf8

/-!
# What an execution answers

The agent's output is read into a transcript line by line. A record that ends the stream settles
the answer; without one the exit decides: an exit with zero is a stream without an end, any other
exit is a failure, of which the end of the error output tells more.
-/

namespace AgentGateway.Client

def defaultKey : String := "default"

/-- The most bytes of error output that a message keeps. -/
def stderrTailLimit : Nat := 512

/-- Drops characters from the front until at most `limit` bytes are left of `width`. -/
def dropToWidth (limit : Nat) : (width : Nat) → List Char → List Char
  | _, [] => []
  | width, c :: cs => if width ≤ limit then c :: cs else dropToWidth limit (width - c.utf8Size) cs

def tailWithin (limit : Nat) (text : List Char) : List Char :=
  dropToWidth limit (Text.Utf8.width text) text

def exitText (code : Int) : String := "agent exited with code " ++ toString code

/-- What is said of a captured execution that ended with a code other than zero. -/
def exitFailure (r : Execution.Result) : String :=
  match Text.trim r.stderr with
  | [] => exitText r.exitCode
  | text => exitText r.exitCode ++ ": " ++ String.ofList (tailWithin stderrTailLimit text)

def finish (t : Transcript) (r : Execution.Result) : Transcript :=
  if r.isSuccess ∨ t.isClosed then t.close.1 else (t.abort (exitFailure r)).1

def answer (r : Execution.Result) : Response :=
  let t := (({} : Transcript).feedAll (Text.lines r.stdout)).1
  (finish t r).response

/-- Ends a transcript after a streamed execution: a last event, if one is due, and the answer. -/
def endStream (t : Transcript) : Except Failure Int → Option Event × Except Failure Response
  | .ok code =>
    let (t, event) := if code = 0 ∨ t.isClosed then t.close else t.abort (exitText code)
    (event, .ok t.response)
  | .error f => ((t.abort f.display).2, .error f)

end AgentGateway.Client
