import AgentGateway.Server.Command
import AgentGateway.Server.Reply
import AgentGateway.Text.Blank
import AgentGateway.Text.Utf8

/-!
# Connections

A connection reads one line after the other and answers each before it reads the next. It ends
when its peer has sent all, when a line is not text, when its session is gone by the time a line
is read, or when a last reply cannot be written any more. Replies are handed to a writer, which
may fail at any time; events that are lost by that are not noticed.
-/

namespace AgentGateway.Server

open Correlation (Id)

/-- What a connection is about. One that is `running` passes on the events of a call, and one that
is `asking` waits for the reply of the bus. One that is `leaving` has found that its writer has
failed, and reads no more. One that has `ended` has given its session back; the session of one that
has `crashed` is still registered. -/
inductive Activity where
  | reading
  | running (ticket : Nat)
  | asking
  | leaving
  | ended
  | crashed
  deriving DecidableEq, Repr, Inhabited

/-- A connection with what its peer has sent and it has not read yet, and what it has written and
its peer has not read. The peer of one that is `finished` will send no more. Once the writer has
failed, nothing that is written reaches the peer any more. -/
structure Connection where
  name : String
  session : Id
  incoming : List UInt8 := []
  finished : Bool := false
  activity : Activity := .reading
  outgoing : List Reply := []
  writerFailed : Bool := false
  deriving Repr, Inhabited

namespace Connection

inductive Line where
  | text (chars : List Char)
  | notText
  | exhausted
  | incomplete
  deriving DecidableEq, Repr, Inhabited

/-- Takes the next line off what the peer has sent; the last one needs no newline. -/
def nextLine (c : Connection) : Line × Connection :=
  let head := c.incoming.takeWhile (· != 10)
  let decoded := match Text.Utf8.decode? head with
    | some chars => Line.text (Text.trim chars)
    | none => .notText
  match c.incoming.drop head.length with
  | _ :: rest => (decoded, { c with incoming := rest })
  | [] =>
    if !c.finished then (.incomplete, c)
    else if head.isEmpty then (.exhausted, c)
    else (decoded, { c with incoming := [] })

def write (c : Connection) (r : Reply) : Connection := { c with outgoing := c.outgoing ++ [r] }

/-- Writes the last reply to a command and goes on reading, unless the reply cannot be written. -/
def conclude (c : Connection) (r : Reply) : Connection :=
  { c.write r with activity := if c.writerFailed then .leaving else .reading }

/-- Whether the server is done with the connection. -/
def isOver (c : Connection) : Bool := c.activity == .ended

end Connection

/-- What is said to a peer whose session is gone. -/
def sessionExpired : Reply := .error "session expired"

/-- What is said of a command that lacks its prompt. -/
def missingPrompt : Reply := .error "missing required 'prompt' field"

/-- What is said of a verb that means nothing. -/
def unknownCommand (verb : String) : Reply := .error ("unknown command: " ++ verb)

/-- What is said of a line that is no command. -/
def invalidLine (text : String) : Reply := .error ("invalid json: " ++ text)

end AgentGateway.Server
