import AgentGateway.CommandLine.Report

/-!
# A conversation with the server

A single peer sends request lines one after the other and reads the replies to each before it
sends the next. When the server is told to stop, the peer reads to the end of the stream.
-/

namespace AgentGateway.Server.Desk

def peer : String := "peer"

/-- A peer sends a line and reads up to its last reply. -/
def converse (d : Desk) (line : String) : Desk × List Sight :=
  (d.send peer (Text.Utf8.encode (line.toList ++ ['\n'])) false).receive peer 1

/-- A peer sends lines, each after the replies to the one before. -/
def converseAll (d : Desk) (lines : List String) : Desk × List Sight :=
  lines.foldl (fun (d, sights) line =>
    let (d, more) := converse d line
    (d, sights ++ more)) (d, [])

/-- Whether the peer reaches the end of the stream once the server has stopped. -/
def closesAfterStop (d : Desk) : Bool :=
  match (d.stop.receive peer 1).2.getLast? with
  | some .endOfStream => true
  | _ => false

end AgentGateway.Server.Desk
