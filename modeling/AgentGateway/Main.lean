import AgentGateway.CommandLine.Conversation

/-!
# The program

Reads the arguments, the variables and the configuration, and writes what they come to. The server
talks to one peer, over the standard input and output.
-/

open AgentGateway

def AgentGateway.CommandLine.Report.write (r : CommandLine.Report) : IO UInt32 := do
  for line in r.output do
    IO.println line
  IO.eprint r.errors
  return r.exitCode.toUInt32

def AgentGateway.Config.readFile (path : String) : IO Config.File := do
  try
    return .content (← IO.FS.readBinFile path).toList
  catch
    | .noFileOrDirectory .. => return .missing
    | _ => return .directory

/-- Talks to the peer until it has no more to say. -/
partial def AgentGateway.Server.Desk.talk (input output : IO.FS.Stream) (d : Server.Desk) :
    IO Unit := do
  let line ← input.getLine
  if line.isEmpty then return
  let text := if line.endsWith "\n" then (line.dropEnd 1).toString else line
  let (d, sights) := d.converse text
  for sight in sights do
    match sight with
    | .reply r =>
      let name (id : Correlation.Id) : Json := match id with
        | .given text => .string text
        | .generated number _ => .string ("session-" ++ toString number)
      output.putStr (r.line name fun t => .string (t.format ++ " after the start"))
    | .endOfStream => pure ()
  output.flush
  talk input output d

def main (arguments : List String) : IO UInt32 := do
  let surroundings ← Execution.passedOn.filterMapM fun x => do
    return (← IO.getEnv x).map fun v => (x, v)
  let site : Site := { surroundings }
  match CommandLine.Arguments.read arguments with
  | .error h => h.report.write
  | .ok a =>
    let file ← Config.readFile a.config
    match CommandLine.undertake site (fun _ => file) arguments with
    | .report r => r.write
    | .serve config =>
      (site.server config |>.connect Server.Desk.peer).talk (← IO.getStdin) (← IO.getStdout)
      return 0
