import AgentGateway.Proofs.Bus.Answers
import AgentGateway.Proofs.Client.Endings
import AgentGateway.Proofs.Output.Framing
import AgentGateway.Server.Connection

/-!
# What answers a line

A line is answered with one block of replies: none if it is blank, and otherwise replies for the
events of a prompt that is run and one last reply (`Answers.shape`). What the block of a line may
be is said here of the line alone, whatever else goes on at the server.
-/

namespace AgentGateway.Server

def textOf? (line : List UInt8) : Option (List Char) :=
  (Text.Utf8.decode? line).map Text.trim

/-- The lines of what a peer has sent so far: the last one needs no newline once the peer sends no
more. -/
def linesOf (finished : Bool) (sent : List UInt8) : List (List UInt8) :=
  if finished then Framer.segments sent else (sent.splitOn Framer.newline).dropLast

/-- The result of a call that has not crashed. -/
def resultOf? : Client.Ending → Option (Except Failure Response)
  | .answered r => some (.ok r)
  | .failed f => some (.error f)
  | .crashed => none

/-- The replies that carry out a command. A prompt may be missing, or not be admitted. Of a prompt
that is run the events are passed on, and its result comes last. A prompt that is asked for gets a
result that it has earned, or hears that there was no reply. -/
inductive Obeys (s : Client.Settings) (agent : Execution.Agent) (command : Command) :
    List Reply → Prop
  | promptless (hverb : command.verb = "run" ∨ command.verb = "ask")
      (hnone : command.prompt = none) : Obeys s agent command [missingPrompt]
  | list (hverb : command.verb = "list") (infos : List (Session.Info Correlation.Id)) :
      Obeys s agent command [.sessions infos]
  | ping (hverb : command.verb = "ping") : Obeys s agent command [.pong]
  | unknown (hverb : command.verb ∉ ["run", "ask", "list", "ping"]) :
      Obeys s agent command [unknownCommand command.verb]
  | refused {key : String} {prompt : Prompt} (hverb : command.verb = "run")
      (herrand : command.errand? = some (key, prompt)) {cause : Failure}
      (hcause : Client.Unadmitted key cause) : Obeys s agent command [.error cause.display]
  | ran {key : String} {prompt : Prompt} (hverb : command.verb = "run")
      (herrand : command.errand? = some (key, prompt)) (number : Nat) {limit : Duration}
      (hlimit : s.limit? prompt = some limit) {told : List Client.Message} {events : List Event}
      {added : Option Event} {how : Client.Ending}
      (htold : Client.Complete (agent number (s.execution prompt limit)) told events added how)
      {result : Except Failure Response} (hresult : resultOf? how = some result) :
      Obeys s agent command (events.map .event ++ [.ofResult result])
  | asked {key : String} {prompt : Prompt} (hverb : command.verb = "ask")
      (herrand : command.errand? = some (key, prompt)) {result : Except Failure Response}
      (hresult : Bus.Settles (Bus.Errand.Earned s agent) ⟨key, prompt⟩ result) :
      Obeys s agent command [.ofResult result]

/-- The replies that answer a line. -/
inductive Answers (s : Client.Settings) (agent : Execution.Agent) (line : List UInt8) :
    List Reply → Prop
  | blank (htext : textOf? line = some []) : Answers s agent line []
  | invalid {text : List Char} (htext : textOf? line = some text) (hblank : text ≠ [])
      {problem : Json.Problem} (hparse : Command.parse text = .error problem) :
      Answers s agent line [invalidLine (problem.describe text)]
  | obeyed {text : List Char} (htext : textOf? line = some text) (hblank : text ≠ [])
      {command : Command} (hparse : Command.parse text = .ok command) {block : List Reply}
      (hobeys : Obeys s agent command block) : Answers s agent line block

theorem Reply.isLast_ofResult (result : Except Failure Response) :
    (Reply.ofResult result).isLast = true := by
  cases result <;> rfl

variable {s : Client.Settings} {agent : Execution.Agent}

theorem Obeys.shape {command : Command} {block : List Reply} (h : Obeys s agent command block) :
    ∃ (events : List Event) (last : Reply), block = events.map .event ++ [last] ∧
      last.isLast = true := by
  cases h with
  | promptless | list | ping | unknown | refused => exact ⟨[], _, rfl, rfl⟩
  | ran => exact ⟨_, _, rfl, Reply.isLast_ofResult _⟩
  | asked => exact ⟨[], _, rfl, Reply.isLast_ofResult _⟩

/-- Blocks can be told apart: a line that is not blank leads to exactly one last reply, which ends
its block. -/
theorem Answers.shape {line : List UInt8} {block : List Reply} (h : Answers s agent line block) :
    textOf? line = some [] ∧ block = [] ∨
      textOf? line ≠ some [] ∧ ∃ (events : List Event) (last : Reply),
        block = events.map .event ++ [last] ∧ last.isLast = true := by
  cases h with
  | blank htext => exact .inl ⟨htext, rfl⟩
  | invalid htext hblank =>
      refine .inr ⟨?_, [], _, rfl, rfl⟩
      rw [htext]
      exact fun heq => hblank (Option.some.inj heq)
  | obeyed htext hblank _ hobeys =>
      refine .inr ⟨?_, hobeys.shape⟩
      rw [htext]
      exact fun heq => hblank (Option.some.inj heq)

/-- What a call has told that is over answers the line that it is made for. -/
theorem Obeys.of_story {command : Command} {key : String} {prompt : Prompt}
    (hverb : command.verb = "run") (herrand : command.errand? = some (key, prompt))
    {d : Client.Desk} (hsettings : d.settings = s) (hagent : d.agent = agent)
    {told : List Client.Message} (h : Client.Story d ⟨key, prompt, true⟩ told)
    (hcalm : Client.Message.ended .crashed ∉ told) :
    ∃ (events : List Event) (how : Client.Ending) (result : Except Failure Response),
      told = events.map .event ++ [.ended how] ∧ resultOf? how = some result ∧
        Obeys s agent command (events.map .event ++ [.ofResult result]) := by
  cases h with
  | @refused cause hcause => exact ⟨[], _, _, rfl, rfl, .refused hverb herrand hcause⟩
  | crashed => exact absurd (List.mem_singleton_self _) hcalm
  | captured hcaptures => cases hcaptures
  | @streamed number part _ hruns =>
      obtain ⟨limit, hlimit, rfl, -⟩ := hruns
      obtain ⟨events, added, how, hcomplete⟩ := Client.narration_complete
        (d.agent number (d.settings.execution prompt limit))
      have hresult : ∃ result, resultOf? how = some result := by
        cases how with
        | answered r => exact ⟨_, rfl⟩
        | failed f => exact ⟨_, rfl⟩
        | crashed =>
            refine absurd ?_ hcalm
            rw [hcomplete.messages]
            exact List.mem_append_right _ (List.mem_singleton_self _)
      obtain ⟨result, hresult⟩ := hresult
      refine ⟨events, how, result, hcomplete.messages, hresult, ?_⟩
      rw [hsettings] at hlimit hcomplete
      rw [hagent] at hcomplete
      exact .ran hverb herrand number hlimit hcomplete hresult

end AgentGateway.Server
