import AgentGateway.Proofs.Client.Acts

/-!
# Streams end in exactly one terminal event

Calls are made, dropped and carried on in any order, while the limiter may be closed and messages
are taken out at any time. A call whose streamed execution ends, and that was not dropped before,
has told the events of the lines in order, then at most one event that the end of the execution
added, and then how it ended. Exactly one of the events ends the stream, and it is the last one.
-/

namespace AgentGateway.Client

open Admission (Limiter Ticket)
open Execution (Part)

/-- A desk with its journal. -/
structure Diary where
  journal : Journal
  desk : Desk

/-- What can happen at the desk. A `step` does the first thing that is due by a moment, `collect`
takes messages out, and `clock` sets the clock. -/
inductive Move where
  | start (key : String) (prompt : Prompt) (streams : Bool)
  | step (moment : Duration)
  | drop (t : Ticket)
  | shut
  | collect
  | clock (moment : Duration)

namespace Diary

def opening (settings : Settings) (limiter : Limiter) (agent : Execution.Agent) : Diary where
  journal := { settings, agent }
  desk := { settings, limiter, agent }

def move (y : Diary) : Move → Diary
  | .start key prompt streams =>
    { journal := { y.journal with started := y.journal.started ++ [⟨key, prompt, streams⟩] }
      desk := (y.desk.start key prompt streams).1 }
  | .step moment => { y with desk := y.desk.step moment }
  | .drop t =>
    { journal := { y.journal with gone := t :: y.journal.gone }, desk := y.desk.drop t }
  | .shut => { y with desk := y.desk.shut }
  | .collect =>
    { journal := { y.journal with past := y.journal.past ++ y.desk.messages }
      desk := y.desk.collect.1 }
  | .clock moment => { y with desk := { y.desk with now := moment } }

def play (y : Diary) (moves : List Move) : Diary := moves.foldl move y

def told (y : Diary) (t : Ticket) : List Message := y.journal.told y.desk t

end Diary

theorem journaled_opening (settings : Settings) (limiter : Limiter) (agent : Execution.Agent) :
    Journaled (fun _ => True) (Diary.opening settings limiter agent).journal
      (Diary.opening settings limiter agent).desk where
  settings := rfl
  agent := rfl
  started := rfl
  distinct := List.nodup_nil
  ordered := List.Pairwise.nil
  status _ _ := .fresh rfl (fun c hc => absurd hc List.not_mem_nil) rfl rfl
  executions hr := by cases hr

theorem Journaled.move {y : Diary} (h : Journaled (fun _ => True) y.journal y.desk) (m : Move) :
    Journaled (fun _ => True) (y.move m).journal (y.move m).desk := by
  cases m with
  | start key prompt streams => exact h.start key prompt streams
  | step moment => exact h.step moment
  | drop t => exact h.drop t
  | shut => exact h.shut
  | collect => exact h.collect
  | clock moment => exact h.same rfl rfl rfl rfl rfl rfl rfl

theorem Journaled.play {y : Diary} (h : Journaled (fun _ => True) y.journal y.desk)
    (moves : List Move) : Journaled (fun _ => True) (y.play moves).journal (y.play moves).desk := by
  induction moves generalizing y with
  | nil => exact h
  | cons m moves ih => exact ih (h.move m)

theorem move_journal (y : Diary) (m : Move) :
    (y.move m).journal.settings = y.journal.settings ∧
      (y.move m).journal.agent = y.journal.agent := by
  cases m <;> exact ⟨rfl, rfl⟩

theorem play_journal (y : Diary) (moves : List Move) :
    (y.play moves).journal.settings = y.journal.settings ∧
      (y.play moves).journal.agent = y.journal.agent := by
  induction moves generalizing y with
  | nil => exact ⟨rfl, rfl⟩
  | cons m moves ih =>
      obtain ⟨hsettings, hagent⟩ := ih (y.move m)
      exact ⟨hsettings.trans (move_journal y m).1, hagent.trans (move_journal y m).2⟩

/-- What a call tells whose streamed execution does what a part says, and how the call ended. The
events are those of the lines in order, and one that the end of the execution may have added; the
last event is the only one that ends the stream. After an event that ends the stream nothing is
added, whatever the exit code. -/
structure Complete (part : Part) (told : List Message) (events : List Event)
    (added : Option Event) (how : Ending) : Prop where
  messages : told = events.map .event ++ [.ended how]
  delivered : events = (({} : Transcript).feedAll (texts part.lines)).2 ++ added.toList
  once : ∃ front last, events = front ++ [last] ∧ (∀ e ∈ front, e.isTerminal = false) ∧
    last.isTerminal = true ∧
    -- An execution that ends with an exit code answers, and the outcome is that of the last event.
    ∀ code, part.streamed = .ok code → ∃ r, how = .answered r ∧ last.verdict? = some r.outcome
  kept : (∃ e ∈ (({} : Transcript).feedAll (texts part.lines)).2, e.isTerminal = true) →
    added = none
  failed : ∀ f, part.streamed = .error f → how = .failed f

theorem narration_complete (part : Part) :
    ∃ events added how, Complete part (narration part) events added how := by
  obtain ⟨front, last, heq, hopen, hlast, hout⟩ :=
    Transcript.eventsUntil_eq (texts part.lines) (closing part.streamed)
  refine ⟨_, _, _, rfl, rfl, ⟨front, last, heq, hopen, hlast, fun code hcode => ?_⟩,
    fun hseen => ?_, fun f hf => ?_⟩
  · have hverdict : last.verdict?.isSome = true := by rw [last.isSome_verdict?]; exact hlast
    obtain ⟨v, hv⟩ := Option.isSome_iff_exists.mp hverdict
    rw [hcode, hv] at hout
    refine ⟨_, by rw [hcode]; rfl, ?_⟩
    rw [hv, Transcript.response, hout]
    rfl
  · -- Had anything been added, it would be the last event, and the one that was seen another one.
    obtain ⟨e, he, hterminal⟩ := hseen
    obtain ⟨o, -, hnone | hadded⟩ := (({} : Transcript).feedAll (texts part.lines)).1.abort_eq
      (closing part.streamed)
    · exact hnone
    · rw [Transcript.eventsUntil, hadded] at heq
      have hfront := (List.append_inj_left' heq rfl)
      have hfalse := hopen e (hfront ▸ he)
      rw [hterminal] at hfalse
      cases hfalse
  · rw [hf]
    rfl

theorem Story.ends {d : Desk} {o : Opening} {told : List Message} (h : Story d o told) :
    ∃ how, Message.ended how ∈ told := by
  cases h with
  | refused | crashed | captured => exact ⟨_, List.mem_singleton_self _⟩
  | @streamed number part _ hruns =>
      obtain ⟨events, added, how, hcomplete⟩ := narration_complete part
      rw [hcomplete.messages]
      exact ⟨how, List.mem_append_right _ (List.mem_singleton_self _)⟩

/-- What is promised of calls that stream, after any moves. A streamed execution that has ended and
was not cancelled ran the prompt of a call, and the call has told all that it gave. A call that is
over and was not dropped has told that it was not admitted, that it crashed when its limit was
computed, or all that an execution of its prompt gave. As long as an execution goes on, the call has
told the events of the lines that have come, and the other lines and the end of the execution are
due in that order. -/
structure WellTold (settings : Settings) (agent : Execution.Agent) (y : Diary) : Prop where
  ended : ∀ {n : Nat} {r : Execution.Record}, y.desk.records[n]? = some r →
    r.method = .streamed → r.ending.isSome = true → r.ending ≠ some .cancelled →
    ∃ t o limit, y.journal.started[t]? = some o ∧ o.streams = true ∧
      settings.limit? o.prompt = some limit ∧ r.request = settings.execution o.prompt limit ∧
      ∃ events added how, Complete (agent n r.request) (y.told t) events added how
  finished : ∀ {t : Ticket} {o : Opening}, y.journal.started[t]? = some o → o.streams = true →
    t ∉ y.journal.gone → (∀ c ∈ y.desk.calls, c.ticket ≠ t) →
    (∃ cause, Unadmitted o.key cause ∧ y.told t = [.ended (.failed cause)]) ∨
      y.told t = [.ended .crashed] ∨
      ∃ n limit, settings.limit? o.prompt = some limit ∧ ∃ events added how,
        Complete (agent n (settings.execution o.prompt limit)) (y.told t) events added how
  running : ∀ c ∈ y.desk.calls, c.streams = true → ∀ number attempt part,
    c.phase = .executing number attempt part → ∃ fed rest, part.lines = fed ++ rest ∧
      y.told c.ticket = (({} : Transcript).feedAll (texts fed)).2.map .event ∧
      y.desk.tasks c.ticket = rest.map (.line c.ticket) ++ [.finish c.ticket]

theorem play_wellTold (settings : Settings) (limiter : Limiter) (agent : Execution.Agent)
    (moves : List Move) :
    WellTold settings agent ((Diary.opening settings limiter agent).play moves) := by
  have h := (journaled_opening settings limiter agent).play moves
  obtain ⟨hkept, hkept'⟩ := play_journal (Diary.opening settings limiter agent) moves
  have hsettings : ((Diary.opening settings limiter agent).play moves).desk.settings = settings :=
    h.settings.trans hkept
  have hagent : ((Diary.opening settings limiter agent).play moves).desk.agent = agent :=
    h.agent.trans hkept'
  constructor
  · intro n r hr hmethod hended hnot
    obtain ⟨t, -, hgave⟩ := h.executions hr hmethod hended hnot
    obtain ⟨o, hstarted, hstreams, ⟨limit, hlimit, -, r', hr', -, hrequest⟩, hstory⟩ :=
      hgave.story
    obtain rfl := Option.some.inj (hr.symm.trans hr')
    rw [hsettings] at hlimit hrequest
    rw [hagent] at hstory
    refine ⟨t, o, limit, hstarted, hstreams, hlimit, hrequest, ?_⟩
    rw [Diary.told, hstory]
    exact narration_complete _
  · intro t o hstarted hstreams hnot hnone
    cases h.status t trivial with
    | fresh hfresh =>
        rw [hfresh] at hstarted
        cases hstarted
    | running hc hticket => exact absurd hticket (hnone _ hc)
    | ended hstarted' _ _ hstory =>
        obtain rfl := Option.some.inj (hstarted.symm.trans hstarted')
        have htold := hstory hnot
        rw [Diary.told]
        generalize ((Diary.opening settings limiter agent).play moves).journal.told _ t = told
          at htold
        cases htold with
        | @refused cause hcause => exact .inl ⟨cause, hcause, rfl⟩
        | crashed => exact .inr (.inl rfl)
        | captured hcaptures =>
            rw [hstreams] at hcaptures
            cases hcaptures
        | @streamed number part _ hruns =>
            obtain ⟨limit, hlimit, hpart, -⟩ := hruns
            rw [hsettings] at hlimit hpart
            rw [hagent] at hpart
            refine .inr (.inr ⟨number, limit, hlimit, ?_⟩)
            rw [← hpart]
            exact narration_complete part
  · intro c hc hstreams number attempt part hphase
    obtain ⟨-, hstage⟩ := h.stage hc
    rw [Diary.told]
    generalize ((Diary.opening settings limiter agent).play moves).journal.told _ c.ticket = told,
      Desk.tasks _ c.ticket = due at hstage
    cases hstage with
    | waiting hother | summoned hother | pausing hother =>
        rw [hphase] at hother
        cases hother
    | capturing _ hcaptures =>
        rw [hstreams] at hcaptures
        cases hcaptures
    | @streaming _ _ _ fed rest hother _ _ hlines =>
        rw [hphase] at hother
        cases hother
        exact ⟨fed, rest, hlines, rfl, rfl⟩

end AgentGateway.Client
