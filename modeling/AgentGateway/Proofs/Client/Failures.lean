import AgentGateway.Proofs.Client.Endings
import AgentGateway.Proofs.Stream.Fragments

/-!
# Failures of calls that stream

A call that streams and fails tells how it ended. Whether an event has told of the failure before
depends on where the call fails. If its execution fails while the stream is open, such an event is
the last one. If a record of the agent has ended the stream already, that record has the last word,
and no event follows it. A call that is not admitted has no stream, and no event is told at all.
-/

namespace AgentGateway.Client

open Admission (Limiter Ticket)
open Execution (Part)

/-- An event has ended the stream with the text of a failure, before the call ended with that
failure. -/
def Announced (told : List Message) (cause : Failure) : Prop :=
  ∃ front back, told = front ++ .event (.failed cause.display) :: back ++ [.ended (.failed cause)]

/-- The events of the lines that an execution delivers. -/
def lineEvents (part : Part) : List Event := (({} : Transcript).feedAll (texts part.lines)).2

/-- Either the stream is open after its lines and a message ends it, or one of the lines has ended
it and no message does. -/
theorem eventsUntil_cases (part : Part) (message : String) :
    ((∀ e ∈ lineEvents part, e.isTerminal = false) ∧
        Transcript.eventsUntil (texts part.lines) message = lineEvents part ++ [.failed message]) ∨
      ∃ front last, lineEvents part = front ++ [last] ∧ (∀ e ∈ front, e.isTerminal = false) ∧
        last.isTerminal = true ∧
        Transcript.eventsUntil (texts part.lines) message = lineEvents part := by
  obtain ⟨front, last, heq, hfront, hlast, -⟩ :=
    Transcript.eventsUntil_eq (texts part.lines) message
  obtain ⟨o, -, hnone | hadded⟩ := (({} : Transcript).feedAll (texts part.lines)).1.abort_eq message
  · have hevents : Transcript.eventsUntil (texts part.lines) message = lineEvents part := by
      rw [Transcript.eventsUntil, hnone]
      exact List.append_nil _
    exact .inr ⟨front, last, hevents.symm.trans heq, hfront, hlast, hevents⟩
  · have hevents : Transcript.eventsUntil (texts part.lines) message =
        lineEvents part ++ [.failed message] := by
      rw [Transcript.eventsUntil, hadded]
      rfl
    have hlines : lineEvents part = front := List.append_inj_left' (hevents.symm.trans heq) rfl
    left
    constructor
    · rw [hlines]
      exact hfront
    · exact hevents

/-- What a call tells whose execution is streamed and fails. If no line has ended the stream, the
last event tells of the failure; otherwise the event of that line is the last one. -/
structure Fails (part : Part) (told : List Message) (cause : Failure) : Prop where
  outcome : part.streamed = .error cause
  opened : (∀ e ∈ lineEvents part, e.isTerminal = false) →
    told = (lineEvents part).map .event ++
      [.event (.failed cause.display), .ended (.failed cause)]
  settled : (∃ e ∈ lineEvents part, e.isTerminal = true) →
    told = (lineEvents part).map .event ++ [.ended (.failed cause)]
  announced_iff : Announced told cause ↔
    ∀ e ∈ lineEvents part, e.isTerminal = true → e = .failed cause.display

theorem narration_fails {part : Part} {cause : Failure} (h : part.streamed = .error cause) :
    Fails part (narration part) cause := by
  have htold : narration part =
      (Transcript.eventsUntil (texts part.lines) cause.display).map .event ++
        [.ended (.failed cause)] := by
    rw [narration, h]
    rfl
  rw [htold]
  rcases eventsUntil_cases part cause.display with
    ⟨hopen, heq⟩ | ⟨front, last, hlines, hfront, hlast, heq⟩
  · rw [heq]
    constructor
    · exact h
    · intro _
      simp
    · rintro ⟨e, he, hterminal⟩
      rw [hopen e he] at hterminal
      cases hterminal
    · constructor
      · intro _ e he hterminal
        rw [hopen e he] at hterminal
        cases hterminal
      · intro _
        exact ⟨(lineEvents part).map .event, [], by simp⟩
  · rw [heq]
    constructor
    · exact h
    · intro hopen
      have hfalse := hopen last (by simp [hlines])
      rw [hlast] at hfalse
      cases hfalse
    · intro _
      rfl
    · constructor
      · -- The only event that can tell of the failure is the one that ended the stream.
        rintro ⟨before, after, hsplit⟩ e he hterminal
        have hevents : (lineEvents part).map Message.event =
            before ++ .event (.failed cause.display) :: after :=
          List.append_inj_left' hsplit rfl
        have hmem : Event.failed cause.display ∈ lineEvents part := by
          have hin : Message.event (.failed cause.display) ∈ (lineEvents part).map .event := by
            rw [hevents]
            simp
          simpa using hin
        have heq_last {x : Event} (hx : x ∈ lineEvents part) (hends : x.isTerminal = true) :
            x = last := by
          rw [hlines, List.mem_append, List.mem_singleton] at hx
          rcases hx with hx | hx
          · rw [hfront x hx] at hends
            cases hends
          · exact hx
        exact (heq_last he hterminal).trans (heq_last hmem rfl).symm
      · intro hsame
        have hfailed : last = .failed cause.display := hsame last (by simp [hlines]) hlast
        exact ⟨front.map .event, [], by simp [hlines, hfailed]⟩

/-- An agent that is done has the last word, whatever its execution fails with after that. -/
theorem completed_not_announced (cause : Failure) :
    let part : Part :=
      { lines := [String.ofList (Json.object Fragment.stopMembers).chars], failure := some cause }
    Fails part (narration part) cause ∧ ¬ Announced (narration part) cause := by
  intro part
  have hfails : Fails part (narration part) cause := narration_fails rfl
  have hevents : lineEvents part = [.completion {}] := by
    simp [lineEvents, texts, part, Transcript.feedAll,
      Transcript.feed_stopMembers (t := {}) rfl]
  constructor
  · exact hfails
  · intro hannounced
    have hlast := hfails.announced_iff.mp hannounced (.completion {}) (by simp [hevents]) rfl
    cases hlast

/-- A call that tells of a failure at its end has an execution that failed. -/
theorem error_of_mem_narration {part : Part} {cause : Failure}
    (h : Message.ended (.failed cause) ∈ narration part) : part.streamed = .error cause := by
  cases hout : part.streamed with
  | ok code => simp [narration, hout, conclusion] at h
  | error f =>
      have heq : cause = f := by simpa [narration, hout, conclusion] using h
      rw [heq]

/-- What is promised of calls that stream and fail, after any moves. Such a call was not admitted,
and has told nothing else; or its execution has failed, and it has told so in an event unless a line
has ended the stream in another way. -/
structure FailuresTold (settings : Settings) (agent : Execution.Agent) (y : Diary) : Prop where
  failed : ∀ {t : Ticket} {o : Opening} {cause : Failure}, y.journal.started[t]? = some o →
    o.streams = true → t ∉ y.journal.gone → .ended (.failed cause) ∈ y.told t →
    (Unadmitted o.key cause ∧ y.told t = [.ended (.failed cause)]) ∨
      ∃ n r limit, y.desk.records[n]? = some r ∧ r.method = .streamed ∧
        settings.limit? o.prompt = some limit ∧ r.request = settings.execution o.prompt limit ∧
        Fails (agent n r.request) (y.told t) cause

theorem Stage.not_ended {d : Desk} {c : Call} {told : List Message} {due : List Task}
    (h : Stage d c told due) (how : Ending) : Message.ended how ∉ told := by
  cases h <;> simp

theorem play_failuresTold (settings : Settings) (limiter : Limiter) (agent : Execution.Agent)
    (moves : List Move) :
    FailuresTold settings agent ((Diary.opening settings limiter agent).play moves) := by
  have h := (journaled_opening settings limiter agent).play moves
  obtain ⟨hkept, hkept'⟩ := play_journal (Diary.opening settings limiter agent) moves
  have hsettings : ((Diary.opening settings limiter agent).play moves).desk.settings = settings :=
    h.settings.trans hkept
  have hagent : ((Diary.opening settings limiter agent).play moves).desk.agent = agent :=
    h.agent.trans hkept'
  constructor
  intro t o cause hstarted hstreams hnot hfailed
  rw [Diary.told] at hfailed ⊢
  cases h.status t trivial with
  | fresh hfresh =>
      rw [hfresh] at hstarted
      cases hstarted
  | running _ _ _ hstage => exact absurd hfailed (hstage.not_ended _)
  | ended hstarted' _ _ hstory =>
      obtain rfl := Option.some.inj (hstarted.symm.trans hstarted')
      have htold := hstory hnot
      generalize ((Diary.opening settings limiter agent).play moves).journal.told _ t = told
        at hfailed htold ⊢
      cases htold with
      | refused hcause =>
          left
          cases List.mem_singleton.mp hfailed
          exact ⟨hcause, rfl⟩
      | crashed => cases List.mem_singleton.mp hfailed
      | captured hcaptures =>
          rw [hstreams] at hcaptures
          cases hcaptures
      | @streamed n part _ hruns =>
          right
          have hends : part.streamed = .error cause := error_of_mem_narration hfailed
          obtain ⟨limit, hlimit, hpart, r, hr, hmethod, hrequest⟩ := hruns
          rw [hsettings] at hlimit hpart hrequest
          rw [hagent, ← hrequest] at hpart
          refine ⟨n, r, limit, hr, hmethod, hlimit, hrequest, ?_⟩
          rw [← hpart]
          exact narration_fails hends

/-- A call that a closed limiter turns away fails without any event. -/
theorem closed_limiter_not_announced :
    let moves : List Move := [.shut, .start defaultKey { text := "x" } true]
    let y := (Diary.opening { policy := .fixed (.ofSeconds 30) } (.ofDefault 2)
      (.scripted [])).play moves
    let cause := Admission.limiterClosed defaultKey
    (∃ o, y.journal.started[0]? = some o ∧ o.streams = true) ∧ 0 ∉ y.journal.gone ∧
      y.told 0 = [.ended (.failed cause)] ∧ ¬ Announced (y.told 0) cause := by
  intro moves y cause
  have htold : y.told 0 = [.ended (.failed cause)] := rfl
  refine ⟨⟨_, rfl, rfl⟩, by simp [y, moves, Diary.play, Diary.move, Diary.opening], htold, ?_⟩
  rw [htold]
  rintro ⟨front, back, hsplit⟩
  have hlength := congrArg List.length hsplit
  simp only [List.length_append, List.length_cons, List.length_nil] at hlength
  omega

end AgentGateway.Client
