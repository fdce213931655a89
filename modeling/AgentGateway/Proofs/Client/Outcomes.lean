import AgentGateway.Proofs.Client.Endings
import AgentGateway.Proofs.Client.ErrorTail

/-!
# The outcome of a captured execution

The first line that holds a record which ends the stream decides the outcome, whatever the exit
code, the error output and the later lines are (`Transcript.feedAll_outcome`). Without such a line
the exit decides: zero means that the stream has no end, any other code is reported. So a call
that asks is always answered with an outcome (`Desk.finishCaptured_settled`), and this is all that
it tells in a run of the desk unless its executions fail (`play_asked`).
-/

namespace AgentGateway

def Record.verdict? : Record → Option Verdict
  | stop | result false _ _ => some .completed
  | result true text _ => some (.failed (text.getD Transcript.unnamedError))
  | error message => some (.failed message)
  | fragment _ | toolUse _ | unknown _ => none

theorem Record.isSome_verdict? (r : Record) : r.verdict?.isSome = r.ends := by
  cases r with
  | result isError => cases isError <;> rfl
  | fragment | toolUse | stop | error | unknown => rfl

theorem Record.verdict?_ne_incomplete (r : Record) : r.verdict? ≠ some .incomplete := by
  cases r with
  | result isError => cases isError <;> simp [verdict?]
  | fragment | toolUse | stop | error | unknown => simp [verdict?]

namespace Transcript

variable {t : Transcript}

theorem apply_verdict? (h : t.outcome = none) (r : Record) :
    (t.apply r).1.outcome = r.verdict? := by
  cases r with
  | fragment | toolUse | unknown => exact h
  | stop | error => rfl
  | result isError => cases isError <;> rfl

/-- The record on a line decides whether and how the line ends the stream. -/
theorem feed_verdict? (h : t.isClosed = false) (line : List Char) :
    (t.feed line).1.outcome = (record? line).bind Record.verdict? := by
  have hnone := isClosed_eq_false.mp h
  have hfed := fed h line
  generalize t.feed line = out at hfed
  cases hfed with
  | blank hrecord => simpa [hrecord] using hnone
  | undecodable hrecord => simpa [hrecord] using hnone
  | @decoded r hrecord usage =>
      rw [hrecord]
      exact apply_verdict? ((addUsage_outcome t usage).trans hnone) r

/-- The first record that ends the stream decides how it ends. -/
theorem feedAll_outcome (h : t.isClosed = false) (lines : List (List Char)) :
    (t.feedAll lines).1.outcome = (endRecord? lines).bind Record.verdict? := by
  induction lines generalizing t with
  | nil => exact isClosed_eq_false.mp h
  | cons line lines ih =>
      have hline := feed_verdict? h line
      have hclosed := feed_isClosed h line
      rw [endRecord?_cons]
      simp only [feedAll]
      cases hrecord : (record? line).filter Record.ends with
      | none =>
          have hopen : (t.feed line).1.isClosed = false := by
            rw [hclosed]
            cases hr : record? line with
            | none => rfl
            | some r => simpa [hr] using hrecord
          rw [Option.none_or, ih hopen]
      | some r =>
          obtain ⟨hr, hends⟩ := Option.filter_eq_some_iff.mp hrecord
          have hshut : (t.feed line).1.isClosed = true := by
            rw [hclosed, hr]
            exact hends
          rw [feedAll_of_closed hshut, hline, hr, Option.some_or]

end Transcript

namespace Response

theorem intoCompleted_ok_iff {a b : Response} :
    a.intoCompleted = .ok b ↔ b = a ∧ a.outcome = .completed := by
  unfold intoCompleted
  cases a.outcome <;> simp [eq_comm]

theorem intoCompleted_error_iff {a : Response} (h : a.outcome ≠ .incomplete) {f : Failure} :
    a.intoCompleted = .error f ↔ ∃ message, a.outcome = .failed message ∧
      f = .agentFailed message := by
  unfold intoCompleted
  cases houtcome : a.outcome with
  | incomplete => exact absurd houtcome h
  | completed => simp
  | failed message => simp [eq_comm]

end Response

namespace Client

open Admission (Limiter Ticket)
open Transcript (endRecord? record?)

/-- What is said of a captured execution whose output does not end the stream. -/
def unended (r : Execution.Result) : String :=
  if r.exitCode = 0 then Response.noTerminal else exitFailure r

theorem finish_outcome (t : Transcript) (r : Execution.Result) :
    (finish t r).outcome = some (t.outcome.getD (.failed (unended r))) := by
  cases ht : t.outcome with
  | some v => simp [finish, Transcript.close, Transcript.abort, Transcript.isClosed, ht]
  | none =>
      have hopen := Transcript.isClosed_eq_false.mpr ht
      by_cases hcode : r.exitCode = 0 <;>
        simp [finish, unended, Transcript.close, Transcript.abort_of_open hopen, hopen,
          Execution.Result.isSuccess, hcode]

theorem answer_outcome (r : Execution.Result) :
    (answer r).outcome =
      ((endRecord? (Text.lines r.stdout)).bind Record.verdict?).getD (.failed (unended r)) := by
  rw [answer, Transcript.response, finish_outcome, Transcript.feedAll_outcome rfl]
  rfl

/-- The answer that a captured execution comes to. The first record that ends the stream decides,
and nothing else does. Without such a record an exit with zero is a stream that has no end, and any
other exit is reported with its code and the end of the error output. The answer passes for complete
just when that first record is a completion; otherwise it gives an error that carries the message of
the failed outcome. The record on a line is the one that its members make. -/
structure Settled (r : Execution.Result) (a : Response) : Prop where
  recorded : ∀ record, endRecord? (Text.lines r.stdout) = some record →
    record.verdict? = some a.outcome
  endless : endRecord? (Text.lines r.stdout) = none → r.exitCode = 0 →
    a.outcome = .failed "stream ended without terminal event"
  exited : endRecord? (Text.lines r.stdout) = none → r.exitCode ≠ 0 →
    ∃ message, a.outcome = .failed message ∧ Reports r message
  decided : a.outcome ≠ .incomplete
  passes : ∀ b, a.intoCompleted = .ok b ↔ b = a ∧
    ∃ record, endRecord? (Text.lines r.stdout) = some record ∧ record.verdict? = some .completed
  rejected : ∀ f, a.intoCompleted = .error f ↔
    ∃ message, a.outcome = .failed message ∧ f = .agentFailed message
  record : ∀ line members, CompactObject line members → ∀ held,
    record? line = some held ↔ RecordOf members held ∧ ∃ u, UsageOf members u

/-- The outcome is complete just when the record that ends the stream says so. -/
theorem answer_completed_iff {r : Execution.Result} :
    (answer r).outcome = .completed ↔ ∃ record, endRecord? (Text.lines r.stdout) = some record ∧
      record.verdict? = some .completed := by
  rw [answer_outcome, ← Option.bind_eq_some_iff]
  cases (endRecord? (Text.lines r.stdout)).bind Record.verdict? <;> simp

theorem answer_recorded {r : Execution.Result} {record : Record}
    (h : endRecord? (Text.lines r.stdout) = some record) :
    record.verdict? = some (answer r).outcome := by
  have hends : record.verdict?.isSome = true := by
    rw [record.isSome_verdict?]
    exact List.find?_some h
  obtain ⟨v, hv⟩ := Option.isSome_iff_exists.mp hends
  rw [answer_outcome, h, Option.bind_some, hv, Option.getD_some]

theorem answer_unended {r : Execution.Result} (h : endRecord? (Text.lines r.stdout) = none) :
    (answer r).outcome = .failed (unended r) := by
  rw [answer_outcome, h]
  rfl

theorem answer_settled (r : Execution.Result) : Settled r (answer r) := by
  have hdecided : (answer r).outcome ≠ .incomplete := by
    cases h : endRecord? (Text.lines r.stdout) with
    | some record =>
        intro hout
        exact record.verdict?_ne_incomplete ((answer_recorded h).trans (congrArg some hout))
    | none => simp [answer_unended h]
  refine ⟨fun _ => answer_recorded, fun h hcode => ?_, fun h hcode => ?_, hdecided,
    fun b => ?_, fun f => Response.intoCompleted_error_iff hdecided,
    fun _ _ => Transcript.record?_iff⟩
  · rw [answer_unended h, unended, if_pos hcode]
    rfl
  · refine ⟨exitFailure r, ?_, Text.isTrimmed_trim _, exitFailure_of_blank, fun hne => ?_⟩
    · rw [answer_unended h, unended, if_neg hcode]
    · exact ⟨_, isTail_tailWithin _ _, exitFailure_of_text hne⟩
  · rw [Response.intoCompleted_ok_iff, answer_completed_iff]

namespace Desk

theorem close_calls (d : Desk) (c : Call) (how : Ending) :
    ∀ x ∈ (d.close c how).calls, x.ticket ≠ c.ticket := by
  intro x hx
  rw [close, release, summon_calls] at hx
  obtain ⟨y, hy, rfl⟩ := List.mem_map.mp hx
  have hne : y.ticket ≠ c.ticket := by simpa using (List.mem_filter.mp hy).2
  split
  · exact hne
  · exact hne

/-- When a captured execution has come to its end, whatever it gave and however many attempts it
took, the call is over and has told an answer with an outcome. -/
theorem finishCaptured_settled (d : Desk) (c : Call) (attempt : Nat) (r : Execution.Result) :
    (∀ x ∈ (d.finishCaptured c attempt (.ok r)).calls, x.ticket ≠ c.ticket) ∧
    ∃ a, Settled r a ∧ (d.finishCaptured c attempt (.ok r)).messages =
      d.messages ++ [(c.ticket, d.now, .ended (.answered a))] := by
  have hdecide : d.settings.decide attempt (.ok r) = .finish := by
    unfold Settings.decide
    split <;> rfl
  have hfinish : d.finishCaptured c attempt (.ok r) = d.close c (.answered (answer r)) := by
    rw [finishCaptured, hdecide]
  rw [hfinish]
  exact ⟨d.close_calls c _, answer r, answer_settled r, rfl⟩

end Desk

/-- What a call that asks has told when it is over and was not dropped. -/
inductive Asked (settings : Settings) (agent : Execution.Agent) (o : Opening) :
    List Message → Prop
  | refused {cause : Failure} (hcause : Unadmitted o.key cause) :
      Asked settings agent o [.ended (.failed cause)]
  | crashed : Asked settings agent o [.ended .crashed]
  | answered {n : Nat} {limit : Duration} {r : Execution.Result} {a : Response}
      (hlimit : settings.limit? o.prompt = some limit)
      (hcaptured : (agent n (settings.execution o.prompt limit)).captured = .ok r)
      (hsettled : Settled r a) : Asked settings agent o [.ended (.answered a)]
  | failed {n : Nat} {limit : Duration} {cause : Failure}
      (hlimit : settings.limit? o.prompt = some limit)
      (hcaptured : (agent n (settings.execution o.prompt limit)).captured = .error cause) :
      Asked settings agent o [.ended (.failed cause)]

theorem Story.asked {d : Desk} {o : Opening} {told : List Message} (h : Story d o told)
    (hasks : o.streams = false) : Asked d.settings d.agent o told := by
  cases h with
  | refused hcause => exact .refused hcause
  | crashed => exact .crashed
  | @captured number part _ hruns =>
      obtain ⟨limit, hlimit, rfl, -⟩ := hruns
      cases hcaptured : (d.agent number (d.settings.execution o.prompt limit)).captured with
      | ok r => exact .answered hlimit hcaptured (answer_settled r)
      | error cause => exact .failed hlimit hcaptured
  | streamed hstreams =>
      rw [hasks] at hstreams
      cases hstreams

/-- Whatever happens at a desk, a call that asks tells one thing only, and if that is an answer
then it is the one that an execution of its prompt comes to. -/
theorem play_asked (settings : Settings) (limiter : Limiter) (agent : Execution.Agent)
    (moves : List Move) {t : Ticket} {o : Opening}
    (hstarted : ((Diary.opening settings limiter agent).play moves).journal.started[t]? = some o)
    (hasks : o.streams = false)
    (hkept : t ∉ ((Diary.opening settings limiter agent).play moves).journal.gone)
    (hover : ∀ c ∈ ((Diary.opening settings limiter agent).play moves).desk.calls,
      c.ticket ≠ t) :
    Asked settings agent o (((Diary.opening settings limiter agent).play moves).told t) := by
  have h := (journaled_opening settings limiter agent).play moves
  obtain ⟨hsettings, hagent⟩ := play_journal (Diary.opening settings limiter agent) moves
  cases h.status t trivial with
  | fresh hfresh =>
      rw [hfresh] at hstarted
      cases hstarted
  | running hc hticket => exact absurd hticket (hover _ hc)
  | ended hstarted' _ _ hstory =>
      obtain rfl := Option.some.inj (hstarted.symm.trans hstarted')
      have hasked := (hstory hkept).asked hasks
      rw [h.settings, hsettings, h.agent, hagent] at hasked
      exact hasked

end Client

end AgentGateway
