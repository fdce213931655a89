import AgentGateway.Proofs.Client.Crashes
import AgentGateway.Proofs.Client.Tasks
import AgentGateway.Proofs.Stream.Account

/-!
# What a call tells

A call that streams tells the events of its lines as they come, then the event that ends the
stream if none of its lines did, and then how the call ended. Here is said how far each call is
(`Stage`), what has been told by one that is over (`Story`), and that every operation of the desk
keeps it (`Journaled`).

Messages may be taken out at any time, and a call that is over leaves nothing behind at the desk.
So there is a journal beside the desk of what was asked for, of the messages that have been taken
out, and of the calls that were dropped.
-/

namespace AgentGateway.Client

open Admission (Limiter Ticket)
open Execution (Part)

/-! ## The end of a stream -/

/-- What is said of a stream that the end of its execution ends. -/
def closing : Except Failure Int → String
  | .ok code => if code = 0 then Response.noTerminal else exitText code
  | .error f => f.display

/-- How a call ends whose streamed execution ends, from what has been gathered. -/
def conclusion (t : Transcript) : Except Failure Int → Ending
  | .ok code => .answered (t.abort (closing (.ok code))).1.response
  | .error f => .failed f

/-- How a call ends whose captured execution ends. -/
def settlement : Except Failure Execution.Result → Ending
  | .ok r => .answered (answer r)
  | .error f => .failed f

/-- The end of an execution ends a stream that is still open, whatever it is; it does nothing to
one that a record has ended. -/
theorem endStream_eq (t : Transcript) (outcome : Except Failure Int) :
    (endStream t outcome).1 = (t.abort (closing outcome)).2 ∧
      (match (endStream t outcome).2 with
        | .ok r => Ending.answered r
        | .error f => .failed f) = conclusion t outcome := by
  cases outcome with
  | error f => exact ⟨rfl, rfl⟩
  | ok code =>
      by_cases hcode : code = 0
      · simp [endStream, conclusion, closing, hcode, Transcript.close]
      · cases ht : t.isClosed <;>
          simp [endStream, conclusion, closing, hcode, ht, Transcript.close, Transcript.abort]

/-- The lines of a part as they are fed to a transcript. -/
def texts (lines : List String) : List (List Char) := lines.map (·.toList)

/-- All that a call tells whose execution is streamed and ends. -/
def narration (part : Part) : List Message :=
  (Transcript.eventsUntil (texts part.lines) (closing part.streamed)).map .event ++
    [.ended (conclusion (({} : Transcript).feedAll (texts part.lines)).1 part.streamed)]

theorem feedAll_concat (t : Transcript) (lines : List (List Char)) (line : List Char) :
    t.feedAll (lines ++ [line]) =
      (((t.feedAll lines).1.feed line).1,
        (t.feedAll lines).2 ++ ((t.feedAll lines).1.feed line).2.toList) := by
  induction lines generalizing t with
  | nil => simp [Transcript.feedAll]
  | cons first lines ih => simp [Transcript.feedAll, ih]

/-! ## The journal -/

/-- What a caller asked for. -/
structure Opening where
  key : String
  prompt : Prompt
  streams : Bool

/-- What has become of the calls of a desk, and what they have in common: what was asked for
(`started`, in the order of the tickets), the messages that have been taken out (`past`), and the
calls that were dropped (`gone`). -/
structure Journal where
  settings : Settings
  agent : Execution.Agent
  started : List Opening := []
  past : List (Ticket × Duration × Message) := []
  gone : List Ticket := []

def Journal.told (j : Journal) (d : Desk) (t : Ticket) : List Message :=
  ((j.past ++ d.messages).filter (·.1 == t)).map (·.2.2)

namespace Desk

def tasks (d : Desk) (t : Ticket) : List Task := d.agenda.select (·.ticket == t)

def Runs (d : Desk) (number : Nat) (prompt : Prompt) (method : Execution.Method) (part : Part) :
    Prop :=
  ∃ limit, d.settings.limit? prompt = some limit ∧
    part = d.agent number (d.settings.execution prompt limit) ∧
    ∃ r, d.records[number]? = some r ∧ r.method = method ∧
      r.request = d.settings.execution prompt limit

/-- Executions are added or end, and nothing else changes about them. -/
structure Extends (d d' : Desk) : Prop where
  settings : d'.settings = d.settings
  agent : d'.agent = d.agent
  records : ∀ {n : Nat} {r : Execution.Record}, d.records[n]? = some r →
    ∃ r' : Execution.Record, d'.records[n]? = some r' ∧ r'.method = r.method ∧
      r'.request = r.request

variable {d d' d'' : Desk}

theorem Extends.of_eq (hsettings : d'.settings = d.settings) (hagent : d'.agent = d.agent)
    (hrecords : d'.records = d.records) : d.Extends d' where
  settings := hsettings
  agent := hagent
  records h := ⟨_, hrecords ▸ h, rfl, rfl⟩

theorem Extends.trans (h : d.Extends d') (h' : d'.Extends d'') : d.Extends d'' where
  settings := h'.settings.trans h.settings
  agent := h'.agent.trans h.agent
  records hr := by
    obtain ⟨r', hr', hmethod, hrequest⟩ := h.records hr
    obtain ⟨r'', hr'', hmethod', hrequest'⟩ := h'.records hr'
    exact ⟨r'', hr'', hmethod'.trans hmethod, hrequest'.trans hrequest⟩

theorem getElem?_record (d : Desk) (number : Nat) (ending : Execution.Ending) (n : Nat) :
    (d.record number ending).records[n]? =
      if number = n then (d.records[n]?).map fun r => { r with ending := some ending }
      else d.records[n]? := by
  rw [record, List.getElem?_modify]
  split_ifs <;> simp

theorem extends_record (d : Desk) (number : Nat) (ending : Execution.Ending) :
    d.Extends (d.record number ending) where
  settings := rfl
  agent := rfl
  records {n r} hr := by
    rw [getElem?_record, hr]
    split_ifs
    · exact ⟨_, rfl, rfl, rfl⟩
    · exact ⟨r, rfl, rfl, rfl⟩

theorem Runs.extends {n : Nat} {prompt : Prompt} {method : Execution.Method} {part : Part}
    (h : d.Runs n prompt method part) (hext : d.Extends d') : d'.Runs n prompt method part := by
  obtain ⟨limit, hlimit, hpart, r, hr, hmethod, hrequest⟩ := h
  obtain ⟨r', hr', hmethod', hrequest'⟩ := hext.records hr
  refine ⟨limit, hext.settings ▸ hlimit, ?_, r', hr', hmethod'.trans hmethod, ?_⟩
  · rw [hext.agent, hext.settings]
    exact hpart
  · rw [hext.settings]
    exact hrequest'.trans hrequest

theorem Runs.of_record {n : Nat} {prompt : Prompt} {method : Execution.Method} {part : Part}
    (h : d.Runs n prompt method part) {r : Execution.Record} (hr : d.records[n]? = some r) :
    r.method = method ∧ part = d.agent n r.request := by
  obtain ⟨limit, -, hpart, r', hr', hmethod, hrequest⟩ := h
  obtain rfl := Option.some.inj (hr.symm.trans hr')
  exact ⟨hmethod, hrequest ▸ hpart⟩

end Desk

/-! ## Stages and stories -/

/-- The failures of calls of a key that are not admitted. -/
def Unadmitted (key : String) (cause : Failure) : Prop :=
  cause = Admission.poolClosed key ∨ cause = Admission.limiterClosed key

theorem unadmitted_request {l : Limiter} {key : String} {t : Ticket} {cause : Failure}
    (h : (l.request key none t).2 = .refused cause) : Unadmitted key cause := by
  have henter (p : Admission.Pool) (h : (p.enter key t).2 = .refused cause) :
      Unadmitted key cause := by
    unfold Admission.Pool.enter at h
    split_ifs at h
    exact .inl (Admission.Answer.refused.inj h).symm
  unfold Limiter.request Limiter.ask at h
  split at h
  next p _ => exact henter p h
  next =>
    dsimp only at h
    split_ifs at h
    · exact .inr (Admission.Answer.refused.inj h).symm
    · exact henter _ h

theorem unadmitted_check {l : Limiter} {key : String} {t : Ticket} {cause : Failure}
    (h : (l.check key t).2 = .refused cause) : Unadmitted key cause := by
  unfold Limiter.check at h
  split at h
  next p _ =>
    unfold Admission.Pool.check at h
    split_ifs at h
    exact .inl (Admission.Answer.refused.inj h).symm
  next => cases h

/-- How far a call is: what it has told so far, and what is due for it. Of a call that streams some
lines have come, and the others are due before the end. -/
inductive Stage (d : Desk) (c : Call) : List Message → List Task → Prop
  | waiting (hphase : c.phase = .waiting) (hempty : c.transcript = {}) : Stage d c [] []
  | summoned (hphase : c.phase = .summoned) (hempty : c.transcript = {}) :
      Stage d c [] [.notice c.ticket]
  | streaming {number attempt : Nat} {part : Part} {fed rest : List String}
      (hphase : c.phase = .executing number attempt part) (hstreams : c.streams = true)
      (hruns : d.Runs number c.prompt .streamed part) (hlines : part.lines = fed ++ rest)
      (htranscript : c.transcript = (({} : Transcript).feedAll (texts fed)).1) :
      Stage d c ((({} : Transcript).feedAll (texts fed)).2.map .event)
        (rest.map (.line c.ticket) ++ [.finish c.ticket])
  | capturing {number attempt : Nat} {part : Part}
      (hphase : c.phase = .executing number attempt part) (hstreams : c.streams = false)
      (hruns : d.Runs number c.prompt .captured part) : Stage d c [] [.finish c.ticket]
  | pausing {attempt : Nat} (hphase : c.phase = .pausing attempt) (hstreams : c.streams = false) :
      Stage d c [] [.retry c.ticket]

/-- What a call has told that is over and was not dropped. -/
inductive Story (d : Desk) (o : Opening) : List Message → Prop
  | refused {cause : Failure} (hcause : Unadmitted o.key cause) :
      Story d o [.ended (.failed cause)]
  | crashed : Story d o [.ended .crashed]
  | captured {number : Nat} {part : Part} (hstreams : o.streams = false)
      (hruns : d.Runs number o.prompt .captured part) :
      Story d o [.ended (settlement part.captured)]
  | streamed {number : Nat} {part : Part} (hstreams : o.streams = true)
      (hruns : d.Runs number o.prompt .streamed part) : Story d o (narration part)

inductive Status (j : Journal) (d : Desk) (t : Ticket) : Prop
  | fresh (hstarted : j.started[t]? = none) (hnone : ∀ c ∈ d.calls, c.ticket ≠ t)
      (htold : j.told d t = []) (htasks : d.tasks t = [])
  | running {c : Call} (hc : c ∈ d.calls) (hticket : c.ticket = t)
      (hstarted : j.started[t]? = some ⟨c.key, c.prompt, c.streams⟩)
      (hstage : Stage d c (j.told d t) (d.tasks t))
  | ended {o : Opening} (hstarted : j.started[t]? = some o) (hnone : ∀ c ∈ d.calls, c.ticket ≠ t)
      (htasks : d.tasks t = []) (hstory : t ∉ j.gone → Story d o (j.told d t))

variable {j j' : Journal} {d d' : Desk} {c : Call} {t : Ticket}

theorem Stage.extends {told : List Message} {due : List Task} (h : Stage d c told due)
    (hext : d.Extends d') : Stage d' c told due := by
  cases h with
  | waiting hphase hempty => exact .waiting hphase hempty
  | summoned hphase hempty => exact .summoned hphase hempty
  | streaming hphase hstreams hruns hlines htranscript =>
      exact .streaming hphase hstreams (hruns.extends hext) hlines htranscript
  | capturing hphase hstreams hruns => exact .capturing hphase hstreams (hruns.extends hext)
  | pausing hphase hstreams => exact .pausing hphase hstreams

theorem Story.extends {o : Opening} {told : List Message} (h : Story d o told)
    (hext : d.Extends d') : Story d' o told := by
  cases h with
  | refused hcause => exact .refused hcause
  | crashed => exact .crashed
  | captured hstreams hruns => exact .captured hstreams (hruns.extends hext)
  | streamed hstreams hruns => exact .streamed hstreams (hruns.extends hext)

theorem Status.frame (h : Status j d t) (hext : d.Extends d')
    (hcalls : ∀ c, c.ticket = t → (c ∈ d'.calls ↔ c ∈ d.calls))
    (htold : j'.told d' t = j.told d t) (htasks : d'.tasks t = d.tasks t)
    (hstarted : j'.started[t]? = j.started[t]?) (hgone : t ∈ j.gone → t ∈ j'.gone) :
    Status j' d' t := by
  cases h with
  | fresh hnew hnone hsilent hidle =>
      refine .fresh (hstarted.trans hnew) (fun c hc heq => ?_) (htold.trans hsilent)
        (htasks.trans hidle)
      exact hnone c ((hcalls c heq).mp hc) heq
  | running hc hticket hopened hstage =>
      refine .running ((hcalls _ hticket).mpr hc) hticket (hstarted.trans hopened) ?_
      rw [htold, htasks]
      exact hstage.extends hext
  | ended hopened hnone hidle hstory =>
      refine .ended (hstarted.trans hopened) (fun c hc heq => ?_) (htasks.trans hidle)
        fun hnot => ?_
      · exact hnone c ((hcalls c heq).mp hc) heq
      · rw [htold]
        exact (hstory fun hmem => hnot (hgone hmem)).extends hext

structure ToldExecution (j : Journal) (d : Desk) (number : Nat) (part : Part) (t : Ticket) :
    Prop where
  none : ∀ c ∈ d.calls, c.ticket ≠ t
  story : ∃ o, j.started[t]? = some o ∧ o.streams = true ∧ d.Runs number o.prompt .streamed part ∧
    j.told d t = narration part

theorem ToldExecution.frame {number : Nat} {part : Part} (h : ToldExecution j d number part t)
    (hext : d.Extends d') (hnone : ∀ c ∈ d'.calls, c.ticket ≠ t) (htold : j'.told d' t = j.told d t)
    (hstarted : j'.started[t]? = j.started[t]?) : ToldExecution j' d' number part t := by
  obtain ⟨o, hopened, hstreams, hruns, hstory⟩ := h.story
  exact ⟨hnone, o, hstarted.trans hopened, hstreams, hruns.extends hext, htold.trans hstory⟩

theorem told_tell (j : Journal) (d : Desk) (t u : Ticket) (m : Message) :
    j.told (d.tell t m) u = j.told d u ++ if t = u then [m] else [] := by
  simp only [Journal.told, Desk.tell, ← List.append_assoc, List.filter_append, List.map_append]
  by_cases h : t = u <;> simp [h]

theorem told_tell_of_silent (h : j.told d t = []) (m : Message) : j.told (d.tell t m) t = [m] := by
  rw [told_tell, h, if_pos rfl, List.nil_append]

theorem Story.of_eq {o : Opening} {told told' : List Message} (h : told' = told)
    (hstory : Story d o told) : Story d o told' := h ▸ hstory

theorem Stage.of_waiting {told : List Message} {due : List Task} (h : Stage d c told due)
    (hphase : c.phase = .waiting) : told = [] ∧ due = [] ∧ c.transcript = {} := by
  cases h with
  | waiting _ hempty => exact ⟨rfl, rfl, hempty⟩
  | summoned hother | streaming hother | capturing hother | pausing hother =>
      rw [hphase] at hother
      cases hother

theorem Stage.runs_of_executing {told : List Message} {due : List Task} (h : Stage d c told due)
    {number attempt : Nat} {part : Part} (hphase : c.phase = .executing number attempt part) :
    d.Runs number c.prompt (if c.streams = true then .streamed else .captured) part := by
  cases h with
  | waiting hother | summoned hother | pausing hother =>
      rw [hphase] at hother
      cases hother
  | streaming hother hstreams hruns =>
      rw [hphase] at hother
      cases hother
      rw [if_pos hstreams]
      exact hruns
  | capturing hother hstreams hruns =>
      rw [hphase] at hother
      cases hother
      rw [if_neg (by simp [hstreams])]
      exact hruns

theorem Stage.of_notice {told : List Message} {due : List Task}
    (h : Stage d c told (.notice t :: due)) : told = [] ∧ due = [] ∧ c.transcript = {} := by
  generalize hdue : Task.notice t :: due = tasks at h
  cases h with
  | waiting => cases hdue
  | summoned _ hempty =>
      cases hdue
      exact ⟨rfl, rfl, hempty⟩
  | streaming =>
      rename_i rest _ _ _ _ _
      cases rest <;> simp at hdue
  | capturing | pausing => cases hdue

theorem Stage.of_line {told : List Message} {due : List Task} {text : String}
    (h : Stage d c told (.line t text :: due)) :
    ∃ number attempt part fed rest, c.phase = .executing number attempt part ∧
      c.streams = true ∧ d.Runs number c.prompt .streamed part ∧
      part.lines = fed ++ text :: rest ∧
      c.transcript = (({} : Transcript).feedAll (texts fed)).1 ∧
      told = (({} : Transcript).feedAll (texts fed)).2.map .event ∧
      due = rest.map (.line c.ticket) ++ [.finish c.ticket] := by
  generalize hdue : Task.line t text :: due = tasks at h
  cases h with
  | waiting | summoned | capturing | pausing => cases hdue
  | @streaming number attempt part fed rest hphase hstreams hruns hlines htranscript =>
      cases rest with
      | nil => simp at hdue
      | cons text' rest =>
          obtain ⟨⟨-, rfl⟩, rfl⟩ : (t = c.ticket ∧ text = text') ∧
              due = rest.map (.line c.ticket) ++ [.finish c.ticket] := by simpa using hdue
          exact ⟨number, attempt, part, fed, rest, hphase, hstreams, hruns, hlines, htranscript,
            rfl, rfl⟩

theorem Stage.of_finish {told : List Message} {due : List Task}
    (h : Stage d c told (.finish t :: due)) :
    ∃ number attempt part, c.phase = .executing number attempt part ∧ due = [] ∧
      (c.streams = true ∧ d.Runs number c.prompt .streamed part ∧
          c.transcript = (({} : Transcript).feedAll (texts part.lines)).1 ∧
          told = (({} : Transcript).feedAll (texts part.lines)).2.map .event ∨
        c.streams = false ∧ d.Runs number c.prompt .captured part ∧ told = []) := by
  generalize hdue : Task.finish t :: due = tasks at h
  cases h with
  | waiting | summoned | pausing => cases hdue
  | @capturing number attempt part hphase hstreams hruns =>
      cases hdue
      exact ⟨number, attempt, part, hphase, rfl, .inr ⟨hstreams, hruns, rfl⟩⟩
  | @streaming number attempt part fed rest hphase hstreams hruns hlines htranscript =>
      cases rest with
      | cons text' rest => simp at hdue
      | nil =>
          cases hdue
          rw [List.append_nil] at hlines
          subst hlines
          exact ⟨number, attempt, part, hphase, rfl, .inl ⟨hstreams, hruns, htranscript, rfl⟩⟩

theorem Stage.of_retry {told : List Message} {due : List Task}
    (h : Stage d c told (.retry t :: due)) :
    ∃ attempt, c.phase = .pausing attempt ∧ c.streams = false ∧ told = [] ∧ due = [] := by
  generalize hdue : Task.retry t :: due = tasks at h
  cases h with
  | waiting | summoned | capturing => cases hdue
  | streaming =>
      rename_i rest _ _ _ _ _
      cases rest <;> simp at hdue
  | @pausing attempt hphase hstreams =>
      cases hdue
      exact ⟨attempt, hphase, hstreams, rfl, rfl⟩

theorem Stage.begun {number : Nat} {part : Part} (hempty : c.streams = true → c.transcript = {})
    (attempt : Nat)
    (hruns : d.Runs number c.prompt (if c.streams = true then .streamed else .captured) part) :
    Stage d { c with phase := .executing number attempt part } []
      ((if c.streams = true then part.lines else []).map (.line c.ticket) ++
        [.finish c.ticket]) := by
  by_cases hstreams : c.streams = true
  · rw [if_pos hstreams] at hruns ⊢
    exact @Stage.streaming d { c with phase := .executing number attempt part } number attempt part
      [] part.lines rfl hstreams hruns rfl (hempty hstreams)
  · rw [if_neg hstreams] at hruns ⊢
    exact @Stage.capturing d { c with phase := .executing number attempt part } number attempt part
      rfl (by simpa using hstreams) hruns

theorem Status.of_stage {told : List Message} {due : List Task} (hc : c ∈ d.calls)
    (hticket : c.ticket = t) (hstarted : j.started[t]? = some ⟨c.key, c.prompt, c.streams⟩)
    (htold : j.told d t = told) (htasks : d.tasks t = due) (hstage : Stage d c told due) :
    Status j d t := by
  refine .running hc hticket hstarted ?_
  rw [htold, htasks]
  exact hstage

end AgentGateway.Client
