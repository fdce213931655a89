import AgentGateway.Proofs.Client.Narration

/-!
# Every call keeps to its story

What is known of all calls stays true whatever is done at the desk, one lemma for each operation.
The next thing to do for a call tells how far the call is, so of all that a call may be doing only
one thing is possible when its task comes.
-/

namespace AgentGateway.Client

open Admission (Limiter Ticket)
open Execution (Part)

variable {known : Ticket → Prop} {j : Journal} {d d' : Desk} {c : Call} {t : Ticket}

structure Desk.Next (d : Desk) (task : Task) (rest : Agenda Task) : Prop where
  ordered : rest.Ordered
  tasks : ∀ t, d.tasks t = if task.ticket == t then task :: rest.select (·.ticket == t)
    else rest.select (·.ticket == t)

theorem Desk.Next.of_next (ho : d.agenda.Ordered) {moment due : Duration} {task : Task}
    {rest : Agenda Task} (hnext : d.agenda.next? moment = some (due, task, rest)) :
    d.Next task rest :=
  ⟨ho.next hnext, fun _ => Agenda.select_next hnext⟩

namespace Journaled

theorem release (h : Journaled (fun _ => True) j d) (c : Call) :
    Journaled (fun _ => True) j (d.release c) := by
  apply summon
  exact h.same rfl rfl rfl rfl rfl rfl rfl

theorem close {o : Opening} {how : Ending} (h : Journaled (· ≠ c.ticket) j d)
    (hstarted : j.started[c.ticket]? = some o) (hidle : d.tasks c.ticket = [])
    (hstory : c.ticket ∉ j.gone → Story d o (j.told d c.ticket ++ [.ended how])) :
    Journaled (fun _ => True) j (d.close c how) := by
  apply release
  apply (h.remove.tell (.ended how)).all
  refine .ended hstarted (fun x hx => ?_) hidle fun hnot => ?_
  · simpa using (List.mem_filter.mp hx).2
  · rw [told_tell, if_pos rfl]
    exact (hstory hnot).extends (.of_eq rfl rfl rfl)

/-- An execution starts whose lines and whose end are due from now on. -/
theorem commence (h : Journaled (· ≠ c.ticket) j d) (hc : ∃ x ∈ d.calls, x.ticket = c.ticket)
    (hstarted : j.started[c.ticket]? = some ⟨c.key, c.prompt, c.streams⟩)
    (htold : j.told d c.ticket = []) (hempty : c.streams = true → c.transcript = {})
    {a : Agenda Task} (ha : a.Ordered)
    (hother : ∀ u, u ≠ c.ticket → a.select (·.ticket == u) = d.tasks u) {part : Part}
    (hown : a.select (·.ticket == c.ticket) =
      (if c.streams = true then part.lines else []).map (.line c.ticket) ++ [.finish c.ticket])
    (attempt : Nat) {request : Execution.Request}
    (hruns : Desk.Runs { d with
        records := d.records ++
          [⟨if c.streams = true then .streamed else .captured, d.now, request, none⟩] }
      d.records.length c.prompt (if c.streams = true then .streamed else .captured) part) :
    Journaled (fun _ => True) j (({ d with
      records := d.records ++
        [⟨if c.streams = true then .streamed else .captured, d.now, request, none⟩]
      agenda := a } : Desk).update
        { c with phase := .executing d.records.length attempt part }) := by
  have hrecorded := h.enlist
    (r := ⟨if c.streams = true then .streamed else .captured, d.now, request, none⟩) rfl
  have hbegun := (hrecorded.schedule ha hother).update
    (c := { c with phase := .executing d.records.length attempt part })
  refine hbegun.all (.of_stage (mem_calls_update_self hc) rfl hstarted htold hown ?_)
  exact (Stage.begun hempty attempt hruns).extends (.of_eq rfl rfl rfl)

theorem launch (h : Journaled (· ≠ c.ticket) j d) (hc : ∃ x ∈ d.calls, x.ticket = c.ticket)
    (hstarted : j.started[c.ticket]? = some ⟨c.key, c.prompt, c.streams⟩)
    (htold : j.told d c.ticket = []) (hidle : d.tasks c.ticket = [])
    (hempty : c.streams = true → c.transcript = {}) (attempt : Nat) :
    Journaled (fun _ => True) j (d.launch c attempt) := by
  unfold Desk.launch
  split
  next =>
    refine h.close hstarted hidle fun _ => ?_
    rw [htold]
    exact .crashed
  next limit hlimit =>
    dsimp only
    generalize hrequest : d.settings.execution c.prompt limit = request
    generalize hpart : d.agent d.records.length request = part
    generalize hplan : (if c.streams = true then part.plan d.now
      else ([], Part.afterWait d.now part.after)) = plan
    obtain ⟨lines, finish⟩ := plan
    obtain ⟨htexts, hsorted, hlast⟩ :
        lines.map (·.2) = (if c.streams = true then part.lines else []) ∧
          lines.Pairwise (fun e f => e.1 ≤ f.1) ∧ ∀ e ∈ lines, e.1 ≤ finish := by
      have hordered := part.plan_ordered d.now
      split_ifs at hplan ⊢ with hstreams
      · rw [hplan] at hordered
        exact hordered
      · cases hplan
        exact ⟨rfl, List.Pairwise.nil, fun e he => absurd he List.not_mem_nil⟩
    have hown (text : String) : ((Task.line c.ticket text).ticket == c.ticket) = true := by
      simp [Task.ticket]
    have hother {u : Ticket} (hu : u ≠ c.ticket) (text : String) :
        ((Task.line c.ticket text).ticket == u) = false := by
      simpa [Task.ticket] using Ne.symm hu
    obtain ⟨hordered, hselect, hby⟩ := Agenda.foldl_add hown hsorted h.ordered
      (fun e _ => Agenda.dueBy_of_select_eq_nil hidle e.1) hlast
      (Agenda.dueBy_of_select_eq_nil hidle finish)
    have hdue := Agenda.select_add_of_pos (x := .finish c.ticket) hordered
      (by simp [Task.ticket]) hby
    have hlines : lines.map (fun e => Task.line c.ticket e.2) =
        (if c.streams = true then part.lines else []).map (Task.line c.ticket) := by
      rw [← htexts, List.map_map]
      rfl
    have hidle' : d.agenda.select (fun task => task.ticket == c.ticket) = [] := hidle
    rw [hselect, hidle', List.nil_append, hlines] at hdue
    refine h.commence hc hstarted htold hempty (hordered.add finish (.finish c.ticket))
      (fun u hu => ?_) hdue attempt ?_
    · rw [Agenda.select_add_of_neg (by simpa [Task.ticket] using Ne.symm hu),
        Agenda.select_foldl_add_of_neg (hother hu)]
      rfl
    · refine ⟨limit, hlimit, ?_, _, List.getElem?_concat_length, rfl, hrequest.symm⟩
      rw [← hpart, ← hrequest]

theorem join (h : Journaled (· ≠ c.ticket) j d) (hnone : ∀ x ∈ d.calls, x.ticket ≠ c.ticket) :
    Journaled (· ≠ c.ticket) j { d with calls := d.calls ++ [c] } := by
  refine h.frame (.of_eq rfl rfl rfl) rfl rfl ?_ h.ordered (fun x hx => ?_) (fun _ _ => rfl)
    fun _ _ => rfl
  · rw [List.map_append, List.nodup_append]
    refine ⟨h.distinct, List.nodup_singleton _, fun t ht u hu => ?_⟩
    obtain ⟨x, hx, rfl⟩ := List.mem_map.mp ht
    rw [List.mem_singleton.mp hu]
    exact hnone x hx
  · simp only [List.mem_append, List.mem_singleton, or_iff_left_iff_imp]
    intro heq
    exact absurd (congrArg Call.ticket heq) hx

theorem issue (h : Journaled (fun _ => True) j d) (l : Limiter) (o : Opening) :
    Journaled (· ≠ d.issued) { j with started := j.started ++ [o] }
      { d with limiter := l, issued := d.issued + 1 } := by
  have hsame {t : Ticket} (ht : t ≠ d.issued) : (j.started ++ [o])[t]? = j.started[t]? := by
    rcases Nat.lt_or_ge t j.started.length with hlt | hge
    · exact List.getElem?_append_left hlt
    · have hlt : j.started.length < t := Nat.lt_of_le_of_ne hge fun heq => ht (heq ▸ h.started)
      rw [List.getElem?_eq_none hge, List.getElem?_eq_none]
      rw [List.length_append]
      exact hlt
  have hext : d.Extends { d with limiter := l, issued := d.issued + 1 } := .of_eq rfl rfl rfl
  refine ⟨h.settings, h.agent, ?_, h.distinct, h.ordered, fun t ht => ?_,
    fun hr hmethod hended hkept => ?_⟩
  · simp [h.started]
  · exact (h.status t trivial).frame hext (fun _ _ => .rfl) rfl rfl (hsame ht) id
  · obtain ⟨t, -, hgave⟩ := h.executions hr hmethod hended hkept
    have ht : t ≠ d.issued := by
      intro heq
      obtain ⟨o', ho', -⟩ := hgave.story
      have hlt : t < j.started.length := (List.getElem?_eq_some_iff.mp ho').1
      exact Nat.lt_irrefl _ (h.started ▸ heq ▸ hlt)
    exact ⟨t, ht, hgave.frame hext hgave.none rfl (hsame ht)⟩

theorem start (h : Journaled (fun _ => True) j d) (key : String) (prompt : Prompt)
    (streams : Bool) :
    Journaled (fun _ => True) { j with started := j.started ++ [⟨key, prompt, streams⟩] }
      (d.start key prompt streams).1 := by
  have hfresh : j.started[d.issued]? = none := List.getElem?_eq_none (Nat.le_of_eq h.started)
  obtain ⟨hnone, hsilent, hidle⟩ : (∀ c ∈ d.calls, c.ticket ≠ d.issued) ∧
      j.told d d.issued = [] ∧ d.tasks d.issued = [] := by
    cases h.status d.issued trivial with
    | fresh _ hnone htold htasks => exact ⟨hnone, htold, htasks⟩
    | running _ _ hstarted => simp [hfresh] at hstarted
    | ended hstarted => simp [hfresh] at hstarted
  have hstarted : (j.started ++ [(⟨key, prompt, streams⟩ : Opening)])[d.issued]? =
      some ⟨key, prompt, streams⟩ := by
    rw [← h.started]
    exact List.getElem?_concat_length
  have hissued := h.issue (d.limiter.request key none d.issued).1 ⟨key, prompt, streams⟩
  let c : Call := { ticket := d.issued, key, prompt, streams }
  have hjoined := join (c := c) hissued hnone
  have hmem : c ∈ d.calls ++ [c] := List.mem_append_right _ (List.mem_singleton_self c)
  unfold Desk.start
  dsimp only
  split
  next cause hrefused =>
    have htold := told_tell_of_silent hsilent (.ended (.failed cause))
    exact (hissued.tell _).all (.ended hstarted hnone hidle fun _ =>
      .of_eq htold (.refused (unadmitted_request hrefused)))
  next =>
    have htold := told_tell_of_silent hsilent (.ended .crashed)
    exact (hissued.tell _).all (.ended hstarted hnone hidle fun _ => .of_eq htold .crashed)
  next => exact hjoined.all (.of_stage hmem rfl hstarted hsilent hidle (.waiting rfl rfl))
  next => exact hjoined.launch ⟨c, hmem, rfl⟩ hstarted hsilent hidle (fun _ => rfl) 1

theorem notice (h : Journaled (· ≠ c.ticket) j d) (hc : c ∈ d.calls)
    (hstarted : j.started[c.ticket]? = some ⟨c.key, c.prompt, c.streams⟩)
    (hstage : Stage d c (j.told d c.ticket) (.notice t :: d.tasks c.ticket)) :
    Journaled (fun _ => True) j (d.notice c) := by
  obtain ⟨htold, hidle, hempty⟩ := hstage.of_notice
  have hchecked : Journaled (· ≠ c.ticket) j
      { d with limiter := (d.limiter.check c.key c.ticket).1 } := h.same rfl rfl rfl rfl rfl rfl rfl
  have hback := (hchecked.update (c := { c with phase := .waiting })).all
    (.of_stage (mem_calls_update_self ⟨c, hc, rfl⟩) rfl hstarted htold hidle (.waiting rfl hempty))
  unfold Desk.notice
  dsimp only
  split
  next => exact hchecked.launch ⟨c, hc, rfl⟩ hstarted htold hidle (fun _ => hempty) 1
  next cause hrefused =>
    have hsaid := told_tell_of_silent htold (.ended (.failed cause))
    apply summon
    refine (hchecked.remove.tell _).all (.ended hstarted (fun x hx => ?_) hidle fun _ =>
      .of_eq hsaid (.refused (unadmitted_check hrefused)))
    simpa using (List.mem_filter.mp hx).2
  next => exact hback
  next => exact hback

theorem line (h : Journaled (· ≠ c.ticket) j d) (hc : c ∈ d.calls)
    (hstarted : j.started[c.ticket]? = some ⟨c.key, c.prompt, c.streams⟩) {text : String}
    (hstage : Stage d c (j.told d c.ticket) (.line t text :: d.tasks c.ticket)) :
    Journaled (fun _ => True) j (d.line c text) := by
  obtain ⟨number, attempt, part, fed, rest, hphase, hstreams, hruns, hlines, htranscript, htold,
    htasks⟩ := hstage.of_line
  have hupdated := h.update (c := { c with transcript := (c.transcript.feed text.toList).1 })
  have hmem : { c with transcript := (c.transcript.feed text.toList).1 } ∈
      (d.update { c with transcript := (c.transcript.feed text.toList).1 }).calls :=
    mem_calls_update_self ⟨c, hc, rfl⟩
  have hconcat : ({} : Transcript).feedAll (texts (fed ++ [text])) =
      ((c.transcript.feed text.toList).1, (({} : Transcript).feedAll (texts fed)).2 ++
        (c.transcript.feed text.toList).2.toList) := by
    rw [texts, List.map_append, htranscript]
    exact feedAll_concat {} (texts fed) text.toList
  have hnext : Stage d { c with transcript := (c.transcript.feed text.toList).1 }
      ((({} : Transcript).feedAll (texts (fed ++ [text]))).2.map .event)
      (rest.map (.line c.ticket) ++ [.finish c.ticket]) :=
    @Stage.streaming d { c with transcript := (c.transcript.feed text.toList).1 } number attempt
      part (fed ++ [text]) rest hphase hstreams hruns (by simpa using hlines) (by rw [hconcat])
  rw [hconcat] at hnext
  unfold Desk.line
  dsimp only
  split
  next e he =>
    refine (hupdated.tell _).all (.of_stage hmem rfl hstarted ?_ htasks
      (hnext.extends (.of_eq rfl rfl rfl)))
    have hsaid : j.told (d.update { c with transcript := (c.transcript.feed text.toList).1 })
        c.ticket = (({} : Transcript).feedAll (texts fed)).2.map .event := htold
    rw [told_tell, if_pos rfl, hsaid, he]
    simp
  next hnone =>
    refine hupdated.all (.of_stage hmem rfl hstarted ?_ htasks
      (hnext.extends (.of_eq rfl rfl rfl)))
    rw [hnone, Option.toList_none, List.append_nil]
    exact htold

theorem ne_of_mem_close {how : Ending} {x : Call} (hx : x ∈ (d.close c how).calls) :
    x.ticket ≠ c.ticket := by
  rw [Desk.close, Desk.release, Desk.summon_calls] at hx
  obtain ⟨y, hy, rfl⟩ := List.mem_map.mp hx
  have hne : y.ticket ≠ c.ticket := by simpa using (List.mem_filter.mp hy).2
  split_ifs <;> exact hne

theorem told_close (how : Ending) :
    j.told (d.close c how) c.ticket = j.told d c.ticket ++ [.ended how] := by
  have hsaid := told_tell j { d with calls := d.calls.filter (·.ticket != c.ticket) } c.ticket
    c.ticket (.ended how)
  rw [if_pos rfl] at hsaid
  exact hsaid

/-- The end of a streamed execution completes what its call has to tell. -/
theorem finishStreamed (h : Journaled (· ≠ c.ticket) j d)
    (hstarted : j.started[c.ticket]? = some ⟨c.key, c.prompt, c.streams⟩)
    (hidle : d.tasks c.ticket = []) (hstreams : c.streams = true) {number : Nat} {part : Part}
    (hruns : d.Runs number c.prompt .streamed part)
    (htranscript : c.transcript = (({} : Transcript).feedAll (texts part.lines)).1)
    (htold : j.told d c.ticket = (({} : Transcript).feedAll (texts part.lines)).2.map .event) :
    Journaled (fun _ => True) j (d.finishStreamed c part.streamed) ∧
      ToldExecution j (d.finishStreamed c part.streamed) number part c.ticket := by
  obtain ⟨hevent, hconclusion⟩ := endStream_eq c.transcript part.streamed
  -- With its last event, if there is one, the call has told all events of the stream.
  obtain ⟨d', hext, hd', htasks, hevents, hfinish⟩ : ∃ d', d.Extends d' ∧
      Journaled (· ≠ c.ticket) j d' ∧ d'.tasks c.ticket = [] ∧
      j.told d' c.ticket = (Transcript.eventsUntil (texts part.lines)
        (closing part.streamed)).map .event ∧
      d.finishStreamed c part.streamed = d'.close c (conclusion c.transcript part.streamed) := by
    rw [Transcript.eventsUntil, ← htranscript, ← hevent, List.map_append, ← htold, ← hconclusion]
    unfold Desk.finishStreamed
    obtain ⟨event, result⟩ := endStream c.transcript part.streamed
    cases event with
    | none => exact ⟨d, .of_eq rfl rfl rfl, h, hidle, (List.append_nil _).symm, rfl⟩
    | some e =>
        refine ⟨d.tell c.ticket (.event e), .of_eq rfl rfl rfl, h.tell _, hidle, ?_, rfl⟩
        rw [told_tell, if_pos rfl]
        rfl
  have hstory : j.told d' c.ticket ++ [.ended (conclusion c.transcript part.streamed)] =
      narration part := by
    rw [hevents, narration, htranscript]
  rw [hfinish]
  constructor
  · exact hd'.close hstarted htasks fun _ => .of_eq hstory (.streamed hstreams (hruns.extends hext))
  · have hclosed : d.Extends (d'.close c (conclusion c.transcript part.streamed)) :=
      hext.trans (.of_eq rfl rfl rfl)
    exact ⟨fun x hx => ne_of_mem_close hx, _, hstarted, hstreams, hruns.extends hclosed,
      (told_close _).trans hstory⟩

/-- A captured execution is tried again, or ends its call. -/
theorem finishCaptured (h : Journaled (· ≠ c.ticket) j d) (hc : c ∈ d.calls)
    (hstarted : j.started[c.ticket]? = some ⟨c.key, c.prompt, c.streams⟩)
    (htold : j.told d c.ticket = []) (hidle : d.tasks c.ticket = []) (hstreams : c.streams = false)
    {number : Nat} {part : Part} (hruns : d.Runs number c.prompt .captured part) (attempt : Nat) :
    Journaled (fun _ => True) j (d.finishCaptured c attempt part.captured) := by
  unfold Desk.finishCaptured
  split
  next wait _ =>
    have hretry : (Task.retry c.ticket).ticket = c.ticket := rfl
    have hadded := (h.add hretry (d.now + wait).tick).update
      (c := { c with phase := .pausing attempt })
    have hdue : (d.agenda.add (d.now + wait).tick (.retry c.ticket)).select
        (·.ticket == c.ticket) = [.retry c.ticket] := by
      have hnone : d.agenda.select (·.ticket == c.ticket) = [] := hidle
      rw [Agenda.select_add_of_pos h.ordered (by simp [Task.ticket])
        (Agenda.dueBy_of_select_eq_nil hidle _), hnone, List.nil_append]
    exact hadded.all (.of_stage (mem_calls_update_self ⟨c, hc, rfl⟩) rfl hstarted htold hdue
      (.pausing rfl hstreams))
  next =>
    refine h.close hstarted hidle fun _ => ?_
    rw [htold]
    have hstory : Story d ⟨c.key, c.prompt, c.streams⟩ [.ended (settlement part.captured)] :=
      .captured hstreams hruns
    cases hcaptured : part.captured <;> rw [hcaptured] at hstory <;> exact hstory

/-- What an execution that ends is noted to be makes no difference to anything else. -/
theorem record_finishStreamed (d : Desk) (c : Call) (number : Nat) (ending : Execution.Ending)
    (outcome : Except Failure Int) :
    (d.record number ending).finishStreamed c outcome =
      (d.finishStreamed c outcome).record number ending := by
  unfold Desk.finishStreamed
  obtain ⟨event, result⟩ := endStream c.transcript outcome
  cases event <;> rfl

theorem finish (h : Journaled (· ≠ c.ticket) j d) (hc : c ∈ d.calls)
    (hstarted : j.started[c.ticket]? = some ⟨c.key, c.prompt, c.streams⟩)
    (hstage : Stage d c (j.told d c.ticket) (.finish t :: d.tasks c.ticket)) :
    Journaled (fun _ => True) j (d.finish c) := by
  obtain ⟨number, attempt, part, hphase, hidle, hcase⟩ := hstage.of_finish
  unfold Desk.finish
  rw [hphase]
  dsimp only
  rcases hcase with ⟨hstreams, hruns, htranscript, htold⟩ | ⟨hstreams, hruns, htold⟩
  · rw [if_pos hstreams, record_finishStreamed]
    obtain ⟨hfinished, hgave⟩ := h.finishStreamed hstarted hidle hstreams hruns htranscript htold
    refine hfinished.record _ _ fun r hr _ _ => ⟨c.ticket, trivial, ?_⟩
    obtain ⟨o, -, -, hruns', -⟩ := hgave.story
    exact (hruns'.of_record hr).2 ▸ hgave
  · rw [if_neg (by simp [hstreams])]
    have hrecorded := h.record number .done fun r hr hmethod _ => by
      rw [(hruns.of_record hr).1] at hmethod
      cases hmethod
    have hext := d.extends_record number .done
    exact hrecorded.finishCaptured hc hstarted htold hidle hstreams (hruns.extends hext) attempt

theorem retry (h : Journaled (· ≠ c.ticket) j d) (hc : c ∈ d.calls)
    (hstarted : j.started[c.ticket]? = some ⟨c.key, c.prompt, c.streams⟩)
    (hstage : Stage d c (j.told d c.ticket) (.retry t :: d.tasks c.ticket)) :
    Journaled (fun _ => True) j (d.retry c) := by
  obtain ⟨attempt, hphase, hstreams, htold, hidle⟩ := hstage.of_retry
  unfold Desk.retry
  rw [hphase]
  exact h.launch ⟨c, hc, rfl⟩ hstarted htold hidle (fun hs => by simp [hstreams] at hs) _

theorem call?_of_mem (h : Journaled known j d) (hc : c ∈ d.calls) : d.call? c.ticket = some c := by
  cases hfind : d.call? c.ticket with
  | none =>
      have hnot := List.find?_eq_none.mp hfind c hc
      simp at hnot
  | some x =>
      have hticket : x.ticket = c.ticket := by simpa using List.find?_some hfind
      rw [h.eq_of_ticket (List.mem_of_find?_eq_some hfind) hc hticket]

theorem attend (h : Journaled (fun _ => True) j d) {task : Task} {rest : Agenda Task}
    (hnext : d.Next task rest) (now : Duration) :
    Journaled (fun _ => True) j (Desk.perform { d with agenda := rest, now } task) := by
  -- Something is due for a call only while it is one of the calls.
  cases h.status task.ticket trivial with
  | fresh _ _ _ hidle => simp [hnext.tasks] at hidle
  | ended _ _ hidle => simp [hnext.tasks] at hidle
  | @running c hc hticket hstarted hstage =>
      have hbesides := (h.besides hc).schedule hnext.ordered fun u hu => by
        rw [hnext.tasks, if_neg (by simpa [← hticket] using Ne.symm hu)]
      have hpopped : Journaled (· ≠ c.ticket) j { d with agenda := rest, now } :=
        hbesides.same rfl rfl rfl rfl rfl rfl rfl
      rw [← hticket] at hstarted
      have hdue : Stage { d with agenda := rest, now } c (j.told d c.ticket)
          (task :: rest.select (·.ticket == c.ticket)) := by
        rw [← hticket, hnext.tasks, if_pos (by simp [hticket])] at hstage
        exact hstage.extends (.of_eq rfl rfl rfl)
      have hcall : Desk.call? { d with agenda := rest, now } task.ticket = some c := by
        rw [← hticket]
        exact hpopped.call?_of_mem hc
      unfold Desk.perform
      rw [hcall]
      cases task with
      | notice => exact hpopped.notice hc hstarted hdue
      | line => exact hpopped.line hc hstarted hdue
      | finish => exact hpopped.finish hc hstarted hdue
      | retry => exact hpopped.retry hc hstarted hdue

theorem step (h : Journaled (fun _ => True) j d) (moment : Duration) :
    Journaled (fun _ => True) j (d.step moment) := by
  unfold Desk.step
  split
  next due task agenda hnext => exact h.attend (Desk.Next.of_next h.ordered hnext) _
  next => exact h

theorem runTo (h : Journaled (fun _ => True) j d) (moment : Duration) :
    Journaled (fun _ => True) j (d.runTo moment) :=
  runUntil_keeps (fun t _ hs => hs.step t) moment Desk.manySteps h

theorem shut (h : Journaled (fun _ => True) j d) : Journaled (fun _ => True) j d.shut := by
  apply summon
  exact h.same rfl rfl rfl rfl rfl rfl rfl

/-- Nothing is known of what a call has told that is dropped. -/
theorem forget (h : Journaled known j d) (t : Ticket) :
    Journaled known { j with gone := t :: j.gone } d where
  settings := h.settings
  agent := h.agent
  started := h.started
  distinct := h.distinct
  ordered := h.ordered
  status u hu := (h.status u hu).frame (.of_eq rfl rfl rfl) (fun _ _ => .rfl) rfl rfl rfl
    fun hmem => List.mem_cons_of_mem _ hmem
  executions hr hmethod hended hkept := by
    obtain ⟨u, hu, hgave⟩ := h.executions hr hmethod hended hkept
    exact ⟨u, hu, hgave.frame (.of_eq rfl rfl rfl) hgave.none rfl rfl⟩

theorem drop (h : Journaled (fun _ => True) j d) (t : Ticket) :
    Journaled (fun _ => True) { j with gone := t :: j.gone } (d.drop t) := by
  have hforgot := h.forget t
  unfold Desk.drop
  split
  next => exact hforgot
  next c hcall =>
    have hc : c ∈ d.calls := List.mem_of_find?_eq_some hcall
    obtain rfl : c.ticket = t := by simpa using List.find?_some hcall
    obtain ⟨hstarted, hstage⟩ := h.stage hc
    have hremoved := ((hforgot.besides hc).remove).schedule
      (h.ordered.remove (·.ticket == c.ticket)) fun u hu => by
        rw [Agenda.select_remove]
        refine List.filter_eq_self.mpr fun task htask => ?_
        have hticket : task.ticket = u := by simpa using (List.mem_filter.mp htask).2
        simpa [hticket] using hu
    have hidle : (d.agenda.remove (·.ticket == c.ticket)).select (·.ticket == c.ticket) = [] := by
      rw [Agenda.select_remove]
      refine List.filter_eq_nil_iff.mpr fun task htask => ?_
      simpa using (List.mem_filter.mp htask).2
    have hgone := hremoved.all (.ended hstarted
      (fun x hx => by simpa using (List.mem_filter.mp hx).2) hidle
      fun hnot => absurd List.mem_cons_self hnot)
    dsimp only
    split
    next =>
      apply summon
      exact hgone.same rfl rfl rfl rfl rfl rfl rfl
    next =>
      apply summon
      exact hgone.same rfl rfl rfl rfl rfl rfl rfl
    next number _ _ hphase =>
      -- A streamed execution is noted to be cancelled.
      refine (hgone.record number _ fun r hr hmethod hkept => ?_).release c
      have hruns := hstage.runs_of_executing hphase
      rw [(hruns.of_record hr).1] at hmethod
      cases hstreams : c.streams <;> simp [hstreams] at hmethod hkept
    next => exact hgone.release c

/-- Messages may be taken out, in whichever order those of different calls come. -/
theorem rearrange (h : Journaled (fun _ => True) j d)
    {past messages : List (Ticket × Duration × Message)}
    (hsame : ∀ t, Journal.told { j with past } { d with messages } t = j.told d t) :
    Journaled (fun _ => True) { j with past } { d with messages } where
  settings := h.settings
  agent := h.agent
  started := h.started
  distinct := h.distinct
  ordered := h.ordered
  status t _ :=
    (h.status t trivial).frame (.of_eq rfl rfl rfl) (fun _ _ => .rfl) (hsame t) rfl rfl id
  executions hr hmethod hended hkept := by
    obtain ⟨t, ht, hgave⟩ := h.executions hr hmethod hended hkept
    exact ⟨t, ht, hgave.frame (.of_eq rfl rfl rfl) hgave.none (hsame t) rfl⟩

theorem collect (h : Journaled (fun _ => True) j d) :
    Journaled (fun _ => True) { j with past := j.past ++ d.messages } d.collect.1 :=
  h.rearrange fun t => by simp [Journal.told]

end Journaled

end AgentGateway.Client
