import AgentGateway.Proofs.Bus.Claims
import AgentGateway.Proofs.Client.Endings
import AgentGateway.Proofs.Client.Slots

/-!
# Every request is answered by a call of its own

The handler that has prompts answered makes one call for each request and remembers the request by
the ticket of the call. As long as a request is being handled its call has told nothing yet, and
what the call tells in the end is what the request earns (`answering_faithful`). Others may make
calls at the same desk; of one of them it is also known what it has told so far.
-/

namespace AgentGateway.Client

open Admission (Ticket)

def saidBy (t : Ticket) (messages : List (Ticket × Duration × Message)) : List Message :=
  (messages.filter (·.1 == t)).map (·.2.2)

theorem saidBy_append (t : Ticket) (front back : List (Ticket × Duration × Message)) :
    saidBy t (front ++ back) = saidBy t front ++ saidBy t back := by
  simp [saidBy]

theorem saidBy_filter {t : Ticket} {messages : List (Ticket × Duration × Message)}
    {p : Ticket × Duration × Message → Bool} {b : Bool}
    (hp : ∀ m ∈ messages, m.1 = t → p m = b) :
    saidBy t (messages.filter p) = if b = true then saidBy t messages else [] := by
  have hfilter : (messages.filter p).filter (·.1 == t) =
      messages.filter fun m => m.1 == t && b := by
    rw [List.filter_filter]
    refine List.filter_congr fun m hm => ?_
    by_cases ht : m.1 = t
    · rw [hp m hm ht]
    · rw [beq_false_of_ne ht, Bool.false_and, Bool.false_and]
  rw [saidBy, hfilter]
  cases b with
  | true => simp [saidBy]
  | false => simp

theorem mem_saidBy {t : Ticket} {messages : List (Ticket × Duration × Message)} {m : Message} :
    m ∈ saidBy t messages ↔ ∃ time, (t, time, m) ∈ messages := by
  simp only [saidBy, List.mem_map, List.mem_filter, beq_iff_eq]
  constructor
  · rintro ⟨⟨t, time, m⟩, ⟨hm, rfl⟩, rfl⟩
    exact ⟨time, hm⟩
  · rintro ⟨time, hm⟩
    exact ⟨_, ⟨hm, rfl⟩, rfl⟩

/-- What a call has told of which the messages have been taken out. -/
def Journal.heard (j : Journal) (t : Ticket) : List Message := saidBy t j.past

theorem Journal.told_eq (j : Journal) (d : Desk) (t : Ticket) :
    j.told d t = j.heard t ++ saidBy t d.messages := saidBy_append t j.past d.messages

theorem Journaled.told_of_capturing {j : Journal} {d : Desk} (h : Journaled (fun _ => True) j d)
    (hgone : j.gone = []) {t : Ticket} {o : Opening} (hstarted : j.started[t]? = some o)
    (hcaptures : o.streams = false) :
    j.told d t = [] ∧ (∃ c ∈ d.calls, c.ticket = t) ∨
      ∃ how, j.told d t = [.ended how] ∧ (how = .crashed ∨
        (∃ cause, how = .failed cause ∧ Unadmitted o.key cause) ∨
        ∃ number part, d.Runs number o.prompt .captured part ∧ how = settlement part.captured) := by
  cases h.status t trivial with
  | fresh hfresh =>
      rw [hstarted] at hfresh
      cases hfresh
  | @running c hc hticket hstarted' hstage =>
      obtain rfl := Option.some.inj (hstarted.symm.trans hstarted')
      refine .inl ⟨?_, c, hc, hticket⟩
      generalize j.told d t = told, d.tasks t = due at hstage
      cases hstage with
      | waiting | summoned | capturing | pausing => rfl
      | streaming _ hstreams => exact absurd (hstreams.symm.trans hcaptures) (by decide)
  | ended hstarted' _ _ hstory =>
      obtain rfl := Option.some.inj (hstarted.symm.trans hstarted')
      have htold := hstory (by simp [hgone])
      generalize j.told d t = told at htold
      cases htold with
      | @refused cause hcause => exact .inr ⟨_, rfl, .inr (.inl ⟨cause, rfl, hcause⟩)⟩
      | crashed => exact .inr ⟨_, rfl, .inl rfl⟩
      | captured _ hruns => exact .inr ⟨_, rfl, .inr (.inr ⟨_, _, hruns, rfl⟩)⟩
      | streamed hstreams => exact absurd (hstreams.symm.trans hcaptures) (by decide)

end AgentGateway.Client

namespace AgentGateway.Bus

open Admission (Ticket)
open Client (Journal Journaled Opening Settings mem_saidBy saidBy saidBy_append saidBy_filter)

/-- The results that a prompt may have that is answered: it is not admitted, or an execution of it
ends. -/
inductive Errand.Earned (s : Settings) (agent : Execution.Agent) (e : Errand) :
    Except Failure Response → Prop
  | refused {cause : Failure} (hcause : Client.Unadmitted e.key cause) :
      e.Earned s agent (.error cause)
  | captured (number : Nat) {limit : Duration} (hlimit : s.limit? e.prompt = some limit) :
      e.Earned s agent ((agent number (s.execution e.prompt limit)).captured.map Client.answer)

/-- Nothing about a prompt is out of range. -/
def Errand.Fits (s : Settings) (sizes : String → Nat) (e : Errand) : Prop :=
  (s.limit? e.prompt).isSome = true ∧ sizes e.key ≤ Admission.Limiter.maxCapacity

def Errand.opening (e : Errand) : Opening := ⟨e.key, e.prompt, false⟩

/-- A call that is not made for a request, and what it has told so far. -/
structure Outsider where
  ticket : Ticket
  opening : Opening
  told : List Client.Message

/-- The calls serve the requests that are being handled: each request has one call that has not
ended, and a call for a request is one for its prompt. -/
structure Calls.ServesRequests (s : Settings) (agent : Execution.Agent) (sizes : String → Nat)
    (out : Option Outsider) (jobs : List (Job Errand)) (j : Journal) (c : Calls) : Prop where
  journal : Journaled (fun _ => True) j c.desk
  slotsAccounted : c.desk.SlotsAccounted sizes
  settings : j.settings = s
  agent : j.agent = agent
  nobodyGone : j.gone = []
  crashFree : c.desk.CrashFree fun t => (c.numbers.lookup t).isSome = true
  tickets : ∀ {t n}, c.numbers.lookup t = some n → ∃ o, j.started[t]? = some o ∧
    o.streams = false ∧ (j.heard t = [] → ∃ job ∈ jobs, job.number = n ∧ job.body.opening = o)
  jobs : ∀ job ∈ jobs, ∃ t, c.numbers.lookup t = some job.number ∧ j.heard t = []
  single : ∀ {t u n}, c.numbers.lookup t = some n → c.numbers.lookup u = some n →
    j.heard t = [] → j.heard u = [] → t = u
  outsider : ∀ x ∈ out, c.numbers.lookup x.ticket = none ∧
    j.started[x.ticket]? = some x.opening ∧ j.heard x.ticket = x.told

namespace Calls.ServesRequests

variable {s : Settings} {agent : Execution.Agent} {sizes : String → Nat} {out : Option Outsider}
  {jobs : List (Job Errand)} {j j' : Journal} {c : Calls}

/-- Calls at a desk that nobody has used serve nobody. -/
theorem opening (s : Settings) (defaultCapacity : Nat) (named : List (String × Nat))
    (agent : Execution.Agent) :
    ServesRequests s agent (Admission.Limiter.sizeFor { defaultCapacity, named } · none) none []
      { settings := s, agent }
      { desk := { settings := s, limiter := { defaultCapacity, named }, agent } } where
  journal := Client.journaled_opening s { defaultCapacity, named } agent
  slotsAccounted := Client.slotsAccounted_opening s defaultCapacity named agent
  settings := rfl
  agent := rfl
  nobodyGone := rfl
  crashFree := {
    issued := fun t ht => by simp at ht
    calls := fun c hc => by cases hc
    told := fun m hm => by cases hm
    calm := fun m hm => by cases hm }
  tickets hn := by cases hn
  jobs job hjob := by cases hjob
  single ht := by cases ht
  outsider x hx := by cases hx

theorem settings_eq (h : c.ServesRequests s agent sizes out jobs j) : c.desk.settings = s :=
  h.journal.settings.trans h.settings

theorem agent_eq (h : c.ServesRequests s agent sizes out jobs j) : c.desk.agent = agent :=
  h.journal.agent.trans h.agent

theorem issued_of_started (h : c.ServesRequests s agent sizes out jobs j) {t : Ticket} {o : Opening}
    (hstarted : j.started[t]? = some o) : t < c.desk.issued := by
  rw [← h.journal.started]
  exact (List.getElem?_eq_some_iff.mp hstarted).1

/-- The desk goes on, and more calls are made for somebody else. -/
theorem carry (h : c.ServesRequests s agent sizes out jobs j) {desk : Client.Desk}
    (hn : Journaled (fun _ => True) j' desk) (hslots : desk.SlotsAccounted sizes)
    (hsafe : desk.CrashFree fun t => (c.numbers.lookup t).isSome = true)
    (hsettings : j'.settings = j.settings) (hagent : j'.agent = j.agent) (hgone : j'.gone = j.gone)
    (hpast : j'.past = j.past)
    (hstarted : ∀ {t : Ticket} {o : Opening}, j.started[t]? = some o → j'.started[t]? = some o) :
    ServesRequests s agent sizes out jobs j' { c with desk } := by
  have hheard (t : Ticket) : j'.heard t = j.heard t := congrArg (saidBy t) hpast
  refine ⟨hn, hslots, hsettings.trans h.settings, hagent.trans h.agent, hgone.trans h.nobodyGone,
    hsafe, fun hn => ?_, fun job hjob => ?_, fun ht hu => ?_, fun x hx => ?_⟩
  · obtain ⟨o, ho, hstreams, hjob⟩ := h.tickets hn
    rw [hheard]
    exact ⟨o, hstarted ho, hstreams, hjob⟩
  · obtain ⟨t, ht, hsilent⟩ := h.jobs job hjob
    exact ⟨t, ht, (hheard t).trans hsilent⟩
  · rw [hheard, hheard]
    exact h.single ht hu
  · obtain ⟨hnone, ho, htold⟩ := h.outsider x hx
    exact ⟨hnone, hstarted ho, (hheard x.ticket).trans htold⟩

theorem shut (h : c.ServesRequests s agent sizes out jobs j) :
    ServesRequests s agent sizes out jobs j { c with desk := c.desk.shut } :=
  h.carry h.journal.shut h.slotsAccounted.shut h.crashFree.shut rfl rfl rfl rfl id

theorem clock (h : c.ServesRequests s agent sizes out jobs j) (now : Duration) :
    ServesRequests s agent sizes out jobs j { c with desk := { c.desk with now } } :=
  h.carry (h.journal.same rfl rfl rfl rfl rfl rfl rfl) (h.slotsAccounted.same rfl rfl)
    (h.crashFree.same rfl rfl rfl rfl) rfl rfl rfl rfl id

theorem runTo (h : c.ServesRequests s agent sizes out jobs j) (moment : Duration) :
    ServesRequests s agent sizes out jobs j { c with desk := c.desk.runTo moment } :=
  h.carry (h.journal.runTo moment) (h.slotsAccounted.runTo h.journal moment)
    (h.crashFree.runTo moment)
    rfl rfl rfl rfl id

theorem silent_next (h : c.ServesRequests s agent sizes out jobs j) :
    (∀ x ∈ c.desk.calls, x.ticket ≠ c.desk.issued) ∧ j.heard c.desk.issued = [] ∧
      c.numbers.lookup c.desk.issued = none ∧ ∀ x ∈ out, x.ticket ≠ c.desk.issued := by
  have hnone : c.numbers.lookup c.desk.issued = none := by
    by_contra hsome
    exact absurd (h.crashFree.issued _ (Option.isSome_iff_ne_none.mpr hsome)) (Nat.lt_irrefl _)
  have hout : ∀ x ∈ out, x.ticket ≠ c.desk.issued := fun x hx =>
    Nat.ne_of_lt (h.issued_of_started (h.outsider x hx).2.1)
  have hfresh : j.started[c.desk.issued]? = none :=
    List.getElem?_eq_none (Nat.le_of_eq h.journal.started)
  cases h.journal.status c.desk.issued trivial with
  | fresh _ hcalls htold =>
      rw [Journal.told_eq] at htold
      exact ⟨hcalls, (List.append_eq_nil_iff.mp htold).1, hnone, hout⟩
  | running _ _ hstarted | ended hstarted =>
      rw [hfresh] at hstarted
      cases hstarted

theorem start (h : c.ServesRequests s agent sizes out jobs j) (key : String) (prompt : Prompt)
    (streams : Bool) :
    ServesRequests s agent sizes out jobs
      { j with started := j.started ++ [⟨key, prompt, streams⟩] }
      { c with desk := (c.desk.start key prompt streams).1 } := by
  refine h.carry (h.journal.start key prompt streams)
    (h.slotsAccounted.start h.journal.distinct h.silent_next.1 key prompt streams)
    (h.crashFree.start (fun _ ht => .inl ht) (fun ht => ?_) streams) rfl rfl rfl rfl fun ho => ?_
  · exact absurd (h.crashFree.issued _ ht) (Nat.lt_irrefl _)
  · exact (List.getElem?_append_left (List.getElem?_eq_some_iff.mp ho).1).trans ho

theorem started_start (h : c.ServesRequests s agent sizes out jobs j) (o : Opening) :
    (j.started ++ [o])[c.desk.issued]? = some o := by
  rw [← h.journal.started]
  exact List.getElem?_concat_length

/-- A call that has told nothing yet is the one for a new request. -/
theorem adopt (h : c.ServesRequests s agent sizes out jobs j) {t : Ticket} {job : Job Errand}
    (hnone : c.numbers.lookup t = none) (hstarted : j.started[t]? = some job.body.opening)
    (hsilent : j.heard t = []) (hfresh : ∀ other ∈ jobs, other.number ≠ job.number)
    (hout : ∀ x ∈ out, x.ticket ≠ t)
    (hsafe : c.desk.CrashFree fun u => (((t, job.number) :: c.numbers).lookup u).isSome = true) :
    ServesRequests s agent sizes out (jobs ++ [job]) j
      { c with numbers := (t, job.number) :: c.numbers } := by
  have hlookup (u : Ticket) : ((t, job.number) :: c.numbers).lookup u =
      if u = t then some job.number else c.numbers.lookup u := by
    by_cases hu : u = t
    · subst hu
      simp
    · have hne : (u == t) = false := beq_false_of_ne hu
      simp [List.lookup_cons, hne, hu]
  -- No call of an earlier request that has told nothing has the number of the new one.
  have hother {u : Ticket} (hu : c.numbers.lookup u = some job.number) : j.heard u ≠ [] := by
    intro hnothing
    obtain ⟨o, -, -, hjob⟩ := h.tickets hu
    obtain ⟨other, hother, hnumber, -⟩ := hjob hnothing
    exact hfresh other hother hnumber
  refine ⟨h.journal, h.slotsAccounted, h.settings, h.agent, h.nobodyGone, hsafe, fun {u n} hu => ?_,
    fun other hother => ?_, fun {u v n} hu hv husilent hvsilent => ?_, fun x hx => ?_⟩
  · have hu : ((t, job.number) :: c.numbers).lookup u = some n := hu
    rw [hlookup] at hu
    split_ifs at hu with heq
    · obtain rfl := Option.some.inj hu
      exact ⟨_, heq ▸ hstarted, rfl, fun _ =>
        ⟨job, List.mem_append_right _ (List.mem_singleton_self _), rfl, rfl⟩⟩
    · obtain ⟨o, ho, hstreams, hjob⟩ := h.tickets hu
      refine ⟨o, ho, hstreams, fun hnothing => ?_⟩
      obtain ⟨other, hmem, hother⟩ := hjob hnothing
      exact ⟨other, List.mem_append_left _ hmem, hother⟩
  · show ∃ u, ((t, job.number) :: c.numbers).lookup u = _ ∧ _
    rcases List.mem_append.mp hother with hmem | hmem
    · obtain ⟨u, hu, husilent⟩ := h.jobs other hmem
      refine ⟨u, ?_, husilent⟩
      rw [hlookup, if_neg, hu]
      rintro rfl
      rw [hnone] at hu
      cases hu
    · obtain rfl := List.mem_singleton.mp hmem
      exact ⟨t, by rw [hlookup, if_pos rfl], hsilent⟩
  · have hu : ((t, job.number) :: c.numbers).lookup u = some n := hu
    have hv : ((t, job.number) :: c.numbers).lookup v = some n := hv
    rw [hlookup] at hu hv
    split_ifs at hu hv with hut hvt hvt
    · exact hut.trans hvt.symm
    · obtain rfl := Option.some.inj hu
      exact absurd hvsilent (hother hv)
    · obtain rfl := Option.some.inj hv
      exact absurd husilent (hother hu)
    · exact h.single hu hv husilent hvsilent
  · obtain ⟨hx, hrest⟩ := h.outsider x hx
    refine ⟨?_, hrest⟩
    show ((t, job.number) :: c.numbers).lookup x.ticket = none
    rw [hlookup, if_neg (hout x ‹_›), hx]

theorem answer (h : c.ServesRequests s agent sizes out jobs j) (now : Duration) {job : Job Errand}
    (hfits : job.body.Fits s sizes) (hfresh : ∀ other ∈ jobs, other.number ≠ job.number) :
    ServesRequests s agent sizes out
      (jobs ++ [job]) { j with started := j.started ++ [job.body.opening] }
      (answering.start now job c) := by
  have hclock := h.clock now
  obtain ⟨-, hsilent, hnone, hout⟩ := hclock.silent_next
  have hstart := hclock.start job.body.key job.body.prompt false
  have hticket := Client.Desk.start_ticket { c.desk with now } job.body.key job.body.prompt false
  have hinRange : ({ c.desk with now } : Client.Desk).CallInRange job.body.key job.body.prompt := by
    unfold Client.Desk.CallInRange
    rw [hclock.settings_eq, hclock.slotsAccounted.sizes]
    exact hfits
  have hstarted := hclock.started_start job.body.opening
  have hadopted := hstart.adopt hnone hstarted hsilent hfresh hout ?_
  · unfold answering
    dsimp only
    rw [hticket]
    exact hadopted
  · refine hclock.crashFree.start (fun u hu => ?_) (fun _ => hinRange) false
    rw [List.lookup_cons] at hu
    split at hu
    next heq => exact .inr (by simpa using heq)
    next => exact .inl hu

end Calls.ServesRequests

/-! ## What calls find out -/

/-- What the end of a call says about its request. -/
def findingOf : Client.Ending → Finding Response
  | .answered r => some (.ok r)
  | .failed f => some (.error f)
  | .crashed => none

theorem findingOf_settlement (outcome : Except Failure Execution.Result) :
    findingOf (Client.settlement outcome) = some (outcome.map Client.answer) := by
  cases outcome <;> rfl

theorem Calls.findings_eq (c : Calls) : ∃ p : Ticket × Duration × Client.Message → Bool,
    (∀ t time how, p (t, time, .ended how) = (c.numbers.lookup t).isSome) ∧
    (∀ t time e, p (t, time, .event e) = false) ∧
    c.findings.1 = { c with desk := { c.desk with
      messages := c.desk.messages.filter fun m => !p m } } ∧
    ∀ f, f ∈ c.findings.2 ↔ ∃ t time how n, (t, time, .ended how) ∈ c.desk.messages ∧
      c.numbers.lookup t = some n ∧ f = (n, findingOf how) := by
  rw [findings, List.partition_eq_filter_filter]
  refine ⟨_, fun _ _ _ => ?_, fun _ _ _ => ?_, rfl, fun f => ?_⟩
  · rfl
  · rfl
  · simp only [List.mem_filterMap, List.mem_filter]
    constructor
    · rintro ⟨⟨t, time, e | how⟩, ⟨hm, -⟩, hf⟩
      · cases hf
      · cases hn : c.numbers.lookup t with
        | none =>
            rw [hn] at hf
            cases how <;> cases hf
        | some n =>
            rw [hn] at hf
            refine ⟨t, time, how, n, hm, hn, ?_⟩
            cases how <;> exact (Option.some.inj hf).symm
    · rintro ⟨t, time, how, n, hm, hn, rfl⟩
      refine ⟨(t, time, .ended how), ⟨hm, by simp [hn]⟩, ?_⟩
      cases how <;> simp [hn, findingOf]

/-- There is an account of the calls, none was dropped, and those for requests do not stream. -/
structure Calls.Recorded (j : Journal) (c : Calls) : Prop where
  journal : Journaled (fun _ => True) j c.desk
  nobodyGone : j.gone = []
  captures : ∀ {t n}, c.numbers.lookup t = some n →
    ∃ o, j.started[t]? = some o ∧ o.streams = false

namespace Calls.Recorded

variable {j j' : Journal} {c : Calls}

/-- The desk goes on, and more calls are made for somebody else. -/
theorem carry (h : c.Recorded j) {desk : Client.Desk} (hn : Journaled (fun _ => True) j' desk)
    (hgone : j'.gone = j.gone)
    (hstarted : ∀ {t : Ticket} {o : Opening}, j.started[t]? = some o → j'.started[t]? = some o) :
    Recorded j' { c with desk } where
  journal := hn
  nobodyGone := hgone.trans h.nobodyGone
  captures hn := by
    obtain ⟨o, ho, hstreams⟩ := h.captures hn
    exact ⟨o, hstarted ho, hstreams⟩

/-- A call for a request tells nothing but how it ended. -/
theorem eq_ended (h : c.Recorded j) {t : Ticket} {n : Nat} (hn : c.numbers.lookup t = some n)
    {m : Client.Message} (hm : m ∈ saidBy t c.desk.messages) : ∃ how, m = .ended how := by
  obtain ⟨o, ho, hstreams⟩ := h.captures hn
  have hsaid : m ∈ j.told c.desk t := by
    rw [Journal.told_eq]
    exact List.mem_append_right _ hm
  obtain ⟨hnothing, -⟩ | ⟨how, htold, -⟩ := h.journal.told_of_capturing h.nobodyGone ho hstreams
  · rw [hnothing] at hsaid
    cases hsaid
  · exact ⟨how, by simpa [htold] using hsaid⟩

variable {p : Ticket × Duration × Client.Message → Bool}

/-- Of a call for a request all messages are taken out, and of another one none. -/
theorem taken_iff (h : c.Recorded j)
    (hended : ∀ t time how, p (t, time, .ended how) = (c.numbers.lookup t).isSome)
    (hevent : ∀ t time e, p (t, time, .event e) = false) (t : Ticket) :
    ∀ m ∈ c.desk.messages, m.1 = t → p m = (c.numbers.lookup t).isSome := by
  rintro ⟨t, time, e | how⟩ hm rfl
  · rw [hevent]
    cases hn : c.numbers.lookup t with
    | none => rfl
    | some n =>
        obtain ⟨how, hsaid⟩ := h.eq_ended hn (mem_saidBy.mpr ⟨time, hm⟩)
        cases hsaid
  · exact hended t time how

theorem find (h : c.Recorded j)
    (hall : ∀ t, ∀ m ∈ c.desk.messages, m.1 = t → p m = (c.numbers.lookup t).isSome) :
    Recorded { j with past := j.past ++ c.desk.messages.filter p }
      { c with desk := { c.desk with messages := c.desk.messages.filter fun m => !p m } } := by
  refine h.carry (h.journal.rearrange fun t => ?_) rfl id
  have hnot : ∀ m ∈ c.desk.messages, m.1 = t → (!p m) = !(c.numbers.lookup t).isSome :=
    fun m hm ht => by rw [hall t m hm ht]
  rw [Journal.told_eq, Journal.told_eq, saidBy_filter hnot, Journal.heard, saidBy_append,
    saidBy_filter (hall t), Journal.heard, List.append_assoc]
  cases (c.numbers.lookup t).isSome <;> simp

end Calls.Recorded

namespace Calls.ServesRequests

variable {s : Settings} {agent : Execution.Agent} {sizes : String → Nat} {out : Option Outsider}
  {jobs : List (Job Errand)} {j : Journal} {c : Calls}

theorem told_of_number (h : c.ServesRequests s agent sizes out jobs j) {t : Ticket} {n : Nat}
    (hn : c.numbers.lookup t = some n) {m : Client.Message}
    (hm : m ∈ saidBy t c.desk.messages) :
    j.heard t = [] ∧ ∃ job ∈ jobs, job.number = n ∧ ∃ how result, m = .ended how ∧
      findingOf how = some result ∧ job.body.Earned s agent result := by
  obtain ⟨o, ho, hstreams, hjob⟩ := h.tickets hn
  have hsaid : m ∈ j.told c.desk t := by
    rw [Journal.told_eq]
    exact List.mem_append_right _ hm
  obtain ⟨hnothing, -⟩ | ⟨how, htold, hwhy⟩ :=
    h.journal.told_of_capturing h.nobodyGone ho hstreams
  · rw [hnothing] at hsaid
    cases hsaid
  obtain rfl : m = .ended how := by simpa [htold] using hsaid
  have hheard : j.heard t = [] := by
    rw [Journal.told_eq] at htold
    have hlength := congrArg List.length htold
    have hpos := List.length_pos_of_mem hm
    simp only [List.length_append, List.length_singleton] at hlength
    exact List.eq_nil_of_length_eq_zero (by omega)
  obtain ⟨job, hmem, hnumber, rfl⟩ := hjob hheard
  refine ⟨hheard, job, hmem, hnumber, how, ?_⟩
  obtain rfl | ⟨cause, rfl, hcause⟩ | ⟨number, part, ⟨limit, hlimit, rfl, -⟩, rfl⟩ := hwhy
  · obtain ⟨time, hmessage⟩ := mem_saidBy.mp hm
    exact absurd rfl (h.crashFree.calm _ hmessage (Option.isSome_of_eq_some hn))
  · exact ⟨_, rfl, rfl, .refused hcause⟩
  · rw [h.settings_eq] at hlimit ⊢
    rw [h.agent_eq]
    exact ⟨_, rfl, findingOf_settlement _, .captured number hlimit⟩

theorem recorded (h : c.ServesRequests s agent sizes out jobs j) : c.Recorded j where
  journal := h.journal
  nobodyGone := h.nobodyGone
  captures hn := by
    obtain ⟨o, ho, hstreams, -⟩ := h.tickets hn
    exact ⟨o, ho, hstreams⟩

theorem found (h : c.ServesRequests s agent sizes out jobs j) {f : Nat × Finding Response}
    (hf : f ∈ c.findings.2) : ∃ job ∈ jobs, job.number = f.1 ∧
      ∃ result, f.2 = some result ∧ job.body.Earned s agent result := by
  obtain ⟨p, -, -, -, hfindings⟩ := c.findings_eq
  obtain ⟨t, time, how, n, hm, hn, rfl⟩ := (hfindings f).mp hf
  obtain ⟨-, job, hjob, hnumber, how', result, heq, hresult, hearned⟩ :=
    h.told_of_number hn (mem_saidBy.mpr ⟨time, hm⟩)
  obtain rfl := Client.Message.ended.inj heq
  exact ⟨job, hjob, hnumber, result, hresult, hearned⟩

/-- What has been found out concerns requests that are being handled no more. -/
theorem find (h : c.ServesRequests s agent sizes out jobs j) :
    ∃ j', ServesRequests s agent sizes out
      (jobs.filter fun job => !c.findings.2.any (·.1 == job.number)) j' c.findings.1 := by
  obtain ⟨p, hended, hevent, heq, hfindings⟩ := c.findings_eq
  have hall := h.recorded.taken_iff hended hevent
  let past := j.past ++ c.desk.messages.filter p
  have hheard (t : Ticket) : Journal.heard { j with past } t =
      j.heard t ++ if (c.numbers.lookup t).isSome = true then saidBy t c.desk.messages else [] := by
    rw [Journal.heard, saidBy_append, saidBy_filter (hall t)]
    rfl
  have hsilent {t : Ticket} (ht : Journal.heard { j with past } t = []) : j.heard t = [] := by
    rw [hheard] at ht
    exact (List.append_eq_nil_iff.mp ht).1
  refine ⟨{ j with past }, ?_⟩
  rw [heq]
  refine ⟨(h.recorded.find hall).journal, h.slotsAccounted.same rfl rfl, h.settings, h.agent,
    h.nobodyGone, h.crashFree.frame rfl rfl (fun _ hc => hc) fun _ hm => List.mem_of_mem_filter hm,
    fun {t n} hn => ?_, fun job hjob => ?_, fun ht hu htsilent husilent => ?_, fun x hx => ?_⟩
  · obtain ⟨o, ho, hstreams, hjob⟩ := h.tickets hn
    refine ⟨o, ho, hstreams, fun hnothing => ?_⟩
    obtain ⟨job, hmem, hnumber, hopening⟩ := hjob (hsilent hnothing)
    refine ⟨job, List.mem_filter.mpr ⟨hmem, ?_⟩, hnumber, hopening⟩
    -- Had its end been found out, this call would have said so.
    rw [Bool.not_eq_true', List.any_eq_false]
    intro f hf hsame
    obtain ⟨u, time, how, n', hm, hn', rfl⟩ := (hfindings f).mp hf
    have hsaid : Client.Message.ended how ∈ saidBy u c.desk.messages := mem_saidBy.mpr ⟨time, hm⟩
    obtain ⟨husilent, -⟩ := h.told_of_number hn' hsaid
    obtain rfl : n' = n := (beq_iff_eq.mp hsame).trans hnumber
    obtain rfl := h.single hn hn' (hsilent hnothing) husilent
    rw [hheard, hn] at hnothing
    simp only [Option.isSome_some, if_true] at hnothing
    rw [(List.append_eq_nil_iff.mp hnothing).2] at hsaid
    cases hsaid
  · obtain ⟨hmem, hkept⟩ := List.mem_filter.mp hjob
    obtain ⟨t, hn, hnothing⟩ := h.jobs job hmem
    refine ⟨t, hn, ?_⟩
    rw [hheard, hn, hnothing, List.nil_append, Option.isSome_some, if_pos rfl]
    refine List.eq_nil_iff_forall_not_mem.mpr fun m hm => ?_
    obtain ⟨-, -, -, -, how, -, rfl, -⟩ := h.told_of_number hn hm
    obtain ⟨time, hmessage⟩ := mem_saidBy.mp hm
    have hf := (hfindings (job.number, findingOf how)).mpr ⟨t, time, how, _, hmessage, hn, rfl⟩
    rw [Bool.not_eq_true', List.any_eq_false] at hkept
    exact hkept _ hf (beq_self_eq_true _)
  · exact h.single ht hu (hsilent htsilent) (hsilent husilent)
  · obtain ⟨hnone, ho, htold⟩ := h.outsider x hx
    refine ⟨hnone, ho, ?_⟩
    rw [hheard, hnone]
    simpa using htold

/-- Somebody else takes out what the calls have told that are not made for requests. -/
theorem collect (h : c.ServesRequests s agent sizes out jobs j)
    (hsilent : ∀ m ∈ c.desk.messages, c.numbers.lookup m.1 = none) :
    ServesRequests s agent sizes
      (out.map fun x => { x with told := x.told ++ saidBy x.ticket c.desk.messages }) jobs
      { j with past := j.past ++ c.desk.messages } { c with desk := c.desk.collect.1 } := by
  have hheard (t : Ticket) : Journal.heard { j with past := j.past ++ c.desk.messages } t =
      j.heard t ++ saidBy t c.desk.messages := saidBy_append t _ _
  have hsame {t : Ticket} {n : Nat} (hn : c.numbers.lookup t = some n) :
      Journal.heard { j with past := j.past ++ c.desk.messages } t = j.heard t := by
    have hnothing : saidBy t c.desk.messages = [] := by
      refine List.eq_nil_iff_forall_not_mem.mpr fun m hm => ?_
      obtain ⟨time, hmessage⟩ := mem_saidBy.mp hm
      have hnone : c.numbers.lookup t = none := hsilent _ hmessage
      rw [hn] at hnone
      cases hnone
    rw [hheard, hnothing, List.append_nil]
  refine ⟨h.journal.collect, h.slotsAccounted.same rfl rfl, h.settings, h.agent, h.nobodyGone,
    h.crashFree.frame rfl rfl (fun _ hc => hc) nofun, fun hn => ?_, fun job hjob => ?_,
    fun ht hu => ?_, fun x hx => ?_⟩
  · rw [hsame hn]
    exact h.tickets hn
  · obtain ⟨t, hn, hnothing⟩ := h.jobs job hjob
    exact ⟨t, hn, (hsame hn).trans hnothing⟩
  · rw [hsame ht, hsame hu]
    exact h.single ht hu
  · obtain ⟨y, hy, rfl⟩ := Option.map_eq_some_iff.mp hx
    obtain ⟨hnone, ho, htold⟩ := h.outsider y hy
    refine ⟨hnone, ho, ?_⟩
    rw [hheard, htold]

/-- A call of somebody else is looked at from now on, or none is. -/
theorem regard (h : c.ServesRequests s agent sizes out jobs j) {out' : Option Outsider}
    (hout : ∀ x ∈ out', c.numbers.lookup x.ticket = none ∧
      j.started[x.ticket]? = some x.opening ∧ j.heard x.ticket = x.told) :
    c.ServesRequests s agent sizes out' jobs j := { h with outsider := hout }

/-- What a call has told of somebody else: events, and its whole story when it is over. -/
theorem told_of_outsider (h : c.ServesRequests s agent sizes out jobs j) {x : Outsider}
    (hx : x ∈ out) :
    (∃ call ∈ c.desk.calls, call.ticket = x.ticket) ∧
      (∃ events : List Event, j.told c.desk x.ticket = events.map .event) ∨
    Client.Story c.desk x.opening (j.told c.desk x.ticket) := by
  obtain ⟨-, ho, -⟩ := h.outsider x hx
  cases h.journal.status x.ticket trivial with
  | fresh hfresh =>
      rw [ho] at hfresh
      cases hfresh
  | @running call hcall hticket _ hstage =>
      refine .inl ⟨⟨call, hcall, hticket⟩, ?_⟩
      generalize j.told c.desk x.ticket = told, c.desk.tasks x.ticket = due at hstage
      cases hstage with
      | waiting | summoned | capturing | pausing => exact ⟨[], rfl⟩
      | streaming => exact ⟨_, rfl⟩
  | ended hstarted _ _ hstory =>
      obtain rfl := Option.some.inj (ho.symm.trans hstarted)
      exact .inr (hstory (by simp [h.nobodyGone]))

/-- When nothing is due and all has been taken out, all calls are over and no request is being
handled. -/
theorem over_of_idle (h : c.ServesRequests s agent sizes out jobs j) (hidle : c.desk.due? = none)
    (hmessages : c.desk.messages = []) :
    jobs = [] ∧ ∀ x ∈ out, Client.Story c.desk x.opening x.told := by
  have hnobody := h.slotsAccounted.calls_eq_nil h.journal hidle
  have htold (t : Ticket) : j.told c.desk t = j.heard t := by
    rw [Journal.told_eq, hmessages]
    exact List.append_nil _
  refine ⟨List.eq_nil_iff_forall_not_mem.mpr fun job hjob => ?_, fun x hx => ?_⟩
  · obtain ⟨t, hn, hnothing⟩ := h.jobs job hjob
    obtain ⟨o, ho, hstreams, -⟩ := h.tickets hn
    obtain ⟨-, call, hcall, -⟩ | ⟨how, hhow, -⟩ :=
      h.journal.told_of_capturing h.nobodyGone ho hstreams
    · rw [hnobody] at hcall
      cases hcall
    · rw [htold, hnothing] at hhow
      cases hhow
  · obtain ⟨⟨call, hcall, -⟩, -⟩ | hstory := h.told_of_outsider hx
    · rw [hnobody] at hcall
      cases hcall
    · rw [htold, (h.outsider x hx).2.2] at hstory
      exact hstory

end Calls.ServesRequests

/-- Once the handler has done all that it can, nothing is left that calls for requests have told. -/
theorem lookup_eq_none_of_ran {s : Settings} {agent : Execution.Agent} {sizes : String → Nat}
    {out : Option Outsider} {c : Calls}
    (h : answering.Ran (fun jobs c => ∃ j, c.ServesRequests s agent sizes out jobs j) c) :
    ∀ m ∈ c.desk.messages, c.numbers.lookup m.1 = none := by
  obtain ⟨now, jobs, c, ⟨j, hc⟩, rfl⟩ := h
  have hran := hc.runTo now
  obtain ⟨p, hended, -, heq, -⟩ := Calls.findings_eq { c with desk := c.desk.runTo now }
  show ∀ m ∈ (Calls.findings _).1.desk.messages, (Calls.findings _).1.numbers.lookup m.1 = none
  rw [heq]
  rintro ⟨t, time, m⟩ hm
  obtain ⟨hmem, hkept⟩ := List.mem_filter.mp hm
  show c.numbers.lookup t = none
  by_contra hsome
  obtain ⟨n, hn⟩ := Option.ne_none_iff_exists'.mp hsome
  obtain ⟨-, -, -, -, how, -, rfl, -⟩ := hran.told_of_number hn (mem_saidBy.mpr ⟨time, hmem⟩)
  rw [hended] at hkept
  simp [hn] at hkept

/-- The handler that has prompts answered keeps count of them, and their results are earned. -/
theorem answering_faithful (s : Settings) (agent : Execution.Agent) (sizes : String → Nat)
    (out : Option Outsider) :
    answering.Faithful (fun jobs c => ∃ j, c.ServesRequests s agent sizes out jobs j)
      (Errand.Fits s sizes) (Errand.Earned s agent) where
  start now _ _ _ hfits hfresh := by
    rintro ⟨j, h⟩
    exact ⟨_, h.answer now hfits hfresh⟩
  found now _ _ := by
    rintro ⟨j, h⟩ f hf
    exact (h.runTo now).found hf
  run now _ _ := by
    rintro ⟨j, h⟩
    exact (h.runTo now).find

end AgentGateway.Bus
