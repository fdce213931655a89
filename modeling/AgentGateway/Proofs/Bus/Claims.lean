import AgentGateway.Proofs.Bus.News
import AgentGateway.Proofs.Bus.Service
import Mathlib.Logic.Function.Basic

/-!
# Every caller hears of its own request, once

A caller that has submitted has one claim: its request waits for room, it awaits its outcome, or
there is a note for it. Whatever the bus and the handler do, claims are neither made nor lost
(`Desk.ClaimsMatch`); only to submit makes one, and to collect the notes fulfils those that there
are notes for. What is noted for a caller is a result that was earned by what the caller
submitted, or says that there will be no reply.
-/

namespace AgentGateway.Bus

open Correlation (Action Caller Engine Id Outcome)

variable {η β α : Type}

/-- The failures of requests that led to no reply in time. -/
def Undelivered (f : Failure) : Prop :=
  (∃ id, f = Correlation.overdue id) ∨ (∃ id, f = Correlation.shutDownBefore id) ∨
    f = Correlation.isShutDown ∨ f = stopped ∨ f = notRunning

/-- An outcome is right for a request with a body. -/
def Settles (earned : β → Except Failure α → Prop) (body : β) (o : Outcome α) : Prop :=
  earned body o ∨ ∃ f, o = .error f ∧ Undelivered f

/-- The news are right for a caller that submitted a body. -/
def News.Suits (earned : β → Except Failure α → Prop) (body : β) : News α → Prop
  | .outcome o => Settles earned body o
  | .refused cause => Undelivered cause
  | .crashed => False

def Traffic.HasAsked (t : Traffic β α) (c : Caller) (body : β) : Prop :=
  ∃ s ∈ t.submitted, s.pending.id = c.id ∧ s.pending.ticket = c.ticket ∧ s.body = body

theorem Traffic.HasAsked.of_subset {t t' : Traffic β α} {c : Caller} {body : β}
    (h : t.HasAsked c body) (hsubmitted : t.submitted ⊆ t'.submitted) : t'.HasAsked c body := by
  obtain ⟨s, hs, hcaller⟩ := h
  exact ⟨s, hsubmitted hs, hcaller⟩

namespace Desk

/-- The names of the callers that are still to hear of their requests, or that there are notes
for. -/
def claimants (d : Desk η β α) : List String :=
  d.notes.map (·.who) ++ (d.callers.filter (·.listening)).map (·.name) ++ d.blocked.map (·.name)

/-- Claims are for what was submitted last under the names of the callers. -/
structure ClaimsMatch (fit : β → Prop) (earned : β → Except Failure α → Prop) (want : String → β)
    (asking : List String) (t : Traffic β α) (d : Desk η β α) : Prop where
  service : t.InService fit earned
  gateway : t.gateway = d.gateway
  now : t.now = d.now
  callers : ∀ c ∈ d.callers, c.listening = true → t.HasAsked c (want c.name)
  blocked : ∀ c ∈ d.blocked, c.listening = true ∧ t.HasAsked c (want c.name)
  waits : ∀ c ∈ d.blocked, d.gateway.isWaiting c.id = true
  notes : ∀ n ∈ d.notes, n.what.Suits earned (want n.who)
  claims : d.claimants.Perm asking

end Desk

/-! ## Telling and unblocking -/

theorem perm_answered (e : Engine α) (callers : List Caller) :
    ((e.answered callers).map (·.1.name) ++
      ((e.unanswered callers).filter (·.listening)).map (·.name)).Perm
      ((callers.filter (·.listening)).map (·.name)) := by
  have hreverse : ((e.answered callers).map (·.1.name)).Perm
      ((callers.filterMap fun c =>
        if c.listening then (e.outcome? c.ticket).map fun o => (c, o) else none).map
          (·.1.name)) :=
    ((List.reverse_perm callers).filterMap _).map _
  refine (hreverse.append_right _).trans ?_
  induction callers with
  | nil => exact .refl _
  | cons c callers ih =>
      have ih := ih (((List.reverse_perm callers).filterMap _).map _)
      cases hlistening : c.listening with
      | false =>
          cases houtcome : e.outcome? c.ticket <;>
            simpa [Engine.unanswered, hlistening, houtcome] using ih
      | true =>
          cases houtcome : e.outcome? c.ticket with
          | none =>
              simp only [Engine.unanswered, hlistening, houtcome, List.filterMap_cons,
                Option.map_none, if_true, List.map_cons, Option.isSome_none, Bool.false_eq_true,
                if_false, List.filter_cons]
              exact List.perm_middle.trans (ih.cons c.name)
          | some o =>
              simpa [Engine.unanswered, hlistening, houtcome] using ih

theorem mem_answered {e : Engine α} {callers : List Caller} {x : Caller × Outcome α}
    (h : x ∈ e.answered callers) :
    x.1 ∈ callers ∧ x.1.listening = true ∧ e.outcome? x.1.ticket = some x.2 := by
  obtain ⟨c, hc, heq⟩ := List.mem_filterMap.mp h
  split_ifs at heq with hlistening
  obtain ⟨o, ho, rfl⟩ := Option.map_eq_some_iff.mp heq
  exact ⟨List.mem_reverse.mp hc, hlistening, ho⟩

theorem mem_unanswered {e : Engine α} {callers : List Caller} {c : Caller}
    (h : c ∈ e.unanswered callers) (hlistening : c.listening = true) :
    c ∈ callers ∧ e.outcome? c.ticket = none := by
  obtain ⟨x, hx, rfl⟩ := List.mem_map.mp h
  split_ifs at hlistening ⊢ with houtcome
  exact ⟨hx, by simpa using houtcome⟩

/-- Callers that are blocked go on waiting, or become callers that listen. -/
theorem Desk.unblock_nil (d : Desk η β α) :
    d.unblock [] = { d with
      blocked := d.blocked.filter fun c => d.gateway.isWaiting c.id
      callers := (d.blocked.filter fun c => !d.gateway.isWaiting c.id).reverse ++ d.callers } := by
  have hfold (l : List Caller) (d : Desk η β α) :
      l.foldl (fun (d : Desk η β α) c =>
          if ([] : List Id).contains c.id then d.note c.name (.refused notRunning)
          else if d.gateway.isWaiting c.id then { d with blocked := d.blocked ++ [c] }
          else { d with callers := c :: d.callers }) d =
        { d with
          blocked := d.blocked ++ l.filter fun c => d.gateway.isWaiting c.id
          callers := (l.filter fun c => !d.gateway.isWaiting c.id).reverse ++ d.callers } := by
    induction l generalizing d with
    | nil => simp
    | cons c l ih =>
        rw [List.foldl_cons, ih]
        cases hwaiting : d.gateway.isWaiting c.id <;> simp [hwaiting]
  exact (hfold d.blocked { d with blocked := [] }).trans (by simp)

/-- What has been found out makes room for no request. -/
theorem Desk.requests_report (d : Desk η β α) (findings : List (Nat × Finding α)) :
    (d.report findings).gateway.worker.requests = d.gateway.worker.requests := by
  refine List.foldlRecOn findings _
    (motive := fun w : Worker β α => w.requests = d.gateway.worker.requests) rfl fun w hw f _ => ?_
  obtain ⟨number, _ | result⟩ := f
  · exact hw
  · exact (w.requests_finish number result).trans hw

/-- A request that waits for room goes on waiting when another one is submitted. -/
theorem Gateway.isWaiting_submit {g : Gateway β α} {now : Duration} {name : String} {body : β}
    {timeout : Option Duration} {id : Id} (h : g.isWaiting id = true) :
    (g.submit now name body timeout).1.isWaiting id = true := by
  unfold submit
  split
  next => exact h
  next => exact h
  next =>
    split
    next requests hs =>
      obtain ⟨m, hm, hid⟩ := List.any_eq_true.mp h
      refine List.any_eq_true.mpr ⟨m, ?_, hid⟩
      unfold Channel.send? at hs
      split_ifs at hs
      · obtain rfl := Option.some.inj hs
        exact hm
      · obtain rfl := Option.some.inj hs
        exact List.mem_append_left _ hm
    next => exact h

/-- A submission is known by the identifier and the ticket that were given out for it. -/
theorem Traffic.InService.submit_eq {fit : β → Prop} {earned : β → Except Failure α → Prop}
    {t : Traffic β α} (h : t.InService fit earned) (name : String) (body : β)
    (timeout : Option Duration) :
    (t.submit name body timeout).gateway = (t.gateway.submit t.now name body timeout).1 ∧
      (t.submit name body timeout).now = t.now ∧ (t.submit name body timeout).jobs = t.jobs ∧
      t.submitted ⊆ (t.submit name body timeout).submitted ∧
      ∀ {id ticket}, (t.gateway.submit t.now name body timeout).2 = .registered id ticket →
        (t.submit name body timeout).HasAsked ⟨name, id, ticket, true⟩ body := by
  have hjobs : (t.gateway.submit t.now name body timeout).1.worker.jobs = t.jobs := by
    unfold Gateway.submit
    split
    next => rfl
    next => rfl
    next => split <;> rfl
  unfold Traffic.submit
  rw [if_pos h.sending]
  cases hsubmit : t.gateway.submit t.now name body timeout with
  | mk gateway submission =>
    rw [hsubmit] at hjobs
    cases submission with
    | registered id ticket =>
        refine ⟨rfl, rfl, hjobs, List.subset_append_left _ _, fun hanswer => ?_⟩
        obtain ⟨rfl, rfl⟩ := Submission.registered.inj hanswer
        exact ⟨_, List.mem_append_right _ (List.mem_singleton_self _), rfl, rfl, rfl⟩
    | refused | impossible => exact ⟨rfl, rfl, hjobs, List.Subset.refl _, nofun⟩

/-- A submission is refused only because the engine or the worker is no longer there. -/
theorem Traffic.InService.undelivered_of_refused {fit : β → Prop}
    {earned : β → Except Failure α → Prop} {t : Traffic β α} (h : t.InService fit earned)
    {name : String} {body : β} {timeout : Option Duration} {cause : Failure}
    (hrefused : (t.gateway.submit t.now name body timeout).2 = .refused cause) :
    Undelivered cause := by
  have hnext := h.find?_next name
  have hregister : ∀ cause', (t.gateway.engine.registerNew t.now name timeout).2.2 =
      .refused cause' → cause' = Correlation.isShutDown := by
    intro cause' hanswer
    unfold Engine.registerNew Engine.register at hanswer
    dsimp only at hanswer
    rw [hnext] at hanswer
    split_ifs at hanswer
    · exact (Correlation.Registration.refused.inj hanswer).symm
    · unfold Engine.insert at hanswer
      dsimp only at hanswer
      split_ifs at hanswer
  unfold Gateway.submit at hrefused
  split at hrefused
  next cause' hanswer =>
    obtain rfl := Submission.refused.inj hrefused
    exact .inr (.inr (.inl (hregister _ (congrArg (·.2.2) hanswer))))
  next => cases hrefused
  next =>
    split at hrefused
    next => cases hrefused
    next =>
      obtain rfl := Submission.refused.inj hrefused
      exact .inr (.inr (.inr (.inr rfl)))

namespace Desk.ClaimsMatch

variable {fit : β → Prop} {earned : β → Except Failure α → Prop} {want : String → β}
  {asking : List String} {t t' : Traffic β α} {d : Desk η β α}

theorem settles (h : d.ClaimsMatch fit earned want asking t) {c : Caller} {body : β}
    (hc : t.HasAsked c body) {o : Outcome α} (ho : d.gateway.engine.outcome? c.ticket = some o) :
    Settles earned body o := by
  obtain ⟨s, hs, -, hticket, rfl⟩ := hc
  rw [← h.gateway, ← hticket] at ho
  obtain ⟨a, ha, -, -, hbody, rfl⟩ | ho | ho | ho | ho := h.service.sound.known.outcomes s hs o ho
  · exact .inl (hbody ▸ h.service.earns a ha)
  · exact .inr ⟨_, ho, .inl ⟨_, rfl⟩⟩
  · exact .inr ⟨_, ho, .inr (.inr (.inr (.inl rfl)))⟩
  · exact .inr ⟨_, ho, .inr (.inr (.inr (.inr rfl)))⟩
  · exact .inr ⟨_, ho, .inr (.inl ⟨_, rfl⟩)⟩

theorem tell (h : d.ClaimsMatch fit earned want asking t) :
    d.tell.ClaimsMatch fit earned want asking t where
  service := h.service
  gateway := h.gateway
  now := h.now
  callers c hc hlistening := by
    obtain ⟨hc, -⟩ := mem_unanswered hc hlistening
    exact h.callers c hc hlistening
  blocked := h.blocked
  waits := h.waits
  notes := by
    refine List.forall_mem_append.mpr ⟨h.notes, fun n hn => ?_⟩
    obtain ⟨⟨c, o⟩, hco, rfl⟩ := List.mem_map.mp hn
    obtain ⟨hc, hlistening, ho⟩ := mem_answered hco
    exact h.settles (h.callers c hc hlistening) ho
  claims := by
    refine List.Perm.trans ?_ h.claims
    have hnames : ((d.gateway.engine.answered d.callers).map fun x =>
        (⟨d.now.millis, x.1.name, .outcome x.2⟩ : Note (News α))).map (·.who) =
          (d.gateway.engine.answered d.callers).map (·.1.name) := List.map_map
    simp only [claimants, Desk.tell, List.map_append, hnames, List.append_assoc]
    refine List.Perm.append_left _ ?_
    rw [← List.append_assoc]
    exact (perm_answered _ _).append_right _

/-- Whatever the bus has done, callers are unblocked whose requests have been sent. -/
theorem unblock (h : d.ClaimsMatch fit earned want asking t) (hservice : t'.InService fit earned)
    (hnow : t'.now = t.now) (hsubmitted : t'.submitted = t.submitted) :
    ({ d with gateway := t'.gateway }.unblock []).ClaimsMatch fit earned want asking t' := by
  have hasked {c : Caller} {body : β} (hc : t.HasAsked c body) : t'.HasAsked c body :=
    hc.of_subset (hsubmitted ▸ List.Subset.refl _)
  rw [unblock_nil]
  refine ⟨hservice, rfl, hnow.trans h.now, fun c hc hlistening => ?_, fun c hc => ?_,
    fun c hc => (List.mem_filter.mp hc).2, h.notes, ?_⟩
  · rcases List.mem_append.mp hc with hc | hc
    · exact hasked (h.blocked c (List.mem_of_mem_filter (List.mem_reverse.mp hc))).2
    · exact hasked (h.callers c hc hlistening)
  · obtain ⟨hlistening, hc⟩ := h.blocked c (List.mem_of_mem_filter hc)
    exact ⟨hlistening, hasked hc⟩
  · refine List.Perm.trans ?_ h.claims
    have hlisten : ((d.blocked.filter fun c => !t'.gateway.isWaiting c.id).reverse.filter
        (·.listening)) = (d.blocked.filter fun c => !t'.gateway.isWaiting c.id).reverse :=
      List.filter_eq_self.mpr fun c hc =>
        (h.blocked c (List.mem_of_mem_filter (List.mem_reverse.mp hc))).1
    have hsplit : ((d.blocked.filter fun c => !t'.gateway.isWaiting c.id).map (·.name) ++
        (d.blocked.filter fun c => t'.gateway.isWaiting c.id).map (·.name)).Perm
          (d.blocked.map (·.name)) := by
      rw [← List.map_append]
      have hparts :=
        List.filter_append_perm (fun c : Caller => !t'.gateway.isWaiting c.id) d.blocked
      simp only [Bool.not_not] at hparts
      exact hparts.map _
    simp only [claimants, List.filter_append, List.map_append, hlisten, List.append_assoc]
    refine List.Perm.append_left _ ?_
    have hreverse := ((d.blocked.filter fun c => !t'.gateway.isWaiting c.id).reverse_perm).map
      (·.name)
    refine (hreverse.append_right _).trans ?_
    refine (List.perm_append_comm_assoc _ _ _).trans ?_
    exact hsplit.append_left _

theorem await (h : d.ClaimsMatch fit earned want asking t) {c : Caller}
    (hlistening : c.listening = true)
    (hasked : t.HasAsked c (want c.name)) :
    ({ d with callers := c :: d.callers } : Desk η β α).ClaimsMatch fit earned want
      (c.name :: asking) t := by
  refine { h with callers := ?_, claims := ?_ }
  · exact List.forall_mem_cons.mpr ⟨fun _ => hasked, h.callers⟩
  · simp only [claimants, List.filter_cons_of_pos hlistening, List.map_cons, List.append_assoc,
      List.cons_append]
    refine List.perm_middle.trans (List.Perm.cons c.name ?_)
    simpa [claimants] using h.claims

theorem block (h : d.ClaimsMatch fit earned want asking t) {c : Caller}
    (hlistening : c.listening = true)
    (hasked : t.HasAsked c (want c.name)) (hwaits : d.gateway.isWaiting c.id = true) :
    ({ d with blocked := d.blocked ++ [c] } : Desk η β α).ClaimsMatch fit earned want
      (c.name :: asking) t := by
  refine { h with blocked := ?_, waits := ?_, claims := ?_ }
  · exact List.forall_mem_append.mpr ⟨h.blocked, List.forall_mem_singleton.mpr ⟨hlistening, hasked⟩⟩
  · exact List.forall_mem_append.mpr ⟨h.waits, List.forall_mem_singleton.mpr hwaits⟩
  · simp only [claimants, List.map_append]
    rw [← List.append_assoc]
    exact (List.perm_append_singleton _ _).trans (h.claims.cons c.name)

theorem note (h : d.ClaimsMatch fit earned want asking t) {who : String} {what : News α}
    (hwhat : what.Suits earned (want who)) :
    (d.note who what).ClaimsMatch fit earned want (who :: asking) t := by
  refine { h with notes := ?_, claims := ?_ }
  · exact List.forall_mem_append.mpr ⟨h.notes, List.forall_mem_singleton.mpr hwhat⟩
  · simp only [claimants, Desk.note, List.map_append, List.append_assoc, List.map_cons,
      List.map_nil, List.cons_append, List.nil_append]
    refine List.perm_middle.trans (List.Perm.cons who ?_)
    simpa [claimants] using h.claims

/-- What is reported to the worker leaves the callers attended to. -/
theorem report (h : d.ClaimsMatch fit earned want asking t) {findings : List (Nat × Finding α)}
    (hfindings : ∀ f ∈ findings, ∃ result, f.2 = some result ∧
      ∀ job ∈ t.jobs, job.number = f.1 → earned job.body result) :
    ∃ t', (d.report findings).ClaimsMatch fit earned want asking t' ∧
      t'.jobs = t.jobs.filter fun job => !findings.any (·.1 == job.number) := by
  obtain ⟨t', hgateway, hservice, hnow, hsubmitted, hjobs⟩ := h.service.report h.gateway hfindings
  have hasked {c : Caller} {body : β} (hc : t.HasAsked c body) : t'.HasAsked c body :=
    hc.of_subset (hsubmitted ▸ List.Subset.refl _)
  refine ⟨t', ⟨hservice, hgateway, hnow.trans h.now,
    fun c hc hlistening => hasked (h.callers c hc hlistening),
    fun c hc => ⟨(h.blocked c hc).1, hasked (h.blocked c hc).2⟩, fun c hc => ?_, h.notes,
    h.claims⟩, hjobs⟩
  have hwaits := h.waits c hc
  unfold Gateway.isWaiting at hwaits ⊢
  rw [requests_report]
  exact hwaits

theorem wanting (h : d.ClaimsMatch fit earned want asking t) {name : String} (hname : name ∉ asking)
    (body : β) : d.ClaimsMatch fit earned (Function.update want name body) asking t := by
  have hother {who : String} (hwho : who ∈ d.claimants) :
      Function.update want name body who = want who := by
    refine Function.update_of_ne (fun heq => hname ?_) ..
    rw [← heq]
    exact h.claims.mem_iff.mp hwho
  refine { h with
    callers := fun c hc hlistening => ?_, blocked := fun c hc => ?_, notes := fun n hn => ?_ }
  · rw [hother]
    · exact h.callers c hc hlistening
    · refine List.mem_append_left _ (List.mem_append_right _ (List.mem_map_of_mem ?_))
      exact List.mem_filter.mpr ⟨hc, hlistening⟩
  · rw [hother]
    · exact h.blocked c hc
    · exact List.mem_append_right _ (List.mem_map_of_mem hc)
  · rw [hother]
    · exact h.notes n hn
    · exact List.mem_append_left _ (List.mem_append_left _ (List.mem_map_of_mem hn))

end Desk.ClaimsMatch

/-! ## Letting the bus and the handler act -/

structure Handler.Faithful (h : Handler η β α) (wanted : List (Job β) → η → Prop)
    (fit : β → Prop) (earned : β → Except Failure α → Prop) : Prop where
  start : ∀ now {jobs job s}, fit job.body → (∀ other ∈ jobs, other.number ≠ job.number) →
    wanted jobs s → wanted (jobs ++ [job]) (h.start now job s)
  found : ∀ now {jobs s}, wanted jobs s → ∀ f ∈ (h.run now s).2, ∃ job ∈ jobs,
    job.number = f.1 ∧ ∃ result, f.2 = some result ∧ earned job.body result
  run : ∀ now {jobs s}, wanted jobs s →
    wanted (jobs.filter fun job => !(h.run now s).2.any (·.1 == job.number)) (h.run now s).1

/-- A handler has just done all that it can. -/
def Handler.Ran (h : Handler η β α) (wanted : List (Job β) → η → Prop) (s' : η) : Prop :=
  ∃ now jobs s, wanted jobs s ∧ s' = (h.run now s).1

namespace Desk

variable {h : Handler η β α} {wanted : List (Job β) → η → Prop} {fit : β → Prop}
  {earned : β → Except Failure α → Prop} {want : String → β} {asking : List String}
  {d : Desk η β α}

/-- Callers are attended to, and the handler handles what the worker says. -/
def ClaimsTracked (wanted : List (Job β) → η → Prop) (fit : β → Prop)
    (earned : β → Except Failure α → Prop) (want : String → β) (asking : List String)
    (d : Desk η β α) : Prop :=
  ∃ t : Traffic β α, d.ClaimsMatch fit earned want asking t ∧ wanted t.jobs d.handler

theorem Handler.Faithful.starts (hh : h.Faithful wanted fit earned) (now : Duration)
    {new : List (Job β)} (hnew : ∀ job ∈ new, fit job.body) {jobs : List (Job β)}
    (hnumbers : ((jobs ++ new).map (·.number)).Nodup) {s : η} (hs : wanted jobs s) :
    wanted (jobs ++ new) (new.foldl (fun s job => h.start now job s) s) := by
  induction new generalizing jobs s with
  | nil =>
      rw [List.append_nil]
      exact hs
  | cons job new ih =>
      obtain ⟨hjob, hrest⟩ := List.forall_mem_cons.mp hnew
      have hfresh : ∀ other ∈ jobs, other.number ≠ job.number := by
        intro other hother
        rw [List.map_append, List.nodup_append] at hnumbers
        exact hnumbers.2.2 _ (List.mem_map_of_mem hother) _ List.mem_cons_self
      rw [List.append_cons] at hnumbers ⊢
      exact ih hrest hnumbers (hh.start now hjob hfresh hs)

namespace ClaimsTracked

/-- The bus and the handler act once: whatever the handler finds out was earned, and it keeps count
of what is left. -/
theorem round (hd : d.ClaimsTracked wanted fit earned want asking)
    (hh : h.Faithful wanted fit earned) :
    h.Ran wanted (d.round h).1.handler ∧
      ∃ t, (d.round h).1.ClaimsMatch fit earned want asking t ∧
        (∀ f ∈ (d.round h).2, ∃ result, f.2 = some result ∧
          ∀ job ∈ t.jobs, job.number = f.1 → earned job.body result) ∧
        wanted (t.jobs.filter fun job => !(d.round h).2.any (·.1 == job.number))
          (d.round h).1.handler := by
  obtain ⟨t, ht, hwanted⟩ := hd
  obtain ⟨t', new, heq, hservice, hnow, hsubmitted, hjobs⟩ :=
    ht.service.settle t.gateway.steps {}
  rw [ht.gateway, ht.now] at heq
  have hserved := ht.unblock hservice hnow hsubmitted
  have hnumbers := hservice.sound.ledger.jobs_nodup
  have hnew : ∀ job ∈ new, fit job.body := fun job hjob =>
    hservice.fits_job (hjobs ▸ List.mem_append_right _ hjob)
  have hstarted := Handler.Faithful.starts hh d.now hnew (hjobs ▸ hnumbers) hwanted
  rw [← hjobs] at hstarted
  obtain ⟨hclock, hhandler⟩ :
      ({ d with gateway := t'.gateway }.unblock [] : Desk η β α).now = d.now ∧
      ({ d with gateway := t'.gateway }.unblock [] : Desk η β α).handler = d.handler := by
    rw [unblock_nil]
    exact ⟨rfl, rfl⟩
  unfold Desk.round
  rw [heq]
  dsimp only
  rw [List.nil_append]
  generalize { d with gateway := t'.gateway }.unblock [] = served at hserved hclock hhandler ⊢
  rw [← hclock, ← hhandler] at hstarted
  refine ⟨⟨_, _, _, hstarted, rfl⟩, t', { hserved with }, fun f hf => ?_, hh.run _ hstarted⟩
  -- Numbers are given out once, so what has been found out concerns one request.
  obtain ⟨job, hjob, hnumber, result, hresult, hearned⟩ := hh.found _ hstarted f hf
  refine ⟨result, hresult, fun other hother hsame => ?_⟩
  obtain rfl := List.inj_on_of_nodup_map hnumbers hother hjob (hsame.trans hnumber.symm)
  exact hearned

theorem settle (hd : d.ClaimsTracked wanted fit earned want asking)
    (hh : h.Faithful wanted fit earned) (fuel : Nat) :
    (Desk.settle h fuel d).ClaimsTracked wanted fit earned want asking ∧
      (fuel ≠ 0 ∨ h.Ran wanted d.handler → h.Ran wanted (Desk.settle h fuel d).handler) := by
  induction fuel generalizing d with
  | zero =>
      obtain ⟨t, ht, hwanted⟩ := hd
      exact ⟨⟨t, ht.tell, hwanted⟩, fun hran => hran.resolve_left (absurd rfl)⟩
  | succ fuel ih =>
      obtain ⟨hran, t, ht, hfindings, hwanted⟩ := hd.round hh
      rw [settle_succ]
      split_ifs with hempty
      · rw [List.isEmpty_iff] at hempty
        rw [hempty] at hwanted
        exact ⟨⟨t, ht.tell, by simpa [Desk.tell] using hwanted⟩, fun _ => hran⟩
      · obtain ⟨t', ht', hjobs⟩ := ht.report hfindings
        rw [← hjobs] at hwanted
        obtain ⟨hclaims, hnext⟩ := ih ⟨t', ht', hwanted⟩
        exact ⟨hclaims, fun _ => hnext (.inr hran)⟩

theorem handle (hd : d.ClaimsTracked wanted fit earned want asking)
    {wanted' : List (Job β) → η → Prop} {s : η}
    (hs : ∀ jobs, wanted jobs d.handler → wanted' jobs s) :
    ({ d with handler := s } : Desk η β α).ClaimsTracked wanted' fit earned want asking := by
  obtain ⟨t, ht, hwanted⟩ := hd
  exact ⟨t, { ht with }, hs _ hwanted⟩

theorem act (hd : d.ClaimsTracked wanted fit earned want asking)
    (hh : h.Faithful wanted fit earned) :
    (d.act h).ClaimsTracked wanted fit earned want asking := (hd.settle hh _).1

/-- Before everybody waits, the handler does all that it can. -/
theorem act_ran (hd : d.ClaimsTracked wanted fit earned want asking)
    (hh : h.Faithful wanted fit earned) : h.Ran wanted (d.act h).handler :=
  (hd.settle hh _).2 (.inl (by decide))

theorem submit (hd : d.ClaimsTracked wanted fit earned want asking)
    (hh : h.Faithful wanted fit earned)
    {name : String} (hname : name ∉ asking) {body : β} (hbody : fit body) {timeout : Duration}
    (hshow : Ticker.Showable (d.now + timeout)) :
    (d.submit h name body (some timeout)).ClaimsTracked wanted fit earned
      (Function.update want name body) (name :: asking) := by
  obtain ⟨t, ht, hwanted⟩ := hd
  have hd := ht.wanting hname body
  have hpossible := Gateway.submit_ne_impossible (g := d.gateway) hshow name body
  have hservice := ht.service.submit name hbody (some timeout)
  obtain ⟨hgateway, hnow, hjobs, hold, hnew⟩ := ht.service.submit_eq name body (some timeout)
  rw [ht.gateway, ht.now] at hgateway hnew
  rw [← hjobs] at hwanted
  have hwant : Function.update want name body name = body := Function.update_self ..
  have hsent : ({ d with gateway := (d.gateway.submit d.now name body (some timeout)).1 } :
      Desk η β α).ClaimsMatch fit earned (Function.update want name body) asking
        (t.submit name body (some timeout)) :=
    ⟨hservice, hgateway, hnow.trans hd.now,
      fun c hc hlistening => (hd.callers c hc hlistening).of_subset hold,
      fun c hc => ⟨(hd.blocked c hc).1, (hd.blocked c hc).2.of_subset hold⟩,
      fun c hc => Gateway.isWaiting_submit (hd.waits c hc), hd.notes, hd.claims⟩
  unfold Desk.submit
  dsimp only
  refine act ⟨t.submit name body (some timeout), ?_, ?_⟩ hh
  · split
    next id ticket hanswer =>
      have hasked : (t.submit name body (some timeout)).HasAsked ⟨name, id, ticket, true⟩
          (Function.update want name body name) := hwant.symm ▸ hnew hanswer
      split_ifs with hwaits
      · exact hsent.block rfl hasked hwaits
      · exact hsent.await rfl hasked
    next cause hanswer =>
      have hcause : Undelivered cause := by
        rw [← ht.gateway, ← ht.now] at hanswer
        exact ht.service.undelivered_of_refused hanswer
      exact hsent.note hcause
    next hanswer => exact absurd hanswer hpossible
  · split
    next => split <;> exact hwanted
    next => exact hwanted
    next => exact hwanted

theorem withEngine (hd : d.ClaimsTracked wanted fit earned want asking) {a : Action α}
    (ha : a = .sweep ∨ a = .shutdown) {γ : Type} {f : Engine α → Engine α × γ}
    (hf : (f d.gateway.engine).1 = (d.gateway.engine.perform d.now a).1) :
    (d.withEngine f).1.ClaimsTracked wanted fit earned want asking := by
  obtain ⟨t, ht, hwanted⟩ := hd
  have hacted := ht.service.act ha
  have hleaves : t.leaves a = true := by rcases ha with rfl | rfl <;> rfl
  have heq : t.act a = { t with gateway := { t.gateway with
      engine := (t.gateway.engine.perform t.now a).1 } } := if_pos hleaves
  rw [heq, ht.gateway, ht.now, ← hf] at hacted
  have hperformed : ({ d with gateway := { d.gateway with
      engine := (f d.gateway.engine).1 } } : Desk η β α).ClaimsMatch fit earned want asking
        { t with
          gateway := { d.gateway with engine := (f d.gateway.engine).1 }
          now := d.now } :=
    ⟨hacted, rfl, rfl, ht.callers, ht.blocked, ht.waits, ht.notes, ht.claims⟩
  have hjobs : t.jobs = d.gateway.worker.jobs := congrArg (·.worker.jobs) ht.gateway
  rw [hjobs] at hwanted
  exact ⟨_, hperformed.tell, hwanted⟩

theorem happen (hd : d.ClaimsTracked wanted fit earned want asking)
    (hh : h.Faithful wanted fit earned) (span : Duration) :
    (d.happen h (d.now + span)).ClaimsTracked wanted fit earned want asking := by
  have hlater : ({ d with now := d.now + span } : Desk η β α).ClaimsTracked wanted fit earned want
      asking := by
    obtain ⟨t, ht, hwanted⟩ := hd
    refine ⟨{ t with now := t.now + span }, ⟨ht.service.elapse span, ht.gateway, ?_, ht.callers,
      ht.blocked, ht.waits, ht.notes, ht.claims⟩, hwanted⟩
    show t.now + span = d.now + span
    rw [ht.now]
  unfold Desk.happen
  dsimp only
  split_ifs
  · exact act (withEngine hlater (.inl rfl) rfl) hh
  · exact act hlater hh

theorem shutdownEngine (hd : d.ClaimsTracked wanted fit earned want asking) :
    d.shutdownEngine.1.ClaimsTracked wanted fit earned want asking := by
  have halone :
    ({ d with sweeper := none } : Desk η β α).ClaimsTracked wanted fit earned want asking := by
    obtain ⟨t, ht, hwanted⟩ := hd
    exact ⟨t, { ht with }, hwanted⟩
  exact withEngine halone (.inr rfl) rfl

theorem collect (hd : d.ClaimsTracked wanted fit earned want asking) :
    ∃ rest, asking.Perm (d.notes.map (·.who) ++ rest) ∧
      d.collect.1.ClaimsTracked wanted fit earned want rest := by
  obtain ⟨t, ht, hwanted⟩ := hd
  refine ⟨d.collect.1.claimants, ?_, t, { ht with notes := nofun, claims := .refl _ }, hwanted⟩
  refine ht.claims.symm.trans ?_
  simp [claimants, Desk.collect]

end ClaimsTracked

/-- When everybody waits and nothing is being handled, there are no claims left but those that
there are notes for. -/
theorem ClaimsMatch.claimants_eq {t : Traffic β α} (hd : d.ClaimsMatch fit earned want asking t)
    (hrest : d.gateway.AtRest d.now) (hjobs : t.jobs = [])
    (hheard : ∀ c ∈ d.callers, c.listening = true → d.gateway.engine.outcome? c.ticket = none) :
    d.claimants = d.notes.map (·.who) := by
  have hrest' : t.gateway.AtRest t.now := by
    rw [hd.gateway, hd.now]
    exact hrest
  have hcallers : d.callers.filter (·.listening) = [] := by
    refine List.filter_eq_nil_iff.mpr fun c hc hlistening => ?_
    obtain ⟨s, hs, -, hticket, -⟩ := hd.callers c hc hlistening
    obtain ⟨o, ho⟩ := hd.service.outcome_of_atRest hrest' hjobs s hs
    rw [hd.gateway, hticket, hheard c hc hlistening] at ho
    cases ho
  have hblocked : d.blocked = [] := by
    refine List.eq_nil_iff_forall_not_mem.mpr fun c hc => ?_
    obtain ⟨hrequests, -⟩ := hd.service.endsInOrder.contents_of_quiescent hrest'
    have hnobody : d.gateway.worker.requests.waiting = [] := by
      rw [← hd.gateway]
      exact (List.append_eq_nil_iff.mp hrequests).2
    have hwaits := hd.waits c hc
    rw [Gateway.isWaiting, hnobody] at hwaits
    cases hwaits
  rw [claimants, hcallers, hblocked]
  simp

end Desk

end AgentGateway.Bus
