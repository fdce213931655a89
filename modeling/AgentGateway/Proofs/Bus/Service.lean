import AgentGateway.Bus.Desk
import AgentGateway.Proofs.Bus.EndsInOrder

/-!
# A bus in service

A bus is in service as long as nobody tells it to stop, no handler crashes, and somebody can
submit. It then loses nothing, whatever becomes of the engine: every request that was submitted is
waiting, being handled, on its way back, or has got its outcome (`Traffic.InService`). What the
bus does until everybody waits, and what the handler finds out, keep it in service and say which
requests are being handled.
-/

namespace AgentGateway.Bus

open Correlation (Action Engine Id Outcome Pending)

variable {β α : Type}

namespace Traffic

/-- An undisturbed bus on which bodies of some kind are submitted and answered with results that are
earned. A reply that was taken has settled its request. -/
structure InService (fit : β → Prop) (earned : β → Except Failure α → Prop) (t : Traffic β α) :
    Prop where
  sound : t.Sound
  endsInOrder : t.EndsInOrder
  sending : t.requests.sent = true
  fits : ∀ s ∈ t.submitted, fit s.body
  earns : ∀ a ∈ t.answered, earned a.job.body a.result
  named : ∀ p ∈ t.gateway.engine.entries, ∃ name, p.id = .generated p.ticket name
  settled : ∀ r ∈ t.consumed, ∀ p ∈ t.gateway.engine.entries, p.id ≠ r.id

variable {fit : β → Prop} {earned : β → Except Failure α → Prop} {t t' : Traffic β α}

namespace InService

/-- What is done apart from the engine needs to say only how requests can be sent and what is
answered. -/
theorem apart (h : t.InService fit earned) (hsound : t'.Sound) (hends : t'.EndsInOrder)
    (hsending : t'.requests.sent = true) (hsubmitted : t'.submitted = t.submitted)
    (hearns : ∀ a ∈ t'.answered, a ∈ t.answered ∨ earned a.job.body a.result)
    (hengine : t'.gateway.engine = t.gateway.engine) (hconsumed : t'.consumed = t.consumed) :
    t'.InService fit earned where
  sound := hsound
  endsInOrder := hends
  sending := hsending
  fits := by
    rw [hsubmitted]
    exact h.fits
  earns a ha := (hearns a ha).elim (h.earns a) id
  named := by
    rw [hengine]
    exact h.named
  settled := by
    rw [hengine, hconsumed]
    exact h.settled

theorem submitted_of_job (h : t.InService fit earned) {j : Job β} (hj : j ∈ t.jobs) :
    ∃ s ∈ t.submitted, s.pending.id = j.id ∧ s.body = j.body :=
  h.sound.submitted_of_invoked (h.sound.ledger.jobs.mem_iff.mpr (.inr (.inl hj)))

theorem fits_job (h : t.InService fit earned) {j : Job β} (hj : j ∈ t.jobs) : fit j.body := by
  obtain ⟨s, hs, -, hbody⟩ := h.submitted_of_job hj
  exact hbody ▸ h.fits s hs

theorem submitted_of_consumed (h : t.InService fit earned) {r : Reply α} (hr : r ∈ t.consumed) :
    ∃ s ∈ t.submitted, s.pending.id = r.id := by
  have hmem : r ∈ t.answered.map (·.reply) := h.sound.ledger.replies.mem_iff.mpr (.inl hr)
  obtain ⟨a, ha, rfl⟩ := List.mem_map.mp hmem
  obtain ⟨s, hs, hid, -⟩ := h.sound.submitted_of_invoked
    (h.sound.ledger.jobs.mem_iff.mpr (.inl (List.mem_map_of_mem ha)))
  exact ⟨s, hs, hid⟩

theorem find?_next (h : t.InService fit earned) (name : String) :
    t.gateway.engine.find? (.generated t.gateway.engine.issued name) = none := by
  refine List.find?_eq_none.mpr fun p hp => ?_
  have htickets := h.sound.known.wellFormed.tickets
  have hlt : p.ticket < t.gateway.engine.issued :=
    List.mem_range.mp (htickets.mem_iff.mp (List.mem_append_left _ (List.mem_map_of_mem hp)))
  obtain ⟨name', hid⟩ := h.named p hp
  intro heq
  have heq : p.id = .generated t.gateway.engine.issued name := by simpa using heq
  have hticket := (Id.generated.inj (hid.symm.trans heq)).1
  omega

theorem registerNew (h : t.InService fit earned) (name : String) (timeout : Option Duration) :
    ∀ p ∈ (t.gateway.engine.registerNew t.now name timeout).1.entries,
      p ∈ t.gateway.engine.entries ∨
        p.id = .generated t.gateway.engine.issued name ∧ p.ticket = t.gateway.engine.issued := by
  intro p hp
  have hnext := h.find?_next name
  unfold Engine.registerNew Engine.register at hp
  dsimp only at hp
  split_ifs at hp
  · exact .inl hp
  · rw [hnext] at hp
    dsimp only at hp
    unfold Engine.insert at hp
    dsimp only at hp
    split_ifs at hp
    · rcases List.mem_append.mp hp with hp | hp
      · exact .inl hp
      · obtain rfl := List.mem_singleton.mp hp
        exact .inr ⟨rfl, rfl⟩
    · exact .inl hp

theorem submit (h : t.InService fit earned) (name : String) {body : β} (hbody : fit body)
    (timeout : Option Duration) : (t.submit name body timeout).InService fit earned := by
  have hsound := h.sound.submit name body timeout
  have hends := h.endsInOrder.submit name body timeout
  have hentries := h.registerNew name timeout
  have hnamed : ∀ p ∈ (t.gateway.engine.registerNew t.now name timeout).1.entries,
      ∃ name, p.id = .generated p.ticket name := fun p hp => by
    rcases hentries p hp with hp | ⟨hid, hticket⟩
    · exact h.named p hp
    · exact ⟨name, hticket ▸ hid⟩
  have hsettled : ∀ r ∈ t.consumed,
      ∀ p ∈ (t.gateway.engine.registerNew t.now name timeout).1.entries, p.id ≠ r.id := by
    intro r hr p hp
    rcases hentries p hp with hp | ⟨hid, -⟩
    · exact h.settled r hr p hp
    · -- A reply that was taken has the identifier of an earlier submission.
      obtain ⟨s, hs, hreply⟩ := h.submitted_of_consumed hr
      obtain ⟨name', hname⟩ := h.sound.known.named s hs
      have hlt := h.sound.known.issued s hs
      intro heq
      have heq : Id.generated t.gateway.engine.issued name = .generated s.pending.ticket name' :=
        hid.symm.trans (heq.trans (hreply.symm.trans hname))
      have hticket := (Id.generated.inj heq).1
      omega
  obtain heq | ⟨id, ticket, requests, -, -, hs, heq⟩ | ⟨id, hsent, hnone, -⟩ | heq :=
    t.submit_cases name body timeout
  · rw [heq]
    exact h
  · rw [heq] at hsound hends ⊢
    exact {
      sound := hsound
      endsInOrder := hends
      sending := (Channel.send?_frame hs).2.2.trans h.sending
      fits := List.forall_mem_append.mpr ⟨h.fits, List.forall_mem_singleton.mpr hbody⟩
      earns := h.earns
      named := hnamed
      settled := hsettled }
  · exact absurd hnone (h.endsInOrder.send?_ne_none hsent _)
  · rw [heq] at hsound hends ⊢
    exact {
      sound := hsound
      endsInOrder := hends
      sending := h.sending
      fits := h.fits
      earns := h.earns
      named := hnamed
      settled := hsettled }

theorem take (h : t.InService fit earned) {job : Job β} {worker : Worker β α}
    (htake : t.gateway.worker.take? = some (job, worker)) :
    t.take.InService fit earned ∧ t.take.gateway = { t.gateway with worker } ∧
      t.take.now = t.now ∧ t.take.submitted = t.submitted ∧ t.take.jobs = t.jobs ++ [job] := by
  have hsound := h.sound.step .take
  have hends := h.endsInOrder.take
  change t.take.Sound at hsound
  obtain ⟨-, -, m, requests, hr, -, rfl⟩ := Worker.take?_eq_some htake
  unfold Traffic.take at hsound hends ⊢
  rw [htake] at hsound hends ⊢
  dsimp only at hsound hends ⊢
  refine ⟨?_, rfl, rfl, rfl, rfl⟩
  apply h.apart hsound hends
  · exact (Channel.receive?_frame hr).2.2.trans h.sending
  · rfl
  · exact fun a ha => .inl ha
  · rfl
  · rfl

theorem finish (h : t.InService fit earned) {number : Nat} {result : Except Failure α}
    (hresult : ∀ job ∈ t.jobs, job.number = number → earned job.body result) :
    (t.finish number result).InService fit earned ∧
      (t.finish number result).gateway =
        { t.gateway with worker := t.gateway.worker.finish number result } ∧
      (t.finish number result).now = t.now ∧ (t.finish number result).submitted = t.submitted ∧
      (t.finish number result).jobs = t.jobs.filter (·.number != number) := by
  have hsound := h.sound.step (.finish number result)
  have hends := h.endsInOrder.finish number result
  change (t.finish number result).Sound at hsound
  unfold Traffic.finish at hsound hends ⊢
  cases hjob : t.gateway.worker.job? number with
  | none =>
      have hnone : ∀ job ∈ t.jobs, job.number ≠ number := fun job hj => by
        simpa using List.find?_eq_none.mp hjob job hj
      refine ⟨h, ?_, rfl, rfl, ?_⟩
      · simp [Worker.finish, hjob]
      · exact (List.filter_eq_self.mpr fun job hj => by simpa using hnone job hj).symm
  | some job =>
      rw [hjob] at hsound hends
      dsimp only at hsound hends ⊢
      have hmem : job ∈ t.jobs := List.mem_of_find?_eq_some hjob
      have hnumber : job.number = number := by simpa using List.find?_some hjob
      refine ⟨?_, rfl, rfl, rfl, ?_⟩
      · apply h.apart hsound hends
        · show (t.gateway.worker.finish number result).requests.sent = true
          rw [Worker.finish_eq hjob]
          exact h.sending
        · rfl
        · exact List.forall_mem_append.mpr ⟨fun a ha => .inl ha,
            List.forall_mem_singleton.mpr (.inr (hresult job hmem hnumber))⟩
        · rfl
        · rfl
      · show (t.gateway.worker.finish number result).jobs = _
        rw [Worker.finish_eq hjob]
        rfl

/-- The listener takes a reply, which settles its request. -/
theorem deliver (h : t.InService fit earned) {gateway : Gateway β α}
    (hdeliver : t.gateway.deliver? t.now = some gateway) :
    t.deliver.InService fit earned ∧ t.deliver.gateway = gateway ∧ t.deliver.now = t.now ∧
      t.deliver.submitted = t.submitted ∧ t.deliver.jobs = t.jobs := by
  have hsound := h.sound.deliver
  have hends := h.endsInOrder.deliver
  unfold Traffic.deliver at hsound hends ⊢
  rw [hdeliver] at hsound hends ⊢
  dsimp only at hsound hends ⊢
  obtain ⟨-, reply, replies, hr, rfl⟩ := Gateway.deliver?_eq_some hdeliver
  have htake : t.replies.items.take 1 = [reply] := by
    rw [Traffic.replies, (Channel.items_of_receive? hr).1]
    rfl
  -- Whichever entry has the identifier of the reply, it is taken out.
  have hentries : ∀ p ∈ (t.gateway.engine.resolve t.now reply.id reply.result).1.entries,
      p ∈ t.gateway.engine.entries ∧ p.id ≠ reply.id := by
    intro p hp
    unfold Engine.resolve at hp
    split at hp
    next hnone =>
      refine ⟨hp, ?_⟩
      simpa using List.find?_eq_none.mp hnone p hp
    next q hfind =>
      have hid : q.id = reply.id := by simpa using List.find?_some hfind
      split_ifs at hp
      · obtain ⟨hp, hne⟩ := List.mem_filter.mp hp
        exact ⟨hp, by simpa [hid] using hne⟩
      · obtain ⟨hp, hne⟩ := List.mem_filter.mp hp
        exact ⟨hp, by simpa using hne⟩
  refine ⟨?_, rfl, rfl, rfl, rfl⟩
  exact {
    sound := hsound
    endsInOrder := hends
    sending := h.sending
    fits := h.fits
    earns := h.earns
    named := fun p hp => h.named p (hentries p hp).1
    settled := by
      rw [htake]
      exact List.forall_mem_append.mpr ⟨fun r hr p hp => h.settled r hr p (hentries p hp).1,
        List.forall_mem_singleton.mpr fun p hp => (hentries p hp).2⟩ }

theorem act (h : t.InService fit earned) {a : Action α} (ha : a = .sweep ∨ a = .shutdown) :
    (t.act a).InService fit earned := by
  have hsound : (t.act a).Sound := h.sound.step (.engine a)
  have hends := h.endsInOrder.act a
  have hleaves : t.leaves a = true := by rcases ha with rfl | rfl <;> rfl
  have hentries : ∀ p ∈ (t.gateway.engine.perform t.now a).1.entries,
      p ∈ t.gateway.engine.entries := by
    intro p hp
    rcases (Engine.mem_perform h.sound.known.wellFormed).mp hp with ⟨hp, -⟩ | hmade
    · exact hp
    · rcases ha with rfl | rfl <;> cases hmade
  unfold Traffic.act at hsound hends ⊢
  rw [if_pos hleaves] at hsound hends ⊢
  exact {
    sound := hsound
    endsInOrder := hends
    sending := h.sending
    fits := h.fits
    earns := h.earns
    named := fun p hp => h.named p (hentries p hp)
    settled := fun r hr p hp => h.settled r hr p (hentries p hp) }

theorem elapse (h : t.InService fit earned) (span : Duration) :
    InService fit earned { t with now := t.now + span } where
  sound := h.sound.step (.elapse span)
  endsInOrder := { h.endsInOrder with }
  sending := h.sending
  fits := h.fits
  earns := h.earns
  named := h.named
  settled := h.settled

/-! ## Letting the bus act -/

/-- As long as somebody can submit, neither the worker nor the listener comes to its end. -/
theorem goes_on (h : t.InService fit earned) :
    t.gateway.worker.close? = none ∧ t.gateway.endWorker? t.now = none ∧
      ¬ (t.gateway.listening = true ∧ t.gateway.worker.replies.isExhausted = true) := by
  obtain ⟨hserving, -⟩ := h.endsInOrder.received_of_sent h.sending
  have hsending : t.gateway.worker.requests.sent = true := h.sending
  have hanswering : t.gateway.worker.replies.sent = true :=
    h.endsInOrder.answering (by simp [hserving])
  refine ⟨?_, ?_, ?_⟩
  · unfold Worker.close?
    rw [if_neg]
    simp [h.endsInOrder.notCancelled, Channel.isExhausted, hsending]
  · simp [Gateway.endWorker?, Worker.end?, hserving]
  · simp [Channel.isExhausted, hanswering]

/-- The worker takes requests and the listener takes replies until there are none. -/
theorem settle (h : t.InService fit earned) (fuel : Nat) (p : Gateway.Progress β) :
    ∃ (t' : Traffic β α) (new : List (Job β)),
      t.gateway.settle t.now fuel p =
          (t'.gateway, { started := p.started ++ new, refused := p.refused }) ∧
        t'.InService fit earned ∧ t'.now = t.now ∧ t'.submitted = t.submitted ∧
        t'.jobs = t.jobs ++ new := by
  induction fuel generalizing t p with
  | zero => exact ⟨t, [], by simp [Gateway.settle], h, rfl, rfl, by simp⟩
  | succ fuel ih =>
      rw [Gateway.settle]
      cases htake : t.gateway.worker.take? with
      | some taken =>
          obtain ⟨job, worker⟩ := taken
          obtain ⟨hnext, hgateway, hnow, hsubmitted, hjobs⟩ := h.take htake
          obtain ⟨t', new, heq, ht', hnow', hsubmitted', hjobs'⟩ :=
            ih hnext { p with started := p.started ++ [job] }
          rw [hgateway, hnow] at heq
          refine ⟨t', job :: new, ?_, ht', hnow'.trans hnow, hsubmitted'.trans hsubmitted, ?_⟩
          · simpa using heq
          · simpa [hjobs] using hjobs'
      | none =>
          cases hdeliver : t.gateway.deliver? t.now with
          | some gateway =>
              obtain ⟨hnext, hgateway, hnow, hsubmitted, hjobs⟩ := h.deliver hdeliver
              obtain ⟨t', new, heq, ht', hnow', hsubmitted', hjobs'⟩ := ih hnext p
              rw [hgateway, hnow] at heq
              exact ⟨t', new, heq, ht', hnow'.trans hnow, hsubmitted'.trans hsubmitted,
                hjobs ▸ hjobs'⟩
          | none =>
              obtain ⟨hclose, hend, hlisten⟩ := h.goes_on
              rw [hclose, hend]
              dsimp only
              rw [if_neg hlisten]
              exact ⟨t, [], by simp, h, rfl, rfl, by simp⟩

/-- What the handler has found out ends the handling of the requests that it is about. -/
theorem report {η : Type} (h : t.InService fit earned) {d : Desk η β α}
    (hgateway : t.gateway = d.gateway) {findings : List (Nat × Finding α)}
    (hfindings : ∀ f ∈ findings, ∃ result, f.2 = some result ∧
      ∀ job ∈ t.jobs, job.number = f.1 → earned job.body result) :
    ∃ t' : Traffic β α, t'.gateway = (d.report findings).gateway ∧ t'.InService fit earned ∧
      t'.now = t.now ∧ t'.submitted = t.submitted ∧
      t'.jobs = t.jobs.filter fun job => !findings.any (·.1 == job.number) := by
  induction findings generalizing t d with
  | nil => exact ⟨t, hgateway, h, rfl, rfl, by simp⟩
  | cons f findings ih =>
      obtain ⟨⟨result, hf, hearned⟩, hrest⟩ := List.forall_mem_cons.mp hfindings
      obtain ⟨number, finding⟩ := f
      obtain rfl : finding = some result := hf
      obtain ⟨hnext, hworker, hnow, hsubmitted, hjobs⟩ := h.finish hearned
      have hd : (t.finish number result).gateway =
          ({ d with gateway := { d.gateway with
            worker := d.gateway.worker.finish number result } } : Desk η β α).gateway := by
        rw [hworker, hgateway]
      obtain ⟨t', hgateway', ht', hnow', hsubmitted', hjobs'⟩ := ih hnext hd fun g hg => by
        obtain ⟨result', hg', hearned'⟩ := hrest g hg
        refine ⟨result', hg', fun job hj => hearned' job ?_⟩
        rw [hjobs] at hj
        exact List.mem_of_mem_filter hj
      refine ⟨t', hgateway', ht', hnow'.trans hnow, hsubmitted'.trans hsubmitted, ?_⟩
      rw [hjobs', hjobs, List.filter_filter]
      refine List.filter_congr fun job _ => ?_
      simp only [List.any_cons, Bool.not_or, bne]
      rw [Bool.and_comm, Bool.beq_comm]

/-- When everybody waits and nothing is being handled, every request has got its outcome. -/
theorem outcome_of_atRest (h : t.InService fit earned) (hrest : t.gateway.AtRest t.now)
    (hjobs : t.jobs = []) : ∀ s ∈ t.submitted,
      ∃ o, t.gateway.engine.outcome? s.pending.ticket = some o := by
  intro s hs
  obtain ⟨hrequests, hreplies⟩ := h.endsInOrder.contents_of_quiescent hrest
  have hinvoked : s.key ∈ t.invoked.map (·.key) := by
    have hmem : s.key ∈ t.submitted.map (·.key) := List.mem_map_of_mem hs
    rw [h.sound.ledger.requests.mem_iff, hrequests, h.endsInOrder.noRequestLost] at hmem
    simpa using hmem
  obtain ⟨j, hj, hkey⟩ := List.mem_map.mp hinvoked
  have hanswered : j ∈ t.answered.map (·.job) := by
    rw [h.sound.ledger.jobs.mem_iff, hjobs, h.endsInOrder.nothingCrashed] at hj
    simpa using hj
  obtain ⟨a, ha, rfl⟩ := List.mem_map.mp hanswered
  have htaken : a.reply ∈ t.consumed := by
    have hmem : a.reply ∈ t.answered.map (·.reply) := List.mem_map_of_mem ha
    rw [h.sound.ledger.replies.mem_iff, hreplies, h.endsInOrder.noReplyLost] at hmem
    simpa using hmem
  have hid : s.pending.id = a.reply.id := (congrArg Prod.fst hkey).symm
  -- Its ticket was given out, and its entry is gone.
  have hwell := h.sound.known.wellFormed
  have hticket : s.pending.ticket ∈ List.range t.gateway.engine.issued :=
    List.mem_range.mpr (h.sound.known.issued s hs)
  rcases List.mem_append.mp (hwell.tickets.mem_iff.mpr hticket) with hentry | houtcome
  · obtain ⟨p, hp, hp'⟩ := List.mem_map.mp hentry
    obtain rfl := h.sound.known.entries s hs p hp hp'
    exact absurd hid (h.settled a.reply htaken _ hp)
  · obtain ⟨⟨ticket, o⟩, ho, rfl⟩ := List.mem_map.mp houtcome
    exact ⟨o, (Engine.outcome?_eq_some_iff hwell).mpr ho⟩

end InService

end Traffic

end AgentGateway.Bus
