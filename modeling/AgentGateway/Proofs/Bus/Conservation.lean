import AgentGateway.Proofs.Bus.EndsInOrder
import AgentGateway.Proofs.Correlation.Deadlines

/-!
# Nothing is lost on an undisturbed bus

Every accepted request is in exactly one place: in the channel of requests, being handled, on its
way back, or taken by the listener. Whenever everybody waits nothing is on its way, and every
result that was in time has arrived.

The ledger and `Traffic.EndsInOrder` account for the places. That replies arrive is the matter of
`Traffic.Prompt`: a submission whose reply has not been taken keeps its entry until it is overdue,
and replies are taken at the moment at which they were given, for time passes only while no reply
is on its way.
-/

namespace AgentGateway.Bus

open Correlation (Action Engine Id Outcome Pending)

variable {β α : Type}

namespace Traffic

/-! ## Replies in time -/

/-- A registration that is not overdue stays until the engine ends its work or a reply comes. -/
theorem mem_perform_of_pending {e : Engine α} (he : e.WellFormed) {p : Pending}
    (hp : p ∈ e.entries) {now : Duration} (htime : now < p.expiresAt) {a : Action α}
    (hcloses : a.closes = false) (hreply : ∀ o, a ≠ .reply p.id o) :
    p ∈ (e.perform now a).1.entries := by
  refine (Engine.mem_perform he).mpr (.inl ⟨hp, ?_⟩)
  cases hv : (e.entry now a).verdict? p with
  | none => rfl
  | some o =>
    obtain ⟨-, ho⟩ | ⟨-, ha⟩ | ⟨-, ha⟩ | ha := Engine.verdict?_cases hv
    · have ho : p.isOverdue now = true := ho
      rw [Correlation.Pending.not_overdue_iff.mpr htime] at ho
      cases ho
    · obtain rfl : a = .shutdown := ha
      cases hcloses
    · obtain rfl : a = .drop := ha
      cases hcloses
    · exact absurd ha (hreply o)

/-- Replies are taken when they are given, and a submission whose reply is still to be taken keeps
its entry as long as it has time. -/
structure Prompt (t : Traffic β α) : Prop where
  pending : ∀ s ∈ t.submitted, s.pending.id ∉ t.consumed.map (·.id) →
    t.now < s.pending.expiresAt → s.pending ∈ t.gateway.engine.entries
  moment : ∀ a ∈ t.answered, a.reply ∈ t.replies.contents → a.moment = t.now
  arrived : ∀ a ∈ t.answered, a.reply ∈ t.consumed → ∀ s ∈ t.submitted,
    s.pending.id = a.job.id → a.moment < s.pending.expiresAt →
    t.gateway.engine.outcome? s.pending.ticket = some a.result

namespace Prompt

variable {t t' : Traffic β α}

theorem opening (e : Engine α) (capacity : Nat) (now : Duration) :
    (Traffic.opening e capacity now : Traffic β α).Prompt :=
  ⟨by simp [Traffic.opening], by simp [Traffic.opening], by simp [Traffic.opening]⟩

/-- Where nothing is submitted, answered or consumed, only the channel of replies may shrink. -/
theorem frame (h : t.Prompt) (hengine : t'.gateway.engine = t.gateway.engine)
    (hsubmitted : t'.submitted = t.submitted) (hanswered : t'.answered = t.answered)
    (hconsumed : t'.consumed = t.consumed) (hnow : t'.now = t.now)
    (hreplies : t'.replies.contents ⊆ t.replies.contents) : t'.Prompt where
  pending := by
    rw [hengine, hsubmitted, hconsumed, hnow]
    exact h.pending
  moment a ha hr := by
    rw [hnow]
    exact h.moment a (hanswered ▸ ha) (hreplies hr)
  arrived := by
    rw [hengine, hsubmitted, hanswered, hconsumed]
    exact h.arrived

/-- An action of others, a shutdown excepted, leaves all that is in time alone. -/
theorem perform (h : t.Prompt) (hs : t.Sound) {a : Action α} (hcloses : a.closes = false)
    (hreply : ∀ s ∈ t.submitted, ∀ o, a ≠ .reply s.pending.id o) :
    Prompt { t with gateway := { t.gateway with
      engine := (t.gateway.engine.perform t.now a).1 } } where
  pending s hmem hnot htime := mem_perform_of_pending hs.known.wellFormed
    (h.pending s hmem hnot htime) htime hcloses (hreply s hmem)
  moment := h.moment
  arrived b hb hr s hmem hid htime := (Engine.outcome?_perform hs.known.wellFormed).mpr
    (.inr (h.arrived b hb hr s hmem hid htime))

theorem submit (h : t.Prompt) (hs : t.Sound) (hends : t.EndsInOrder) (name : String) (body : β)
    (timeout : Option Duration) : (t.submit name body timeout).Prompt := by
  have hsound := hs.submit name body timeout
  have hquiet := h.perform hs (a := .registerNew name timeout) rfl
    fun s _ o ha => by cases o <;> cases ha
  obtain heq | ⟨id, ticket, requests, hr, -, -, heq⟩ | ⟨id, hsent, hnone, -⟩ | heq :=
    t.submit_cases name body timeout
  · rw [heq]
    exact h
  · rw [heq] at hsound ⊢
    refine ⟨?_, h.moment, ?_⟩
    · intro s hmem hnot htime
      rcases List.mem_append.mp hmem with hmem | hmem
      · exact hquiet.pending s hmem hnot htime
      · obtain rfl := List.mem_singleton.mp hmem
        refine (Engine.mem_perform hs.known.wellFormed (a := .registerNew name timeout)).mpr
          (.inr ?_)
        simp [Engine.entry, Engine.perform, Correlation.Entry.made?, hr,
          Correlation.Registration.pending?]
    · intro a ha hreply s hmem hid htime
      rcases List.mem_append.mp hmem with hmem | hmem
      · exact hquiet.arrived a ha hreply s hmem hid htime
      · -- What was answered had been submitted before.
        obtain rfl := List.mem_singleton.mp hmem
        have hjob : a.job ∈ t.invoked := hs.noCrossDelivery.answeredFor a ha
        obtain ⟨s, hold, hid', -⟩ := hs.submitted_of_invoked hjob
        have hids := hsound.known.ids_nodup
        rw [List.map_append, List.nodup_append] at hids
        exact absurd (hid'.trans hid.symm)
          (hids.2.2 _ (List.mem_map_of_mem hold) _ (List.mem_singleton.mpr rfl))
  · exact absurd hnone (hends.send?_ne_none hsent _)
  · rw [heq]
    exact hquiet

theorem finish (h : t.Prompt) (hs : t.Sound) (hends : t.EndsInOrder) (number : Nat)
    (result : Except Failure α) : (t.finish number result).Prompt := by
  have hsound : (t.finish number result).Sound := hs.step (.finish number result)
  obtain heq | ⟨job, replies, -, hsend, heq⟩ := hends.finish_cases number result
  · rw [heq]
    exact h
  · rw [heq] at hsound ⊢
    let new : Answered β α := ⟨job, result, t.now, true⟩
    have hone : ∀ a ∈ t.answered, a.reply.id ≠ new.reply.id := by
      have hnodup : ((t.answered ++ [new]).map (·.job.id)).Nodup := hsound.answered_nodup
      rw [List.map_append, List.nodup_append] at hnodup
      exact fun a ha => hnodup.2.2 _ (List.mem_map_of_mem ha) _ (List.mem_singleton.mpr rfl)
    refine ⟨h.pending, ?_, ?_⟩
    · refine List.forall_mem_append.mpr ⟨fun a ha hr => ?_, List.forall_mem_singleton.mpr ?_⟩
      · have hr : a.reply ∈ replies.contents := hr
        rw [Channel.contents_send? hsend] at hr
        rcases List.mem_append.mp hr with hr | hr
        · exact h.moment a ha hr
        · exact absurd (congrArg Reply.id (List.mem_singleton.mp hr)) (hone a ha)
      · exact fun _ => rfl
    · refine List.forall_mem_append.mpr ⟨h.arrived, List.forall_mem_singleton.mpr fun hr => ?_⟩
      -- A job that is just ending has had no reply before.
      have hold : new.reply ∈ t.answered.map (·.reply) :=
        hs.ledger.replies.mem_iff.mpr (.inl hr)
      obtain ⟨b, hb, hreply⟩ := List.mem_map.mp hold
      exact absurd (congrArg Reply.id hreply) (hone b hb)

/-- A reply that is taken at its moment reaches its party if there is still time. -/
theorem deliver (h : t.Prompt) (hs : t.Sound) : t.deliver.Prompt := by
  unfold Traffic.deliver
  split
  next gateway hg =>
    obtain ⟨-, reply, replies, hr, rfl⟩ := Gateway.deliver?_eq_some hg
    have hcontents : t.replies.contents = reply :: replies.contents :=
      Channel.contents_receive? hr
    have htake : t.replies.items.take 1 = [reply] := by
      rw [Traffic.replies, (Channel.items_of_receive? hr).1]
      rfl
    -- The reply has not been taken before.
    have hnew : reply.id ∉ t.consumed.map (·.id) := by
      intro hmem
      have honce := hs.noCrossDelivery.repliesOnce
      rw [hcontents, List.append_assoc, List.map_append, List.nodup_append] at honce
      exact honce.2.2 _ hmem _ (by simp) rfl
    refine ⟨?_, ?_, ?_⟩
    · intro s hmem hnot htime
      change s.pending.id ∉ (t.consumed ++ t.replies.items.take 1).map (·.id) at hnot
      rw [htake, List.map_append, List.mem_append, not_or] at hnot
      have hne : reply.id ≠ s.pending.id := fun hid => hnot.2 (by simp [hid])
      show s.pending ∈ (t.gateway.engine.resolve t.now reply.id reply.result).1.entries
      rw [Engine.resolve_eq_perform]
      exact mem_perform_of_pending hs.known.wellFormed (h.pending s hmem hnot.1 htime) htime
        (Engine.closes_reply _ _) fun o ha => hne (Engine.reply_inj.mp ha).1
    · intro b hb hmem
      exact h.moment b hb (hcontents ▸ List.mem_cons_of_mem _ hmem)
    · intro b hb hmem s hsub hid htime
      show (t.gateway.engine.resolve t.now reply.id reply.result).1.outcome? _ = _
      change b.reply ∈ t.consumed ++ t.replies.items.take 1 at hmem
      rw [htake] at hmem
      rcases List.mem_append.mp hmem with hmem | hmem
      · rw [Engine.resolve_eq_perform]
        exact (Engine.outcome?_perform hs.known.wellFormed).mpr
          (.inr (h.arrived b hb hmem s hsub hid htime))
      · obtain rfl := List.mem_singleton.mp hmem
        have hmoment : b.moment = t.now := h.moment b hb (by rw [hcontents]; simp)
        rw [hmoment] at htime
        have hid : s.pending.id = b.reply.id := hid
        have hentry := h.pending s hsub (hid ▸ hnew) htime
        rw [← hid]
        exact Engine.outcome?_resolve hs.known.wellFormed hentry htime b.result
  next => exact h

theorem act (h : t.Prompt) (hs : t.Sound) {a : Action α} (hm : t.Undisturbed (.engine a)) :
    (t.act a).Prompt := by
  unfold Traffic.act
  split
  next hleaves =>
    have hcloses : a.closes = false := by
      cases a with
      | shutdown => exact hm.elim
      | drop => cases hleaves
      | register | registerNew | complete | fail | sweep => rfl
    exact h.perform hs hcloses fun s hmem o => reply_ne_of_leaves hleaves hmem o
  next => exact h

theorem elapse (h : t.Prompt) (hends : t.EndsInOrder) (hq : t.Quiescent) (span : Duration) :
    Prompt { t with now := t.now + span } where
  pending s hmem hnot htime := by
    refine h.pending s hmem hnot ?_
    have htime : t.now.nanos + span.nanos < s.pending.expiresAt.nanos := htime
    rw [Duration.lt_def]
    omega
  moment a ha hr := by
    have hr : a.reply ∈ t.replies.contents := hr
    rw [(hends.contents_of_quiescent hq).2] at hr
    cases hr
  arrived := h.arrived

theorem step (h : t.Prompt) (hs : t.Sound) (hends : t.EndsInOrder) {m : Move β α}
    (hm : t.Undisturbed m) : (t.step m).Prompt := by
  cases m with
  | submit name body timeout => exact h.submit hs hends name body timeout
  | take =>
    show t.take.Prompt
    unfold Traffic.take
    split
    next job worker hw =>
      obtain ⟨-, -, m, requests, -, -, rfl⟩ := Worker.take?_eq_some hw
      exact h.frame rfl rfl rfl rfl rfl (List.Subset.refl _)
    next => exact h
  | finish number result => exact h.finish hs hends number result
  | crash number => exact hm.elim
  | deliver => exact h.deliver hs
  | fire => exact hm.elim
  | notice =>
    show t.notice.Prompt
    rw [hends.notice_eq]
    exact h
  | giveUp number =>
    show (t.giveUp number).Prompt
    rw [hends.giveUp_eq]
    exact h
  | stopListening =>
    show t.stopListening.Prompt
    unfold Traffic.stopListening
    split
    next => exact h.frame rfl rfl rfl rfl rfl (List.nil_subset _)
    next => exact h
  | close =>
    show t.close.Prompt
    unfold Traffic.close
    split
    next worker hw =>
      obtain ⟨-, -, rfl⟩ := Worker.close?_eq_some hw
      exact h.frame rfl rfl rfl rfl rfl (List.Subset.refl _)
    next => exact h
  | endWorker =>
    show t.endWorker.Prompt
    obtain heq | ⟨-, -, heq⟩ := hends.endWorker_cases
    · rw [heq]
      exact h
    · rw [heq]
      exact h.frame rfl rfl rfl rfl rfl (List.Subset.refl _)
  | drop => exact h.frame rfl rfl rfl rfl rfl (List.Subset.refl _)
  | engine a => exact h.act hs hm
  | elapse span => exact h.elapse hends hm span

end Prompt

/-! ## Coming to rest -/

end Traffic

/-- Whether a move is made by the worker or the listener by themselves. -/
def Move.isOwn : Move β α → Bool
  | .take | .deliver | .close | .endWorker | .stopListening => true
  | _ => false

namespace Traffic

/-- What the bus does until everybody waits it does in such moves. -/
theorem settle_eq_run (t : Traffic β α) (fuel : Nat) (p : Gateway.Progress β) :
    ∃ moves : List (Move β α), (∀ m ∈ moves, m.isOwn = true) ∧ (t.run moves).now = t.now ∧
      (t.gateway.settle t.now fuel p).1 = (t.run moves).gateway := by
  induction fuel generalizing t p with
  | zero => exact ⟨[], by simp, rfl, rfl⟩
  | succ fuel ih =>
    -- Whichever move comes first, the rest follows by induction from where it leads.
    have hcons : ∀ (m : Move β α) (gateway : Gateway β α) (p : Gateway.Progress β),
        m.isOwn = true → (t.step m).gateway = gateway → (t.step m).now = t.now →
        ∃ moves : List (Move β α), (∀ m ∈ moves, m.isOwn = true) ∧ (t.run moves).now = t.now ∧
          (gateway.settle t.now fuel p).1 = (t.run moves).gateway := by
      rintro m gateway p hown rfl hnow
      obtain ⟨moves, hall, hmoves, heq⟩ := ih (t.step m) p
      rw [hnow] at hmoves heq
      exact ⟨m :: moves, List.forall_mem_cons.mpr ⟨hown, hall⟩, hmoves, heq⟩
    unfold Gateway.settle
    split
    next job worker htake =>
      have hstep : t.step .take =
          { t.withWorker worker with invoked := t.invoked ++ [job] } := by
        simp only [step, take, htake]
      exact hcons .take _ _ rfl (by rw [hstep]; rfl) (by rw [hstep]; rfl)
    next htake =>
      split
      next gateway hdeliver =>
        have hstep : t.step .deliver =
            { t with gateway, consumed := t.consumed ++ t.replies.items.take 1 } := by
          simp only [step, deliver, hdeliver]
        exact hcons .deliver _ _ rfl (by rw [hstep]) (by rw [hstep])
      next hdeliver =>
        split
        next worker hclose =>
          have hstep : t.step .close = t.withWorker worker := by
            simp only [step, close, hclose]
          exact hcons .close _ _ rfl (by rw [hstep]; rfl) (by rw [hstep]; rfl)
        next hclose =>
          split
          next gateway refused hend =>
            have hstep : t.step .endWorker = { t with
                gateway
                lostRequests := t.lostRequests ++ (t.requests.items ++ t.requests.waiting) } := by
              simp only [step, endWorker, hend]
            exact hcons .endWorker _ _ rfl (by rw [hstep]) (by rw [hstep])
          next hend =>
            split
            next hlisten =>
              have hstep : t.step .stopListening = { t with
                  gateway := t.gateway.stopListening
                  lostReplies := t.lostReplies ++ (t.replies.items ++ t.replies.waiting) } := by
                simp only [step, stopListening]
                rw [if_pos ⟨hlisten.1, .inr hlisten.2⟩]
              exact hcons .stopListening _ _ rfl (by rw [hstep]) (by rw [hstep])
            next => exact ⟨[], by simp, rfl, rfl⟩

/-- From every state the worker and the listener alone lead to one in which everybody waits. -/
theorem exists_quiescent (t : Traffic β α) :
    ∃ moves : List (Move β α), (∀ m ∈ moves, m.isOwn = true) ∧ (t.run moves).Quiescent := by
  obtain ⟨moves, hown, hnow, heq⟩ := t.settle_eq_run t.gateway.steps {}
  refine ⟨moves, hown, ?_⟩
  rw [Quiescent, ← heq, hnow]
  exact t.gateway.settle_atRest t.now {}

/-! ## Conservation -/

/-- The requests whose submitters have been told that they are sent. -/
def accepted (t : Traffic β α) : List (Submitted β) :=
  t.submitted.filter fun s => !t.gateway.isWaiting s.pending.id

/-- The identifiers of all that is in the channel of requests, being handled, on its way back or
taken by the listener. -/
def places (t : Traffic β α) : List Id :=
  t.requests.items.map (·.id) ++ t.jobs.map (·.id) ++
    (t.replies.waiting.map (·.id) ++ t.replies.items.map (·.id)) ++ t.consumed.map (·.id)

/-- Every accepted request is in exactly one place, and every reply comes from the handler. When
everybody waits, the channels are empty and no submitter waits for room, and whoever was answered
before the deadline has got the answer. It never takes more than the worker and the listener to get
there. -/
structure Conserved (t : Traffic β α) : Prop where
  places : (t.accepted.map (·.pending.id)).Perm t.places
  distinct : t.places.Nodup
  byHandler : ∀ a ∈ t.answered, a.byHandler = true
  requestsEmpty : t.Quiescent → t.requests.items = [] ∧ t.requests.waiting = []
  repliesEmpty : t.Quiescent → t.replies.items = [] ∧ t.replies.waiting = []
  rests : ∃ moves : List (Move β α), (∀ m ∈ moves, m.isOwn = true) ∧ (t.run moves).Quiescent
  arrived : t.Quiescent → ∀ a ∈ t.answered, ∀ s ∈ t.submitted, s.pending.id = a.job.id →
    a.moment < s.pending.expiresAt →
    t.gateway.engine.outcome? s.pending.ticket = some a.result

theorem filter_not_mem {γ : Type} [DecidableEq γ] {l a w : List γ} (h : l.Perm (a ++ w))
    (hl : l.Nodup) : (l.filter fun x => !w.contains x).Perm a := by
  have hdisjoint := List.nodup_append.mp (h.nodup_iff.mp hl)
  have hfilter := h.filter fun x => !w.contains x
  have ha : a.filter (fun x => !w.contains x) = a :=
    List.filter_eq_self.mpr fun x hx => by
      have hnot : x ∉ w := fun hw => hdisjoint.2.2 x hx x hw rfl
      simpa using hnot
  have hw : w.filter (fun x => !w.contains x) = [] :=
    List.filter_eq_nil_iff.mpr fun x hx => by simpa using hx
  rwa [List.filter_append, ha, hw, List.append_nil] at hfilter

theorem accepted_perm {t : Traffic β α} (hs : t.Sound) (hends : t.EndsInOrder) :
    (t.accepted.map (·.pending.id)).Perm t.places := by
  have hrequests : (t.submitted.map (·.pending.id)).Perm
      (t.invoked.map (·.id) ++ t.requests.items.map (·.id) ++ t.requests.waiting.map (·.id)) := by
    have hids := hs.ledger.requests.map Prod.fst
    simpa [Accounts, hends.noRequestLost, Channel.contents, Submitted.key, Job.key, Message.key,
      Function.comp_def] using hids
  have hjobs : (t.invoked.map (·.id)).Perm
      (t.answered.map (·.job.id) ++ t.jobs.map (·.id)) := by
    have hids := hs.ledger.jobs.map (·.id)
    simpa [Accounts, hends.nothingCrashed, Function.comp_def] using hids
  have hreplies : (t.answered.map (·.job.id)).Perm
      (t.consumed.map (·.id) ++ (t.replies.items.map (·.id) ++ t.replies.waiting.map (·.id))) := by
    have hids := hs.ledger.replies.map (·.id)
    simpa [Accounts, hends.noReplyLost, Channel.contents, Function.comp_def,
      Answered.reply] using hids
  have hwaiting : ∀ id, t.gateway.isWaiting id =
      (t.requests.waiting.map (·.id)).contains id := fun id => by
    rw [Bool.eq_iff_iff, Gateway.isWaiting, List.any_eq_true, List.contains_iff_mem, List.mem_map]
    simp only [beq_iff_eq]
    rfl
  have haccepted : t.accepted.map (·.pending.id) =
      (t.submitted.map (·.pending.id)).filter fun id =>
        !(t.requests.waiting.map (·.id)).contains id := by
    rw [List.filter_map, accepted]
    congr 1
    exact List.filter_congr fun s _ => by rw [hwaiting, Function.comp_apply]
  rw [haccepted]
  refine (filter_not_mem hrequests hs.known.ids_nodup).trans (List.perm_iff_count.mpr fun id => ?_)
  have hcountJobs := hjobs.count_eq id
  have hcountReplies := hreplies.count_eq id
  simp only [places, List.count_append] at hcountJobs hcountReplies ⊢
  omega

theorem conserved {t : Traffic β α} (hs : t.Sound) (hends : t.EndsInOrder) (hprompt : t.Prompt) :
    t.Conserved where
  places := accepted_perm hs hends
  distinct := by
    have hsub : (t.accepted.map (·.pending.id)).Sublist (t.submitted.map (·.pending.id)) :=
      List.filter_sublist.map _
    have hids := hs.known.ids_nodup.sublist hsub
    exact (accepted_perm hs hends).nodup_iff.mp hids
  byHandler := hends.byHandler
  requestsEmpty hq := List.append_eq_nil_iff.mp (hends.contents_of_quiescent hq).1
  repliesEmpty hq := List.append_eq_nil_iff.mp (hends.contents_of_quiescent hq).2
  rests := t.exists_quiescent
  arrived hq a ha s hmem hid htime := by
    have hreply : a.reply ∈ t.consumed := by
      have hmem : a.reply ∈ t.answered.map (·.reply) := List.mem_map_of_mem ha
      obtain hc | hc | hc := hs.ledger.replies.mem_iff.mp hmem
      · exact hc
      · rw [(hends.contents_of_quiescent hq).2] at hc
        cases hc
      · rw [hends.noReplyLost] at hc
        cases hc
    exact hprompt.arrived a ha hreply s hmem hid htime

theorem invariants_of_orderly {t : Traffic β α} {moves : List (Move β α)} (hs : t.Sound)
    (hends : t.EndsInOrder) (hprompt : t.Prompt) (h : t.Orderly moves) :
    (t.run moves).Sound ∧ (t.run moves).EndsInOrder ∧ (t.run moves).Prompt := by
  induction moves generalizing t with
  | nil => exact ⟨hs, hends, hprompt⟩
  | cons m moves ih =>
    exact ih (hs.step m) (hends.step h.1) (hprompt.step hs hends h.1) h.2

/-- On an undisturbed bus of any capacity, also none, that starts on any engine nothing is lost,
and nobody waits for ever. -/
theorem run_conserved (timeout : Duration) (past : List (Duration × Action α)) (capacity : Nat)
    (start : Duration) (moves : List (Move β α))
    (h : (Traffic.opening ((Engine.fresh timeout).run past) capacity start).Orderly moves) :
    ((Traffic.opening ((Engine.fresh timeout).run past) capacity start).run moves).Conserved := by
  have hengine : ((Engine.fresh timeout : Engine α).run past).WellFormed :=
    Engine.run_wellFormed (Engine.wellFormed_fresh timeout) past
  obtain ⟨hs, hends, hprompt⟩ := invariants_of_orderly (Sound.opening hengine capacity start)
    (EndsInOrder.opening _ capacity start) (Prompt.opening _ capacity start) h
  exact conserved hs hends hprompt

/-- Two requests on channels that hold one item each: the second waits for room, and so does the
reply to the first. -/
def twoRequests : List (Move Nat Nat) :=
  [.submit "first" 1 none, .submit "second" 2 none, .take, .take, .finish 1 (.ok 20),
    .finish 0 (.ok 10), .deliver, .deliver, .elapse (.ofSeconds 1)]

theorem twoRequests_conserved :
    ((Traffic.opening ((Engine.fresh (.ofSeconds 60)).run []) 0 .zero).run
      twoRequests).Conserved := by
  refine run_conserved (.ofSeconds 60) [] 0 .zero twoRequests ?_
  refine ⟨trivial, trivial, trivial, trivial, trivial, trivial, trivial, trivial, ?_, trivial⟩
  exact ⟨rfl, rfl, rfl, rfl, fun h => Bool.noConfusion h.2⟩

end Traffic

end AgentGateway.Bus
