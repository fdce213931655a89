import AgentGateway.Proofs.Bus.Delivery
import AgentGateway.Proofs.Bus.Rest

/-!
# An undisturbed bus

A bus is undisturbed as long as nobody tells it to stop, the engine is not shut down, no handler
crashes, and time passes only while everybody waits. Its parts then end in order, the worker not
before its requests and the listener not before the worker, and nobody waits for room in an empty
channel (`Traffic.EndsInOrder`). So when everybody waits both channels are empty, however small they
are and however much was submitted (`Traffic.EndsInOrder.contents_of_quiescent`).
-/

namespace AgentGateway.Bus

open Correlation (Action Engine Id Outcome Pending)

variable {β α : Type}

/-! ## Channels with room -/

namespace Channel

variable {c c' : Channel α} {x : α}

structure NoIdleWaiters (c : Channel α) : Prop where
  capacity : 0 < c.capacity
  waiting : c.items = [] → c.waiting = []

theorem receive?_eq_none : c.receive? = none ↔ c.items = [] := by
  unfold receive?
  split
  next x rest hi => simp [hi]
  next hi => simp [hi]

theorem NoIdleWaiters.contents_eq_nil (h : c.NoIdleWaiters) (hnone : c.receive? = none) :
    c.contents = [] := by
  have hi := receive?_eq_none.mp hnone
  rw [contents, hi, h.waiting hi]
  rfl

theorem send?_eq_some (hr : c.received = true) : ∃ c', c.send? x = some c' := by
  unfold send?
  rw [hr]
  split
  next h => cases h
  next => split <;> exact ⟨_, rfl⟩

theorem send?_frame (h : c.send? x = some c') :
    c'.capacity = c.capacity ∧ c'.received = c.received ∧ c'.sent = c.sent := by
  unfold send? at h
  split at h
  · cases h
  · split at h <;> obtain rfl := Option.some.inj h <;> exact ⟨rfl, rfl, rfl⟩

theorem NoIdleWaiters.send? (h : c.NoIdleWaiters) (hs : c.send? x = some c') :
    c'.NoIdleWaiters := by
  refine ⟨(send?_frame hs).1 ▸ h.capacity, ?_⟩
  unfold Channel.send? at hs
  split at hs
  · cases hs
  · split at hs
    next =>
      obtain rfl := Option.some.inj hs
      simp
    next hroom =>
      obtain rfl := Option.some.inj hs
      -- The sender waits because others do, or because the channel is full.
      intro hi
      have hi : c.items = [] := hi
      have hw := h.waiting hi
      have hpos := h.capacity
      simp [hasRoom, hi, hw] at hroom
      omega

theorem moveUp_frame (c : Channel α) :
    c.moveUp.capacity = c.capacity ∧ c.moveUp.received = c.received ∧ c.moveUp.sent = c.sent := by
  unfold moveUp
  split
  · split <;> exact ⟨rfl, rfl, rfl⟩
  · exact ⟨rfl, rfl, rfl⟩

theorem receive?_frame (h : c.receive? = some (x, c')) :
    c'.capacity = c.capacity ∧ c'.received = c.received ∧ c'.sent = c.sent := by
  obtain ⟨-, rfl⟩ := items_of_receive? h
  exact moveUp_frame _

theorem NoIdleWaiters.receive? (h : c.NoIdleWaiters) (hr : c.receive? = some (x, c')) :
    c'.NoIdleWaiters := by
  refine ⟨(receive?_frame hr).1 ▸ h.capacity, ?_⟩
  obtain ⟨-, rfl⟩ := items_of_receive? hr
  generalize c.items.tail = rest
  have hpos := h.capacity
  unfold moveUp
  split
  next y waiting hw =>
    split
    next => simp
    next hfull =>
      intro hi
      have hi : rest = [] := hi
      have hfull : ¬ rest.length < c.capacity := hfull
      rw [hi] at hfull
      exact absurd hpos hfull
  next hw => exact fun _ => hw

theorem NoIdleWaiters.hangUp
    (h : c.NoIdleWaiters) : c.hangUp.NoIdleWaiters := ⟨h.capacity, fun _ => rfl⟩

theorem NoIdleWaiters.finish
    (h : c.NoIdleWaiters) : c.finish.NoIdleWaiters := ⟨h.capacity, h.waiting⟩

theorem isExhausted_iff : c.isExhausted = true ↔ c.sent = false ∧ c.contents = [] := by
  simp [isExhausted, contents, and_assoc]

end Channel

namespace Traffic

/-! ## Moves of an undisturbed bus -/

def Quiescent (t : Traffic β α) : Prop := t.gateway.AtRest t.now

/-- Whether a move leaves the bus undisturbed: nobody tells it to stop or shuts the engine down,
no handler crashes, and time passes only while everybody waits. -/
def Undisturbed (t : Traffic β α) : Move β α → Prop
  | .fire | .crash _ | .engine .shutdown => False
  | .elapse _ => t.Quiescent
  | _ => True

/-- Whether all moves of a run leave the bus undisturbed. -/
def Orderly (t : Traffic β α) : List (Move β α) → Prop
  | [] => True
  | m :: moves => t.Undisturbed m ∧ Orderly (t.step m) moves

/-- The parts of the bus end in order, and only once they have nothing left to do. The worker takes
requests until there are none and will be none, and ends once all of them have been handled; the
listener takes replies until there are none and will be none. -/
structure EndsInOrder (t : Traffic β α) : Prop where
  notFired : t.fired = false
  notCancelled : t.gateway.worker.cancelled = false
  requestsBusy : t.requests.NoIdleWaiters
  repliesBusy : t.replies.NoIdleWaiters
  closed : t.gateway.worker.phase ≠ .serving → t.requests.sent = false ∧ t.requests.contents = []
  received : t.gateway.worker.phase ≠ .ended → t.requests.received = true
  handled : t.gateway.worker.phase = .ended → t.jobs = []
  answering : t.gateway.worker.phase ≠ .ended → t.replies.sent = true
  listening : t.gateway.listening = true → t.replies.received = true
  heard : t.gateway.listening = false → t.replies.sent = false ∧ t.replies.contents = []
  byHandler : ∀ a ∈ t.answered, a.byHandler = true
  nothingCrashed : t.crashed = []
  noRequestLost : t.lostRequests = []
  noReplyLost : t.lostReplies = []

namespace EndsInOrder

variable {t : Traffic β α}

theorem opening (e : Engine α) (capacity : Nat) (now : Duration) :
    (Traffic.opening e capacity now : Traffic β α).EndsInOrder where
  notFired := rfl
  notCancelled := rfl
  requestsBusy := ⟨Nat.lt_of_lt_of_le Nat.one_pos (Nat.le_max_right capacity 1), fun _ => rfl⟩
  repliesBusy := ⟨Nat.lt_of_lt_of_le Nat.one_pos (Nat.le_max_right capacity 1), fun _ => rfl⟩
  closed h := absurd rfl h
  received _ := rfl
  handled h := by cases h
  answering _ := rfl
  listening _ := rfl
  heard h := by cases h
  byHandler a ha := by cases ha
  nothingCrashed := rfl
  noRequestLost := rfl
  noReplyLost := rfl

theorem received_of_sent (h : t.EndsInOrder) (hs : t.requests.sent = true) :
    t.gateway.worker.phase = .serving ∧ t.requests.received = true := by
  have hserving : t.gateway.worker.phase = .serving := by
    by_contra hphase
    rw [(h.closed hphase).1] at hs
    cases hs
  exact ⟨hserving, h.received (by simp [hserving])⟩

theorem not_ended_of_job (h : t.EndsInOrder) {number : Nat} {job : Job β}
    (hjob : t.gateway.worker.job? number = some job) : t.gateway.worker.phase ≠ .ended := by
  intro hended
  have hmem : job ∈ t.jobs := List.mem_of_find?_eq_some hjob
  rw [h.handled hended] at hmem
  cases hmem

theorem listening_of_not_ended (h : t.EndsInOrder) (hphase : t.gateway.worker.phase ≠ .ended) :
    t.gateway.listening = true := by
  cases hl : t.gateway.listening with
  | true => rfl
  | false =>
    have hsent := h.answering hphase
    rw [(h.heard hl).1] at hsent
    cases hsent

/-- A submission on an undisturbed bus is never taken back. -/
theorem send?_ne_none (h : t.EndsInOrder) (hsent : t.requests.sent = true) (m : Message β) :
    t.requests.send? m ≠ none := by
  obtain ⟨requests, hs⟩ := Channel.send?_eq_some (x := m) (h.received_of_sent hsent).2
  rw [hs]
  exact Option.some_ne_none requests

theorem submit (h : t.EndsInOrder) (name : String) (body : β) (timeout : Option Duration) :
    (t.submit name body timeout).EndsInOrder := by
  obtain heq | ⟨id, ticket, requests, -, hsent, hs, heq⟩ | ⟨id, hsent, hnone, -⟩ | heq :=
    t.submit_cases name body timeout
  · rw [heq]
    exact h
  · rw [heq]
    obtain ⟨hserving, hreceived⟩ := h.received_of_sent hsent
    exact { h with
      requestsBusy := h.requestsBusy.send? hs
      closed := fun hphase => absurd hserving hphase
      received := fun _ => (Channel.send?_frame hs).2.1.trans hreceived }
  · exact absurd hnone (h.send?_ne_none hsent _)
  · rw [heq]
    exact { h with }

theorem take (h : t.EndsInOrder) : t.take.EndsInOrder := by
  unfold Traffic.take
  split
  next job worker hw =>
    obtain ⟨hserving, -, m, requests, hr, -, rfl⟩ := Worker.take?_eq_some hw
    exact { h with
      requestsBusy := h.requestsBusy.receive? hr
      closed := fun hphase => absurd hserving hphase
      received := fun hphase => (Channel.receive?_frame hr).2.1.trans (h.received hphase)
      handled := fun hended => by
        have hended : t.gateway.worker.phase = .ended := hended
        rw [hserving] at hended
        cases hended }
  next => exact h

theorem finish_cases (h : t.EndsInOrder) (number : Nat) (result : Except Failure α) :
    t.finish number result = t ∨ ∃ job replies, t.gateway.worker.job? number = some job ∧
      t.replies.send? ⟨job.id, result⟩ = some replies ∧
      t.finish number result = t.conclude ⟨job, result, t.now, true⟩
        { t.gateway.worker.removeJob number with replies } true := by
  unfold Traffic.finish
  split
  next job hjob =>
    have hreceived := h.listening (h.listening_of_not_ended (h.not_ended_of_job hjob))
    obtain ⟨replies, hs⟩ := Channel.send?_eq_some (x := (⟨job.id, result⟩ : Reply α)) hreceived
    have hs' : t.gateway.worker.replies.send? ⟨job.id, result⟩ = some replies := hs
    refine .inr ⟨job, replies, hjob, hs, ?_⟩
    rw [Worker.finish_eq hjob, hs, hs']
    rfl
  next => exact .inl rfl

theorem finish (h : t.EndsInOrder) (number : Nat) (result : Except Failure α) :
    (t.finish number result).EndsInOrder := by
  obtain heq | ⟨job, replies, hjob, hs, heq⟩ := h.finish_cases number result
  · rw [heq]
    exact h
  · rw [heq]
    obtain ⟨-, hkeeps, hsent⟩ := Channel.send?_frame hs
    have hphase := h.not_ended_of_job hjob
    have hlistening := h.listening_of_not_ended hphase
    exact { h with
      repliesBusy := h.repliesBusy.send? hs
      handled := fun hended => absurd hended hphase
      answering := fun _ => hsent.trans (h.answering hphase)
      listening := fun _ => hkeeps.trans (h.listening hlistening)
      heard := fun hl => absurd (hlistening.symm.trans hl) Bool.noConfusion
      byHandler := List.forall_mem_append.mpr ⟨h.byHandler, List.forall_mem_singleton.mpr rfl⟩ }

theorem deliver (h : t.EndsInOrder) : t.deliver.EndsInOrder := by
  unfold Traffic.deliver
  split
  next gateway hg =>
    obtain ⟨hl, reply, replies, hr, rfl⟩ := Gateway.deliver?_eq_some hg
    obtain ⟨-, hkeeps, hsent⟩ := Channel.receive?_frame hr
    exact { h with
      repliesBusy := h.repliesBusy.receive? hr
      answering := fun hphase => hsent.trans (h.answering hphase)
      listening := fun hl => hkeeps.trans (h.listening hl)
      heard := fun hl' => by
        have hl' : t.gateway.listening = false := hl'
        rw [hl] at hl'
        cases hl' }
  next => exact h

theorem stopListening (h : t.EndsInOrder) : t.stopListening.EndsInOrder := by
  unfold Traffic.stopListening
  split
  next hstop =>
    have hexhausted : t.replies.isExhausted = true := by simpa [h.notFired] using hstop.2
    obtain ⟨hsent, hnone⟩ := Channel.isExhausted_iff.mp hexhausted
    exact { h with
      repliesBusy := h.repliesBusy.hangUp
      listening := fun hl => by cases hl
      heard := fun _ => ⟨hsent, rfl⟩
      noReplyLost := by
        show t.lostReplies ++ t.replies.contents = []
        rw [h.noReplyLost, hnone]
        rfl }
  next => exact h

theorem close (h : t.EndsInOrder) : t.close.EndsInOrder := by
  unfold Traffic.close
  split
  next worker hw =>
    obtain ⟨hserving, hclose, rfl⟩ := Worker.close?_eq_some hw
    have hexhausted : t.gateway.worker.requests.isExhausted = true := by
      simpa [h.notCancelled] using hclose
    exact { h with
      closed := fun _ => Channel.isExhausted_iff.mp hexhausted
      received := fun _ => h.received (by simp [hserving])
      handled := fun hended => by cases hended
      answering := fun _ => h.answering (by simp [hserving]) }
  next => exact h

/-- When the worker of an undisturbed bus ends there is nobody left to refuse. -/
theorem endWorker_cases (h : t.EndsInOrder) :
    t.endWorker = t ∨ t.gateway.worker.phase = .closing ∧ t.jobs = [] ∧
      t.endWorker = t.withWorker { t.gateway.worker with
        phase := .ended
        requests := t.requests.hangUp
        replies := t.replies.finish } := by
  unfold Traffic.endWorker
  split
  next gateway refused hg =>
    obtain ⟨worker, hw, rfl, rfl⟩ := Gateway.endWorker?_eq_some hg
    obtain ⟨hclosing, hjobs, -, rfl⟩ := Worker.end?_eq_some hw
    have hnone : t.requests.contents = [] := (h.closed (by simp [hclosing])).2
    have hwaiting : t.gateway.worker.requests.waiting = [] := (List.append_eq_nil_iff.mp hnone).2
    have hitems : t.gateway.worker.requests.items = [] := (List.append_eq_nil_iff.mp hnone).1
    refine .inr ⟨hclosing, hjobs, ?_⟩
    simp [withWorker, Traffic.requests, Traffic.replies, hwaiting, hitems]
  next => exact .inl rfl

theorem endWorker (h : t.EndsInOrder) : t.endWorker.EndsInOrder := by
  obtain heq | ⟨hclosing, hjobs, heq⟩ := h.endWorker_cases
  · rw [heq]
    exact h
  · rw [heq]
    obtain ⟨hsent, -⟩ := h.closed (by simp [hclosing])
    exact { h with
      requestsBusy := h.requestsBusy.hangUp
      repliesBusy := h.repliesBusy.finish
      closed := fun _ => ⟨hsent, rfl⟩
      received := fun hphase => absurd rfl hphase
      handled := fun _ => hjobs
      answering := fun hphase => absurd rfl hphase
      heard := fun hl => ⟨rfl, (h.heard hl).2⟩ }

theorem act (h : t.EndsInOrder) (a : Action α) : (t.act a).EndsInOrder := by
  unfold Traffic.act
  split
  next => exact { h with }
  next => exact h

theorem notice_eq (h : t.EndsInOrder) : t.notice = t := by simp [notice, h.notFired]

theorem giveUp_eq (h : t.EndsInOrder) (number : Nat) : t.giveUp number = t := by
  unfold Traffic.giveUp
  split
  next => rw [if_neg (by simp [h.notFired])]
  next => rfl

theorem step (h : t.EndsInOrder) {m : Move β α} (hm : t.Undisturbed m) :
    (t.step m).EndsInOrder := by
  cases m with
  | submit name body timeout => exact h.submit name body timeout
  | take => exact h.take
  | finish number result => exact h.finish number result
  | crash number => exact hm.elim
  | deliver => exact h.deliver
  | fire => exact hm.elim
  | notice =>
    show t.notice.EndsInOrder
    rw [h.notice_eq]
    exact h
  | giveUp number =>
    show (t.giveUp number).EndsInOrder
    rw [h.giveUp_eq]
    exact h
  | stopListening => exact h.stopListening
  | close => exact h.close
  | endWorker => exact h.endWorker
  | drop =>
    exact { h with
      requestsBusy := h.requestsBusy.finish
      closed := fun hphase => ⟨rfl, (h.closed hphase).2⟩ }
  | engine a => exact h.act a
  | elapse span => exact { h with }

theorem contents_of_quiescent (h : t.EndsInOrder) (hq : t.Quiescent) :
    t.requests.contents = [] ∧ t.replies.contents = [] := by
  constructor
  · by_cases hserving : t.gateway.worker.phase = .serving
    · have hnone : t.requests.receive? = none := by
        have htake := hq.take
        unfold Worker.take? at htake
        rw [if_pos ⟨hserving, by simp [h.notCancelled]⟩] at htake
        split at htake
        next => cases htake
        next hr => exact hr
      exact h.requestsBusy.contents_eq_nil hnone
    · exact (h.closed hserving).2
  · cases hl : t.gateway.listening with
    | true =>
      have hnone : t.replies.receive? = none := by
        have hdeliver := hq.deliver
        unfold Gateway.deliver? at hdeliver
        rw [if_pos hl] at hdeliver
        split at hdeliver
        next => cases hdeliver
        next hr => exact hr
      exact h.repliesBusy.contents_eq_nil hnone
    | false => exact (h.heard hl).2

end EndsInOrder

end Traffic

end AgentGateway.Bus
