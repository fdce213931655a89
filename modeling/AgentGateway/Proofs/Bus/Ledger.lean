import AgentGateway.Proofs.Bus.Parts
import AgentGateway.Proofs.Bus.Traffic

/-!
# The ledger of the bus

Whatever is put in has come out, is on the way or was lost. This holds of the requests on their
channel, of the requests that are being handled, and of the replies on their channel, whatever
move is made on a bus of whatever capacity: `Traffic.Ledger.step`.
-/

namespace AgentGateway.Bus

open Correlation (Engine Id)

/-! ## Accounts -/

def Accounts {γ : Type} (put out onWay lost : List γ) : Prop := put.Perm (out ++ onWay ++ lost)

namespace Accounts

variable {γ δ : Type} {put out onWay onWay' lost : List γ}

theorem refl_nil : Accounts ([] : List γ) [] [] [] := List.Perm.refl _

theorem enter (h : Accounts put out onWay lost) (x : γ) :
    Accounts (put ++ [x]) out (onWay ++ [x]) lost := by
  have hx : (put ++ [x]).Perm (out ++ onWay ++ lost ++ [x]) := h.append_right [x]
  refine hx.trans ?_
  have hswap : (lost ++ [x]).Perm ([x] ++ lost) := List.perm_append_comm
  simpa [Accounts] using hswap.append_left (out ++ onWay)

theorem leave (h : Accounts put out onWay lost) {x : γ} (hx : onWay.Perm (x :: onWay')) :
    Accounts put (out ++ [x]) onWay' lost := by
  have hput : put.Perm (out ++ (x :: onWay') ++ lost) :=
    h.trans ((hx.append_left out).append_right lost)
  simpa [Accounts] using hput

theorem lose (h : Accounts put out onWay lost) {x : γ} (hx : onWay.Perm (x :: onWay')) :
    Accounts put out onWay' (lost ++ [x]) := by
  have hput : put.Perm (out ++ (x :: onWay') ++ lost) :=
    h.trans ((hx.append_left out).append_right lost)
  have hswap : (x :: onWay' ++ lost).Perm (onWay' ++ (lost ++ [x])) := by
    rw [← List.append_assoc]
    exact (List.perm_append_singleton x (onWay' ++ lost)).symm
  refine hput.trans ?_
  simpa [Accounts] using hswap.append_left out

theorem miss (h : Accounts put out onWay lost) (x : γ) :
    Accounts (put ++ [x]) out onWay (lost ++ [x]) := by
  have hx : (put ++ [x]).Perm (out ++ onWay ++ lost ++ [x]) := h.append_right [x]
  simpa [Accounts] using hx

theorem spill (h : Accounts put out onWay lost) : Accounts put out [] (lost ++ onWay) := by
  have hswap : (onWay ++ lost).Perm (lost ++ onWay) := List.perm_append_comm
  have hput : put.Perm (out ++ (onWay ++ lost)) := by simpa [Accounts] using h
  refine hput.trans ?_
  simpa [Accounts] using hswap.append_left out

theorem map (h : Accounts put out onWay lost) (f : γ → δ) :
    Accounts (put.map f) (out.map f) (onWay.map f) (lost.map f) := by
  simpa [Accounts] using List.Perm.map f h

theorem mem_iff (h : Accounts put out onWay lost) {x : γ} :
    x ∈ put ↔ x ∈ out ∨ x ∈ onWay ∨ x ∈ lost := by
  simp [List.Perm.mem_iff h]

theorem nodup_out (h : Accounts put out onWay lost) (hput : put.Nodup) : out.Nodup :=
  (List.nodup_append.mp (List.nodup_append.mp ((List.Perm.nodup_iff h).mp hput)).1).1

end Accounts

/-! ## The ledger -/

/-- What ties a request to its handling: the identifier and the body. -/
def Message.key {β : Type} (m : Message β) : Id × β := (m.id, m.body)

def Job.key {β : Type} (j : Job β) : Id × β := (j.id, j.body)

def Submitted.key {β : Type} (s : Submitted β) : Id × β := (s.pending.id, s.body)

namespace Traffic

variable {β α : Type}

/-- What was submitted is in the channel, handled or lost; what is handled is numbered, and is being
handled, answered or crashed; and an answer is in the channel, consumed or lost. -/
structure Ledger (t : Traffic β α) : Prop where
  requests : Accounts (t.submitted.map (·.key)) (t.invoked.map (·.key))
    (t.requests.contents.map (·.key)) (t.lostRequests.map (·.key))
  numbers : t.invoked.map (·.number) = List.range t.gateway.worker.taken
  jobs : Accounts t.invoked (t.answered.map (·.job)) t.jobs t.crashed
  replies : Accounts (t.answered.map (·.reply)) t.consumed t.replies.contents t.lostReplies
  gaveUp : ∀ a ∈ t.answered, a.byHandler = false → a.result = .error stopped

/-- A submission is sent, or taken back because nobody receives it, or leaves at most its mark on
the engine. -/
theorem submit_cases (t : Traffic β α) (name : String) (body : β) (timeout : Option Duration) :
    t.submit name body timeout = t ∨
    (∃ id ticket requests, (t.gateway.engine.registerNew t.now name timeout).2 =
        (id, .registered ticket) ∧
      t.requests.sent = true ∧ t.requests.send? ⟨id, replyAddress, body⟩ = some requests ∧
      t.submit name body timeout = { t with
        gateway := { t.gateway with
          engine := (t.gateway.engine.registerNew t.now name timeout).1
          worker := { t.gateway.worker with requests } }
        submitted := t.submitted ++ [⟨⟨id, ticket,
          t.now + timeout.getD t.gateway.engine.defaultTimeout⟩, body⟩] }) ∨
    (∃ id, t.requests.sent = true ∧ t.requests.send? ⟨id, replyAddress, body⟩ = none ∧
      t.submit name body timeout = { t with gateway := { t.gateway with
        engine := ((t.gateway.engine.registerNew t.now name timeout).1.fail t.now id
          notRunning).1 } }) ∨
    t.submit name body timeout = { t with gateway := { t.gateway with
      engine := (t.gateway.engine.registerNew t.now name timeout).1 } } := by
  unfold submit
  split
  next hsent =>
    obtain ⟨id, ticket, requests, hr, hs, heq⟩ | ⟨id, hs, heq⟩ | ⟨answer, hno, heq⟩ :=
      t.gateway.submit_cases t.now name body timeout
    · exact .inr (.inl ⟨id, ticket, requests, hr, hsent, hs, by rw [heq]⟩)
    · exact .inr (.inr (.inl ⟨id, hsent, hs, by rw [heq]⟩))
    · rw [heq]
      split
      next hanswer => exact absurd (congrArg Prod.snd hanswer) (hno _ _)
      next hanswer =>
        obtain rfl := congrArg Prod.fst hanswer
        exact .inr (.inr (.inr rfl))
  next => exact .inl rfl

namespace Ledger

variable {t : Traffic β α}

theorem opening (engine : Engine α) (capacity : Nat) (now : Duration) :
    (Traffic.opening engine capacity now : Traffic β α).Ledger :=
  ⟨.refl_nil, rfl, .refl_nil, .refl_nil, by simp [Traffic.opening]⟩

theorem jobs_nodup (h : t.Ledger) : (t.jobs.map (·.number)).Nodup := by
  have hperm : (t.invoked.map (·.number)).Perm _ := List.Perm.map _ h.jobs
  rw [h.numbers, List.map_append, List.map_append] at hperm
  have hnd := hperm.nodup_iff.mp List.nodup_range
  exact (List.nodup_append.mp (List.nodup_append.mp hnd).1).2.1

theorem submit (h : t.Ledger) (name : String) (body : β) (timeout : Option Duration) :
    (t.submit name body timeout).Ledger := by
  obtain heq | ⟨id, ticket, requests, -, -, hs, heq⟩ | ⟨id, -, -, heq⟩ | heq :=
    t.submit_cases name body timeout
  · rw [heq]
    exact h
  · rw [heq]
    refine ⟨?_, h.numbers, h.jobs, h.replies, h.gaveUp⟩
    have henter := h.requests.enter (id, body)
    have hcontents := Channel.contents_send? hs
    simpa [Traffic.requests, hcontents, Submitted.key, Message.key] using henter
  · rw [heq]
    exact ⟨h.requests, h.numbers, h.jobs, h.replies, h.gaveUp⟩
  · rw [heq]
    exact ⟨h.requests, h.numbers, h.jobs, h.replies, h.gaveUp⟩

theorem take (h : t.Ledger) : t.take.Ledger := by
  unfold Traffic.take
  split
  next job worker hw =>
    obtain ⟨-, -, m, requests, hr, rfl, rfl⟩ := Worker.take?_eq_some hw
    refine ⟨?_, ?_, ?_, h.replies, h.gaveUp⟩
    · have hcontents : (t.requests.contents.map (·.key)).Perm
          (m.key :: requests.contents.map (·.key)) := by
        rw [Traffic.requests, Channel.contents_receive? hr]
        exact List.Perm.refl _
      have hleave := h.requests.leave hcontents
      simpa [Traffic.requests, withWorker, Job.key, Message.key] using hleave
    · simp [withWorker, h.numbers, List.range_succ]
    · exact h.jobs.enter _
  next => exact h

theorem conclude (h : t.Ledger) {a : Answered β α} {number : Nat}
    (hjob : t.gateway.worker.job? number = some a.job) {replies : Channel (Reply α)} {sent : Bool}
    (hsent : if sent then replies.contents = t.replies.contents ++ [a.reply]
      else replies = t.replies)
    (hgave : a.byHandler = false → a.result = .error stopped) :
    (t.conclude a { t.gateway.worker.removeJob number with replies } sent).Ledger := by
  refine ⟨h.requests, h.numbers, ?_, ?_, ?_⟩
  · have hleave := h.jobs.leave (Worker.perm_removeJob h.jobs_nodup hjob)
    show Accounts t.invoked ((t.answered ++ [a]).map (·.job)) _ t.crashed
    rw [List.map_append]
    exact hleave
  · show Accounts ((t.answered ++ [a]).map (·.reply)) t.consumed replies.contents _
    rw [List.map_append]
    cases sent with
    | true =>
      rw [if_pos rfl] at hsent
      rw [hsent]
      exact h.replies.enter a.reply
    | false =>
      rw [if_neg (by simp)] at hsent
      rw [hsent]
      exact h.replies.miss a.reply
  · intro b hb
    rcases List.mem_append.mp hb with hb | hb
    · exact h.gaveUp b hb
    · obtain rfl := List.mem_singleton.mp hb
      exact hgave

theorem finish (h : t.Ledger) (number : Nat) (result : Except Failure α) :
    (t.finish number result).Ledger := by
  unfold Traffic.finish
  split
  next job hjob =>
    rw [Worker.finish_eq hjob]
    refine h.conclude hjob ?_ (by simp)
    cases hs : t.replies.send? ⟨job.id, result⟩ with
    | none =>
      have hs' : t.gateway.worker.replies.send? ⟨job.id, result⟩ = none := hs
      simp [hs', Traffic.replies]
    | some replies =>
      have hs' : t.gateway.worker.replies.send? ⟨job.id, result⟩ = some replies := hs
      simpa [hs', Answered.reply] using Channel.contents_send? hs
  next => exact h

theorem giveUp (h : t.Ledger) (number : Nat) : (t.giveUp number).Ledger := by
  unfold Traffic.giveUp
  split
  next job hjob =>
    split
    next =>
      rw [Worker.giveUp_eq hjob]
      refine h.conclude hjob ?_ (by simp)
      cases hs : t.replies.trySend? ⟨job.id, .error stopped⟩ with
      | none =>
        have hs' : t.gateway.worker.replies.trySend? ⟨job.id, .error stopped⟩ = none := hs
        simp [hs', Traffic.replies]
      | some replies =>
        have hs' : t.gateway.worker.replies.trySend? ⟨job.id, .error stopped⟩ = some replies := hs
        simpa [hs', Answered.reply] using
          Channel.contents_send? (Channel.trySend?_eq_some hs)
    next => exact h
  next => exact h

theorem notice (h : t.Ledger) : t.notice.Ledger := by
  unfold Traffic.notice
  split
  next => exact ⟨h.requests, h.numbers, h.jobs, h.replies, h.gaveUp⟩
  next => exact h

theorem crash (h : t.Ledger) (number : Nat) : (t.crash number).Ledger := by
  unfold Traffic.crash
  split
  next job hjob =>
    exact ⟨h.requests, h.numbers, h.jobs.lose (Worker.perm_removeJob h.jobs_nodup hjob),
      h.replies, h.gaveUp⟩
  next => exact h

theorem deliver (h : t.Ledger) : t.deliver.Ledger := by
  unfold Traffic.deliver
  split
  next gateway hg =>
    obtain ⟨-, reply, replies, hr, rfl⟩ := Gateway.deliver?_eq_some hg
    refine ⟨h.requests, h.numbers, h.jobs, ?_, h.gaveUp⟩
    have htake : t.replies.items.take 1 = [reply] := by
      rw [Traffic.replies, (Channel.items_of_receive? hr).1]
      rfl
    have hcontents : t.replies.contents.Perm (reply :: replies.contents) := by
      rw [Traffic.replies, Channel.contents_receive? hr]
    show Accounts _ (t.consumed ++ t.replies.items.take 1) replies.contents t.lostReplies
    rw [htake]
    exact h.replies.leave hcontents
  next => exact h

theorem stopListening (h : t.Ledger) : t.stopListening.Ledger := by
  unfold Traffic.stopListening
  split
  next => exact ⟨h.requests, h.numbers, h.jobs, h.replies.spill, h.gaveUp⟩
  next => exact h

theorem close (h : t.Ledger) : t.close.Ledger := by
  unfold Traffic.close
  split
  next worker hw =>
    obtain ⟨-, -, rfl⟩ := Worker.close?_eq_some hw
    exact ⟨h.requests, h.numbers, h.jobs, h.replies, h.gaveUp⟩
  next => exact h

theorem endWorker (h : t.Ledger) : t.endWorker.Ledger := by
  unfold Traffic.endWorker
  split
  next gateway refused hg =>
    obtain ⟨worker, hw, -, rfl⟩ := Gateway.endWorker?_eq_some hg
    obtain ⟨-, -, -, rfl⟩ := Worker.end?_eq_some hw
    refine ⟨?_, h.numbers, h.jobs, h.replies, h.gaveUp⟩
    have hspill := h.requests.spill
    rw [← List.map_append] at hspill
    exact hspill
  next => exact h

theorem act (h : t.Ledger) (a : Correlation.Action α) : (t.act a).Ledger := by
  unfold Traffic.act
  split
  next => exact ⟨h.requests, h.numbers, h.jobs, h.replies, h.gaveUp⟩
  next => exact h

theorem step (h : t.Ledger) (m : Move β α) : (t.step m).Ledger := by
  cases m with
  | submit name body timeout => exact h.submit name body timeout
  | take => exact h.take
  | finish number result => exact h.finish number result
  | crash number => exact h.crash number
  | deliver => exact h.deliver
  | giveUp number => exact h.giveUp number
  | stopListening => exact h.stopListening
  | close => exact h.close
  | endWorker => exact h.endWorker
  | engine a => exact h.act a
  | fire | drop | elapse => exact ⟨h.requests, h.numbers, h.jobs, h.replies, h.gaveUp⟩
  | notice => exact h.notice

end Ledger

end Traffic

end AgentGateway.Bus
