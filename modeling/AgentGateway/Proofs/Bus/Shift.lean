import AgentGateway.Proofs.Bus.Ledger

/-!
# The shift of a worker

A worker is looked at alone, on channels of which nothing is known: others may put requests on the
one and take them off again, and on the other channel there may be replies of others, room or none,
and a receiver that takes replies, stops listening or goes away at any moment. The worker is
cancelled at any moment, too, and notices it when it does; so does each request that is being
handled.

At the end of the shift nothing is being handled any more, and it stays like this. Each request
that the worker took has come to one end, with the result of the handler or, once the worker had
been cancelled, with the word that it stopped. What a request ended with is a reply under its own
identifier, and the reply gets lost only if the channel is closed, or full when the request is
given up (`Shift.run_dismissed`).
-/

namespace AgentGateway.Bus

/-- How the handling of a request ended, and whether the handler ended it. -/
structure Handled (β α : Type) where
  job : Job β
  result : Except Failure α
  byHandler : Bool

def Handled.reply {β α : Type} (h : Handled β α) : Reply α := ⟨h.job.id, h.result⟩

/-- A worker with the record of its shift: the requests that it `took` off the queue, those whose
replies were `posted` on the channel, are `queued` for room or were `dropped`, with the channel as
it was then. On the channel there are replies of `others`, too, and some were `lost` when its
receiver went away. Of the replies that wait for room, only the worker's own wait in the channel: as
long as others wait, too, there is no room. -/
structure Shift (β α : Type) where
  worker : Worker β α
  fired : Bool := false
  took : List (Message β) := []
  posted : List (Handled β α) := []
  queued : List (Handled β α) := []
  dropped : List (Handled β α × Channel (Reply α)) := []
  others : List (Reply α) := []
  received : List (Reply α) := []
  lost : List (Reply α) := []

namespace Shift

/-- What can happen while the worker is there. Others do something with the channel of requests
(`supply`). A reply is taken off the channel (`receive`), somebody else replies (`post`), or both at
once, when that reply had waited for its place (`exchange`). The receiver takes no more than what is
on the channel (`shut`) or goes away (`hangUp`). The worker is told to stop (`fire`), and sees it
(`notice`). -/
inductive Move (β α : Type) where
  | supply (requests : Channel (Message β))
  | receive
  | post (r : Reply α)
  | exchange (r : Reply α)
  | shut
  | hangUp
  | fire
  | take
  | notice
  | finish (number : Nat) (result : Except Failure α)
  | giveUp (number : Nat)
  | close
  | leave

/-- Whether the worker, or a request that it handles, makes the move without waiting for the
handler or for others. -/
def Move.isOwn {β α : Type} : Move β α → Bool
  | notice | giveUp _ | close | leave => true
  | _ => false

variable {β α : Type}

/-- A worker at the beginning of its shift, told to stop already or not. -/
def opening (requests : Channel (Message β)) (capacity : Nat) (items : List (Reply α))
    (received fired : Bool) : Shift β α where
  worker := { requests, replies := { capacity, items, received } }
  fired
  others := items

def replies (s : Shift β α) : Channel (Reply α) := s.worker.replies

def handled (s : Shift β α) : List (Handled β α) := s.posted ++ s.queued ++ s.dropped.map Prod.fst

/-- The requests that were taken, as the worker numbers them. -/
def invoked (s : Shift β α) : List (Job β) := s.took.mapIdx fun i m => ⟨i, m.id, m.body⟩

def withReplies (s : Shift β α) (replies : Channel (Reply α)) : Shift β α :=
  { s with worker := { s.worker with replies } }

/-- As many of the replies that wait find room as the channel shows. -/
def promote (s : Shift β α) (replies : Channel (Reply α)) : Shift β α :=
  let count := s.replies.waiting.length - replies.waiting.length
  { s.withReplies replies with
    posted := s.posted ++ s.queued.take count, queued := s.queued.drop count }

def receive (s : Shift β α) : Shift β α :=
  match s.replies.receive? with
  | some (r, replies) => { s.promote replies with received := s.received ++ [r] }
  | none => s

def post (s : Shift β α) (r : Reply α) : Shift β α :=
  match s.replies.trySend? r with
  | some replies => { s.withReplies replies with others := s.others ++ [r] }
  | none => s

def exchange (s : Shift β α) (r : Reply α) : Shift β α :=
  match s.replies.items with
  | [] => s
  | first :: rest =>
    if s.replies.received ∧ s.replies.capacity ≤ s.replies.items.length then
      { s.withReplies { s.replies with items := rest ++ [r] } with
        received := s.received ++ [first], others := s.others ++ [r] }
    else s

/-- A channel that takes no more replies, nor those that wait. -/
def shutChannel (c : Channel (Reply α)) : Channel (Reply α) :=
  { c with received := false, waiting := [] }

def shut (s : Shift β α) : Shift β α :=
  { s.withReplies (shutChannel s.replies) with
    queued := []
    dropped := s.dropped ++ s.queued.map fun h => (h, shutChannel s.replies) }

def hangUp (s : Shift β α) : Shift β α :=
  { s.shut.withReplies s.replies.hangUp with lost := s.lost ++ s.replies.items }

def take (s : Shift β α) : Shift β α :=
  match s.worker.take? with
  | some (_, worker) =>
    { s with worker, took := s.took ++ s.worker.requests.items.take 1 }
  | none => s

def notice (s : Shift β α) : Shift β α :=
  if s.fired then { s with worker := s.worker.cancel } else s

/-- The handling of a request has ended, and the reply goes where the channel lets it go: only the
handler's result waits for room. -/
def conclude (s : Shift β α) (h : Handled β α) (worker : Worker β α) : Shift β α :=
  let s' := { s with worker }
  if s.replies.received then
    if s.replies.hasRoom then { s' with posted := s.posted ++ [h] }
    else if h.byHandler then { s' with queued := s.queued ++ [h] }
    else { s' with dropped := s.dropped ++ [(h, s.replies)] }
  else { s' with dropped := s.dropped ++ [(h, s.replies)] }

@[simp] theorem worker_conclude (s : Shift β α) (h : Handled β α) (w : Worker β α) :
    (s.conclude h w).worker = w := by
  unfold conclude
  split_ifs <;> rfl

@[simp] theorem fired_conclude (s : Shift β α) (h : Handled β α) (w : Worker β α) :
    (s.conclude h w).fired = s.fired := by
  unfold conclude
  split_ifs <;> rfl

def finish (s : Shift β α) (number : Nat) (result : Except Failure α) : Shift β α :=
  match s.worker.job? number with
  | some job => s.conclude ⟨job, result, true⟩ (s.worker.finish number result)
  | none => s

def giveUp (s : Shift β α) (number : Nat) : Shift β α :=
  match s.worker.job? number with
  | some job =>
    if s.fired then s.conclude ⟨job, .error stopped, false⟩ (s.worker.giveUp number) else s
  | none => s

def close (s : Shift β α) : Shift β α :=
  match s.worker.close? with
  | some worker => { s with worker }
  | none => s

def leave (s : Shift β α) : Shift β α :=
  match s.worker.end? with
  | some worker => { s with worker }
  | none => s

/-- Makes a move. One that is not possible changes nothing. -/
def step (s : Shift β α) : Move β α → Shift β α
  | .supply requests => { s with worker := { s.worker with requests } }
  | .receive => s.receive
  | .post r => s.post r
  | .exchange r => s.exchange r
  | .shut => s.shut
  | .hangUp => s.hangUp
  | .fire => { s with fired := true }
  | .take => s.take
  | .notice => s.notice
  | .finish number result => s.finish number result
  | .giveUp number => s.giveUp number
  | .close => s.close
  | .leave => s.leave

def run (s : Shift β α) (moves : List (Move β α)) : Shift β α := moves.foldl step s

/-! ## Where replies go -/

end Shift

theorem Accounts.of_perm {γ : Type} {put put' out onWay lost : List γ}
    (h : Accounts put out onWay lost) (hperm : put.Perm put') : Accounts put' out onWay lost :=
  hperm.symm.trans h

namespace Shift

variable {β α : Type}

/-- A reply is lost if the channel is closed, or full when the request is given up. -/
def MayDrop (d : Handled β α × Channel (Reply α)) : Prop :=
  d.2.received = false ∨ (d.1.byHandler = false ∧ d.2.capacity ≤ d.2.items.length)

/-- Where the replies of a shift are. The requests that were taken have ended or are being handled,
and a reply waits only as long as there is no room. -/
structure RepliesAccounted (s : Shift β α) : Prop where
  jobs : s.invoked.Perm (s.handled.map (·.job) ++ s.worker.jobs)
  taken : s.worker.taken = s.took.length
  waiting : s.replies.waiting = s.queued.map (·.reply)
  full : s.queued ≠ [] → s.replies.capacity ≤ s.replies.items.length
  channel : Accounts (s.others ++ s.posted.map (·.reply)) s.received s.replies.items s.lost
  dropped : ∀ d ∈ s.dropped, MayDrop d

theorem numbers_invoked (s : Shift β α) :
    s.invoked.map (·.number) = List.range s.took.length := by
  refine List.ext_getElem (by simp [invoked]) fun i hi hi' => ?_
  simp [invoked]

/-- The replies that waited are lost; their requests had ended before. -/
theorem handled_shut (s : Shift β α) : s.shut.handled.Perm s.handled := by
  have hswap : (s.dropped.map Prod.fst ++ s.queued).Perm (s.queued ++ s.dropped.map Prod.fst) :=
    List.perm_append_comm
  simpa [handled, shut, withReplies, Function.comp_def] using hswap.append_left s.posted

namespace RepliesAccounted

variable {s : Shift β α}

theorem opening (requests : Channel (Message β)) (capacity : Nat) (items : List (Reply α))
    (received fired : Bool) :
    (Shift.opening requests capacity items received fired).RepliesAccounted where
  jobs := .refl _
  taken := rfl
  waiting := rfl
  full h := absurd rfl h
  channel := by simp [Accounts, Shift.opening, replies]
  dropped := by simp [Shift.opening]

theorem nodup (h : s.RepliesAccounted) :
    (s.handled.map (·.job.number) ++ s.worker.jobs.map (·.number)).Nodup := by
  have hperm := h.jobs.map (·.number)
  rw [numbers_invoked, List.map_append, List.map_map] at hperm
  exact hperm.nodup_iff.mp List.nodup_range

theorem jobs_nodup (h : s.RepliesAccounted) : (s.worker.jobs.map (·.number)).Nodup :=
  (List.nodup_append.mp h.nodup).2.1

/-- A channel with room has none of the worker's replies waiting. -/
theorem queued_eq_nil (h : s.RepliesAccounted) (hroom : s.replies.hasRoom = true) :
    s.queued = [] := by
  by_contra hne
  have hfull := h.full hne
  simp only [Channel.hasRoom, Bool.and_eq_true, decide_eq_true_eq] at hroom
  omega

theorem full_of_not_hasRoom (h : s.RepliesAccounted) (hroom : ¬ s.replies.hasRoom = true) :
    s.replies.capacity ≤ s.replies.items.length := by
  by_cases hqueued : s.queued = []
  · have hwaiting := h.waiting
    rw [hqueued, List.map_nil] at hwaiting
    simpa [Channel.hasRoom, hwaiting] using hroom
  · exact h.full hqueued

theorem receive (h : s.RepliesAccounted) : s.receive.RepliesAccounted := by
  unfold Shift.receive
  split
  next r replies hr =>
    obtain ⟨hitems, rfl⟩ := Channel.items_of_receive? hr
    have hleave := h.channel.leave (List.Perm.of_eq hitems)
    rcases Channel.moveUp_cases { s.replies with items := s.replies.items.tail } with
      ⟨heq, hstays⟩ | ⟨x, rest, hwaiting, heq⟩
    · have hnone : s.promote { s.replies with items := s.replies.items.tail } =
          s.withReplies { s.replies with items := s.replies.items.tail } := by
        simp [promote, withReplies]
      rw [heq, hnone]
      refine ⟨h.jobs, h.taken, h.waiting, fun hne => hstays.resolve_left ?_, hleave, h.dropped⟩
      show s.replies.waiting ≠ []
      rw [h.waiting]
      exact List.map_eq_nil_iff.not.mpr hne
    · -- the reply that has waited longest is the one that moves up
      have hqueue : s.queued.map (·.reply) = x :: rest := h.waiting.symm.trans hwaiting
      obtain ⟨q, queued, hqueued, rfl, rfl⟩ := List.map_eq_cons_iff.mp hqueue
      have hcount : s.replies.waiting.length - (queued.map (·.reply)).length = 1 := by
        rw [h.waiting, hqueued]
        simp
      have hmoved : s.promote ({ s.replies with items := s.replies.items.tail }).moveUp =
          { s.withReplies { s.replies with
              items := s.replies.items.tail ++ [q.reply], waiting := queued.map (·.reply) } with
            posted := s.posted ++ [q], queued } := by
        rw [heq]
        simp only [promote, hcount, hqueued]
        rfl
      have hfull := h.full (by simp [hqueued])
      rw [hmoved]
      refine ⟨?_, h.taken, rfl, fun _ => ?_, ?_, h.dropped⟩
      · refine h.jobs.trans (.of_eq ?_)
        simp [handled, hqueued, withReplies]
      · rw [hitems] at hfull
        simpa [withReplies, replies] using hfull
      · have henter := hleave.enter q.reply
        rwa [List.append_assoc, ← List.map_singleton, ← List.map_append] at henter
  next => exact h

theorem post (h : s.RepliesAccounted) (r : Reply α) : (s.post r).RepliesAccounted := by
  unfold Shift.post
  split
  next replies hr =>
    obtain ⟨hroom, rfl⟩ := Channel.trySend?_cases hr
    have hnone := h.queued_eq_nil hroom
    refine ⟨h.jobs, h.taken, h.waiting, fun hne => absurd hnone hne, ?_, h.dropped⟩
    refine (h.channel.enter r).of_perm ?_
    rw [List.append_assoc, List.append_assoc]
    exact List.perm_append_comm.append_left _
  next => exact h

theorem exchange (h : s.RepliesAccounted) (r : Reply α) : (s.exchange r).RepliesAccounted := by
  unfold Shift.exchange
  split
  next => exact h
  next first rest hitems =>
    split
    next hfull =>
      refine ⟨h.jobs, h.taken, h.waiting, fun _ => ?_, ?_, h.dropped⟩
      · have hlength := hfull.2
        rw [hitems] at hlength
        simpa [withReplies, replies] using hlength
      · have hleave := h.channel.leave (List.Perm.of_eq hitems)
        refine (hleave.enter r).of_perm ?_
        rw [List.append_assoc, List.append_assoc]
        exact List.perm_append_comm.append_left _
    next => exact h

theorem shut (h : s.RepliesAccounted) : s.shut.RepliesAccounted := by
  refine ⟨?_, h.taken, rfl, fun hne => absurd rfl hne, h.channel, ?_⟩
  · exact h.jobs.trans ((s.handled_shut.symm.map _).append_right _)
  · refine List.forall_mem_append.mpr ⟨h.dropped, fun d hd => ?_⟩
    obtain ⟨q, -, rfl⟩ := List.mem_map.mp hd
    exact .inl rfl

theorem hangUp (h : s.RepliesAccounted) : s.hangUp.RepliesAccounted :=
  ⟨h.shut.jobs, h.taken, rfl, fun hne => absurd rfl hne, h.channel.spill, h.shut.dropped⟩

theorem take (h : s.RepliesAccounted) : s.take.RepliesAccounted := by
  unfold Shift.take
  split
  next job worker hw =>
    obtain ⟨-, -, m, requests, hr, rfl, rfl⟩ := Worker.take?_eq_some hw
    have hfirst : s.worker.requests.items.take 1 = [m] := by
      rw [(Channel.items_of_receive? hr).1]
      rfl
    refine ⟨?_, ?_, h.waiting, h.full, h.channel, h.dropped⟩
    · have hinvoked : ({ s with took := s.took ++ [m] } : Shift β α).invoked =
          s.invoked ++ [⟨s.worker.taken, m.id, m.body⟩] := by
        simp [invoked, h.taken]
      rw [hfirst]
      show ({ s with took := s.took ++ [m] } : Shift β α).invoked.Perm _
      rw [hinvoked]
      refine (h.jobs.append_right _).trans (.of_eq ?_)
      exact List.append_assoc _ _ _
    · rw [hfirst, List.length_append, ← h.taken]
      rfl
  next => exact h

theorem jobs_perm (h : s.RepliesAccounted) {a : Handled β α} {number : Nat}
    (hjob : s.worker.job? number = some a.job) {handled : List (Handled β α)}
    (hhandled : handled.Perm (s.handled ++ [a])) :
    s.invoked.Perm (handled.map (·.job) ++ (s.worker.removeJob number).jobs) := by
  have hjobs := (Worker.perm_removeJob h.jobs_nodup hjob).append_left (s.handled.map (·.job))
  refine (h.jobs.trans hjobs).trans ?_
  have hmap := (hhandled.map (·.job)).append_right (s.worker.removeJob number).jobs
  simpa using hmap.symm

/-- The handler's result is sent and may have to wait; the word that a request is given up is sent
only if there is room. -/
def sending (s : Shift β α) (a : Handled β α) : Option (Channel (Reply α)) :=
  if a.byHandler then s.replies.send? a.reply else s.replies.trySend? a.reply

theorem lose (h : s.RepliesAccounted) {a : Handled β α} {number : Nat}
    (hjob : s.worker.job? number = some a.job) (hdrop : MayDrop (a, s.replies)) :
    ({ s with
      worker := s.worker.removeJob number
      dropped := s.dropped ++ [(a, s.replies)] } : Shift β α).RepliesAccounted := by
  refine ⟨h.jobs_perm hjob (by simp [handled]), h.taken, h.waiting, h.full, h.channel, ?_⟩
  exact List.forall_mem_append.mpr ⟨h.dropped, List.forall_mem_singleton.mpr hdrop⟩

theorem conclude (h : s.RepliesAccounted) {a : Handled β α} {number : Nat}
    (hjob : s.worker.job? number = some a.job) :
    (s.conclude a { s.worker.removeJob number with
      replies := (sending s a).getD s.replies }).RepliesAccounted := by
  have hmiddle : ∀ front back : List (Handled β α),
      (front ++ [a] ++ back).Perm (front ++ back ++ [a]) := by
    intro front back
    rw [List.append_assoc, List.append_assoc]
    exact List.perm_append_comm.append_left front
  unfold Shift.conclude
  split_ifs with hreceived hroom hby
  · have hsent : sending s a = some { s.replies with items := s.replies.items ++ [a.reply] } := by
      unfold sending Channel.send? Channel.trySend?
      simp [hreceived, hroom]
    have hnone := h.queued_eq_nil hroom
    rw [hsent]
    refine ⟨?_, h.taken, h.waiting, fun hne => absurd hnone hne, ?_, h.dropped⟩
    · refine h.jobs_perm hjob ?_
      simpa [handled, hnone] using hmiddle s.posted (s.dropped.map Prod.fst)
    · have henter := h.channel.enter a.reply
      rwa [List.append_assoc, ← List.map_singleton, ← List.map_append] at henter
  · have hsent : sending s a =
        some { s.replies with waiting := s.replies.waiting ++ [a.reply] } := by
      unfold sending Channel.send?
      simp [hreceived, hroom, hby]
    rw [hsent]
    refine ⟨?_, h.taken, ?_, fun _ => ?_, h.channel, h.dropped⟩
    · refine h.jobs_perm hjob ?_
      simpa [handled] using hmiddle (s.posted ++ s.queued) (s.dropped.map Prod.fst)
    · show s.replies.waiting ++ [a.reply] = _
      rw [h.waiting, List.map_append, List.map_singleton]
    · exact h.full_of_not_hasRoom hroom
  · have hsent : sending s a = none := by
      unfold sending Channel.trySend?
      simp [hroom, hby]
    rw [hsent]
    exact h.lose hjob (.inr ⟨by simpa using hby, h.full_of_not_hasRoom hroom⟩)
  · have hsent : sending s a = none := by
      unfold sending Channel.send? Channel.trySend?
      simp [hreceived]
    rw [hsent]
    exact h.lose hjob (.inl (by simpa using hreceived))

theorem finish (h : s.RepliesAccounted) (number : Nat) (result : Except Failure α) :
    (s.finish number result).RepliesAccounted := by
  unfold Shift.finish
  split
  next job hjob =>
    rw [Worker.finish_eq hjob]
    exact h.conclude (a := ⟨job, result, true⟩) hjob
  next => exact h

theorem giveUp (h : s.RepliesAccounted) (number : Nat) : (s.giveUp number).RepliesAccounted := by
  unfold Shift.giveUp
  split
  next job hjob =>
    split
    next =>
      rw [Worker.giveUp_eq hjob]
      exact h.conclude (a := ⟨job, .error stopped, false⟩) hjob
    next => exact h
  next => exact h

/-- Nothing changes in the books of a worker that keeps its requests and its replies. -/
theorem withWorker (h : s.RepliesAccounted) {w : Worker β α} (hjobs : w.jobs = s.worker.jobs)
    (htaken : w.taken = s.worker.taken) (hcapacity : w.replies.capacity = s.replies.capacity)
    (hitems : w.replies.items = s.replies.items)
    (hwaiting : w.replies.waiting = s.replies.waiting) :
    ({ s with worker := w } : Shift β α).RepliesAccounted where
  jobs := by
    show s.invoked.Perm (s.handled.map (·.job) ++ w.jobs)
    rw [hjobs]
    exact h.jobs
  taken := htaken.trans h.taken
  waiting := hwaiting.trans h.waiting
  full hne := by
    show w.replies.capacity ≤ w.replies.items.length
    rw [hcapacity, hitems]
    exact h.full hne
  channel := by
    show Accounts _ s.received w.replies.items s.lost
    rw [hitems]
    exact h.channel
  dropped := h.dropped

theorem notice (h : s.RepliesAccounted) : s.notice.RepliesAccounted := by
  unfold Shift.notice
  split
  next => exact h.withWorker rfl rfl rfl rfl rfl
  next => exact h

theorem close (h : s.RepliesAccounted) : s.close.RepliesAccounted := by
  unfold Shift.close
  split
  next w hw =>
    obtain ⟨-, -, rfl⟩ := Worker.close?_eq_some hw
    exact h.withWorker rfl rfl rfl rfl rfl
  next => exact h

theorem leave (h : s.RepliesAccounted) : s.leave.RepliesAccounted := by
  unfold Shift.leave
  split
  next w hw =>
    obtain ⟨-, -, -, rfl⟩ := Worker.end?_eq_some hw
    exact h.withWorker rfl rfl rfl rfl rfl
  next => exact h

theorem step (h : s.RepliesAccounted) (m : Move β α) : (s.step m).RepliesAccounted := by
  cases m with
  | supply requests => exact h.withWorker rfl rfl rfl rfl rfl
  | receive => exact h.receive
  | post r => exact h.post r
  | exchange r => exact h.exchange r
  | shut => exact h.shut
  | hangUp => exact h.hangUp
  | fire => exact ⟨h.jobs, h.taken, h.waiting, h.full, h.channel, h.dropped⟩
  | take => exact h.take
  | notice => exact h.notice
  | finish number result => exact h.finish number result
  | giveUp number => exact h.giveUp number
  | close => exact h.close
  | leave => exact h.leave

theorem run (h : s.RepliesAccounted) (moves : List (Move β α)) :
    (s.run moves).RepliesAccounted := by
  induction moves generalizing s with
  | nil => exact h
  | cons m moves ih => exact ih (h.step m)

end RepliesAccounted

/-! ## What a move does -/

structure LeavesWorker (s s' : Shift β α) : Prop where
  jobs : s'.worker.jobs = s.worker.jobs
  phase : s'.worker.phase = s.worker.phase
  took : s'.took = s.took
  fired : s.fired = true → s'.fired = true
  queued : s.queued = [] → s'.queued = []
  handled : s'.handled.Perm s.handled

theorem LeavesWorker.refl (s : Shift β α) : LeavesWorker s s := ⟨rfl, rfl, rfl, id, id, .refl _⟩

theorem LeavesWorker.trans {s s' s'' : Shift β α} (h : LeavesWorker s s')
    (h' : LeavesWorker s' s'') : LeavesWorker s s'' where
  jobs := h'.jobs.trans h.jobs
  phase := h'.phase.trans h.phase
  took := h'.took.trans h.took
  fired := h'.fired ∘ h.fired
  queued := h'.queued ∘ h.queued
  handled := h'.handled.trans h.handled

/-- What a move of the worker, or of a request that it handles, can do. -/
inductive Turn (s : Shift β α) : Move β α → Shift β α → Prop
  | leavesWorker {m : Move β α} {s' : Shift β α} (h : LeavesWorker s s') : Turn s m s'
  | takes {job : Job β} {w : Worker β α} (h : s.worker.take? = some (job, w)) :
      Turn s .take { s with worker := w, took := s.took ++ s.worker.requests.items.take 1 }
  | finishes {job : Job β} {number : Nat} (h : s.worker.job? number = some job)
      (result : Except Failure α) : Turn s (.finish number result)
        (s.conclude ⟨job, result, true⟩ (s.worker.finish number result))
  | givesUp {job : Job β} {number : Nat} (h : s.worker.job? number = some job)
      (hfired : s.fired = true) : Turn s (.giveUp number)
        (s.conclude ⟨job, .error stopped, false⟩ (s.worker.giveUp number))
  | closes {w : Worker β α} (h : s.worker.close? = some w) : Turn s .close { s with worker := w }
  | leaves {w : Worker β α} (h : s.worker.end? = some w) : Turn s .leave { s with worker := w }

theorem turn (s : Shift β α) (m : Move β α) : Turn s m (s.step m) := by
  have hidle : ∀ m, Turn s m s := fun m => .leavesWorker (.refl s)
  have hshut : LeavesWorker s s.shut := ⟨rfl, rfl, rfl, id, fun _ => rfl, s.handled_shut⟩
  cases m with
  | supply requests => exact .leavesWorker ⟨rfl, rfl, rfl, id, id, .refl _⟩
  | fire => exact .leavesWorker ⟨rfl, rfl, rfl, fun _ => rfl, id, .refl _⟩
  | shut => exact .leavesWorker hshut
  | hangUp => exact .leavesWorker ⟨rfl, rfl, rfl, id, fun _ => rfl, s.handled_shut⟩
  | receive =>
      show Turn s .receive s.receive
      unfold receive
      split
      next r replies hr =>
        refine .leavesWorker ⟨rfl, rfl, rfl, id, fun hnil => ?_, .of_eq ?_⟩
        · simp [promote, hnil]
        · simp [handled, promote, withReplies]
      next => exact hidle _
  | post r =>
      show Turn s (.post r) (s.post r)
      unfold post
      split
      next => exact .leavesWorker ⟨rfl, rfl, rfl, id, id, .refl _⟩
      next => exact hidle _
  | exchange r =>
      show Turn s (.exchange r) (s.exchange r)
      unfold exchange
      split
      next => exact hidle _
      next =>
        split
        next => exact .leavesWorker ⟨rfl, rfl, rfl, id, id, .refl _⟩
        next => exact hidle _
  | take =>
      show Turn s .take s.take
      unfold take
      split
      next job worker hw => exact .takes hw
      next => exact hidle _
  | notice =>
      show Turn s .notice s.notice
      unfold notice
      split
      next => exact .leavesWorker ⟨rfl, rfl, rfl, id, id, .refl _⟩
      next => exact hidle _
  | finish number result =>
      show Turn s (.finish number result) (s.finish number result)
      unfold finish
      split
      next job hjob => exact .finishes hjob result
      next => exact hidle _
  | giveUp number =>
      show Turn s (.giveUp number) (s.giveUp number)
      unfold giveUp
      split
      next job hjob =>
        split
        next hfired => exact .givesUp hjob hfired
        next => exact hidle _
      next => exact hidle _
  | close =>
      show Turn s .close s.close
      unfold close
      split
      next w hw => exact .closes hw
      next => exact hidle _
  | leave =>
      show Turn s .leave s.leave
      unfold leave
      split
      next w hw => exact .leaves hw
      next => exact hidle _

/-! ## What a request ends with -/

/-- A request ends with the result of the handler, or once the worker has been told to stop. -/
def Reason (moves : List (Move β α)) (fired : Bool) (h : Handled β α) : Prop :=
  (h.byHandler = true ∧ .finish h.job.number h.result ∈ moves) ∨
    (h.byHandler = false ∧ h.result = .error stopped ∧ fired = true)

theorem mem_handled_conclude (s : Shift β α) {a h : Handled β α} {w : Worker β α}
    (hh : h ∈ (s.conclude a w).handled) : h ∈ s.handled ∨ h = a := by
  unfold conclude at hh
  split_ifs at hh <;>
    simp only [handled, List.map_append, List.map_cons, List.map_nil, List.mem_append,
      List.mem_singleton] at hh ⊢ <;> tauto

namespace Turn

variable {s s' : Shift β α} {m : Move β α}

theorem fired (h : Turn s m s') (hfired : s.fired = true) : s'.fired = true := by
  cases h with
  | leavesWorker h => exact h.fired hfired
  | finishes | givesUp => rwa [fired_conclude]
  | takes | closes | leaves => exact hfired

/-- What a move adds to the requests that have ended has a reason. -/
theorem mem_handled (h : Turn s m s') {a : Handled β α} (ha : a ∈ s'.handled) :
    a ∈ s.handled ∨ Reason [m] s.fired a := by
  cases h with
  | leavesWorker h => exact .inl (h.handled.mem_iff.mp ha)
  | takes | closes | leaves => exact .inl ha
  | @finishes job number hjob result =>
      obtain ha | rfl := s.mem_handled_conclude ha
      · exact .inl ha
      · obtain rfl : job.number = number := by simpa using List.find?_some hjob
        exact .inr (.inl ⟨rfl, List.mem_singleton_self _⟩)
  | givesUp hjob hfired =>
      obtain ha | rfl := s.mem_handled_conclude ha
      · exact .inl ha
      · exact .inr (.inr ⟨rfl, rfl, hfired⟩)

end Turn

theorem fired_run {s : Shift β α} (h : s.fired = true) (moves : List (Move β α)) :
    (s.run moves).fired = true := by
  induction moves generalizing s with
  | nil => exact h
  | cons m moves ih => exact ih ((s.turn m).fired h)

theorem mem_handled_run (s : Shift β α) (moves : List (Move β α)) {a : Handled β α}
    (ha : a ∈ (s.run moves).handled) :
    a ∈ s.handled ∨ Reason moves (s.run moves).fired a := by
  induction moves generalizing s with
  | nil => exact .inl ha
  | cons m moves ih =>
      obtain ha | ⟨hby, hmem⟩ | hgiven := ih (s.step m) ha
      · obtain ha | ⟨hby, hmem⟩ | ⟨hby, hresult, hfired⟩ := (s.turn m).mem_handled ha
        · exact .inl ha
        · obtain rfl := List.mem_singleton.mp hmem
          exact .inr (.inl ⟨hby, List.mem_cons_self⟩)
        · exact .inr (.inr ⟨hby, hresult, fired_run ((s.turn m).fired hfired) moves⟩)
      · exact .inr (.inl ⟨hby, List.mem_cons_of_mem m hmem⟩)
      · exact .inr (.inr hgiven)

/-! ## The end of the shift -/

/-- The worker has ended, nothing is being handled and no reply waits. -/
structure Over (s : Shift β α) : Prop where
  ended : s.worker.phase = .ended
  jobs : s.worker.jobs = []
  queued : s.queued = []

theorem Over.job? {s : Shift β α} (h : s.Over) (number : Nat) : s.worker.job? number = none := by
  rw [Worker.job?, h.jobs, List.find?_nil]

theorem LeavesWorker.isOver {s s' : Shift β α} (h : LeavesWorker s s') (hs : s.Over) : s'.Over :=
  ⟨h.phase.trans hs.ended, h.jobs.trans hs.jobs, h.queued hs.queued⟩

namespace Turn

variable {s s' : Shift β α} {m : Move β α}

theorem leavesWorker_of_over (h : Turn s m s') (hs : s.Over) : LeavesWorker s s' := by
  cases h with
  | leavesWorker h => exact h
  | takes h => exact absurd (hs.ended.symm.trans (Worker.take?_eq_some h).1) (by decide)
  | finishes h | givesUp h => cases (hs.job? _).symm.trans h
  | closes h => exact absurd (hs.ended.symm.trans (Worker.close?_eq_some h).1) (by decide)
  | leaves h => exact absurd (hs.ended.symm.trans (Worker.end?_eq_some h).1) (by decide)

theorem isOver (h : Turn s m s') (haccounted : s.RepliesAccounted)
    (hs : s.worker.phase = .ended → s.Over) (hended : s'.worker.phase = .ended) : s'.Over := by
  cases h with
  | leavesWorker h => exact h.isOver (hs (h.phase.symm.trans hended))
  | takes h =>
      obtain ⟨hserving, -, m, requests, -, -, rfl⟩ := Worker.take?_eq_some h
      cases hserving.symm.trans hended
  | finishes h =>
      rw [worker_conclude, Worker.finish_eq h] at hended
      cases ((hs hended).job? _).symm.trans h
  | givesUp h =>
      rw [worker_conclude, Worker.giveUp_eq h] at hended
      cases ((hs hended).job? _).symm.trans h
  | closes h =>
      obtain ⟨-, -, rfl⟩ := Worker.close?_eq_some h
      cases hended
  | leaves h =>
      obtain ⟨-, hjobs, hwaiting, rfl⟩ := Worker.end?_eq_some h
      refine ⟨rfl, hjobs, List.map_eq_nil_iff.mp (haccounted.waiting.symm.trans hwaiting)⟩

end Turn

theorem over_run {s : Shift β α} (haccounted : s.RepliesAccounted)
    (hs : s.worker.phase = .ended → s.Over) (moves : List (Move β α)) :
    (s.run moves).worker.phase = .ended → (s.run moves).Over := by
  induction moves generalizing s with
  | nil => exact hs
  | cons m moves ih => exact ih (haccounted.step m) ((s.turn m).isOver haccounted hs)

/-- After the end of the shift no request is taken and none comes to an end. -/
theorem Over.run {s : Shift β α} (h : s.Over) (moves : List (Move β α)) :
    LeavesWorker s (s.run moves) := by
  induction moves generalizing s with
  | nil => exact .refl s
  | cons m moves ih =>
      have hstep := (s.turn m).leavesWorker_of_over h
      exact hstep.trans (ih (hstep.isOver h))

/-! ## The end can be reached -/

theorem run_append (s : Shift β α) (moves moves' : List (Move β α)) :
    s.run (moves ++ moves') = (s.run moves).run moves' :=
  List.foldl_append

/-- A request that is given up is handled no more, and its reply does not wait. -/
theorem giveUp_head {s : Shift β α} (hfired : s.fired = true) {job : Job β} {jobs : List (Job β)}
    (hjobs : s.worker.jobs = job :: jobs) :
    (s.giveUp job.number).worker.jobs.length ≤ jobs.length ∧
      (s.giveUp job.number).worker.phase = s.worker.phase ∧
      (s.giveUp job.number).fired = true ∧ (s.giveUp job.number).queued = s.queued := by
  have hjob : s.worker.job? job.number = some job := by simp [Worker.job?, hjobs]
  have hqueued : ∀ w, (s.conclude ⟨job, .error stopped, false⟩ w).queued = s.queued := by
    intro w
    unfold conclude
    split_ifs with _ _ hby
    · rfl
    · cases hby
    · rfl
    · rfl
  have hgiveUp : s.giveUp job.number =
      s.conclude ⟨job, .error stopped, false⟩ (s.worker.giveUp job.number) := by
    simp only [giveUp, hjob, hfired, if_true]
  rw [hgiveUp, worker_conclude, fired_conclude, hqueued, Worker.giveUp_eq hjob]
  refine ⟨?_, rfl, hfired, rfl⟩
  show (s.worker.jobs.filter (·.number != job.number)).length ≤ jobs.length
  rw [hjobs, List.filter_cons_of_neg (by simp)]
  exact List.length_filter_le _ _

/-- Once it takes no more requests, a cancelled worker gives up what it handles and ends. -/
theorem exists_end_of_closing {s : Shift β α} (haccounted : s.RepliesAccounted)
    (hfired : s.fired = true)
    (hqueued : s.queued = []) (hclosing : s.worker.phase = .closing) :
    ∃ moves : List (Move β α), (∀ m ∈ moves, m.isOwn = true) ∧
      (s.run moves).worker.phase = .ended := by
  obtain ⟨count, hcount⟩ : ∃ count, s.worker.jobs.length ≤ count := ⟨_, Nat.le_refl _⟩
  induction count generalizing s with
  | zero =>
      have hjobs := List.eq_nil_of_length_eq_zero (Nat.le_zero.mp hcount)
      have hwaiting : s.worker.replies.waiting = [] := by
        rw [show s.worker.replies.waiting = _ from haccounted.waiting, hqueued, List.map_nil]
      refine ⟨[.leave], by simp [Move.isOwn], ?_⟩
      show s.leave.worker.phase = .ended
      simp [leave, Worker.end?, hclosing, hjobs, hwaiting]
  | succ count ih =>
      cases hjobs : s.worker.jobs with
      | nil => exact ih haccounted hfired hqueued hclosing (by simp [hjobs])
      | cons job jobs =>
          obtain ⟨hlength, hphase, hfired', hqueued'⟩ := giveUp_head hfired hjobs
          have hless : jobs.length ≤ count := by
            rw [hjobs] at hcount
            exact Nat.le_of_succ_le_succ hcount
          obtain ⟨moves, hown, hended⟩ := ih (haccounted.giveUp job.number) hfired'
            (hqueued'.trans hqueued) (hphase.trans hclosing) (Nat.le_trans hlength hless)
          exact ⟨.giveUp job.number :: moves, List.forall_mem_cons.mpr ⟨rfl, hown⟩, hended⟩

/-- A cancelled worker ends by itself, unless a reply waits for room. -/
theorem exists_end {s : Shift β α} (haccounted : s.RepliesAccounted) (hfired : s.fired = true)
    (hqueued : s.queued = []) :
    ∃ moves : List (Move β α), (∀ m ∈ moves, m.isOwn = true) ∧
      (s.run moves).worker.phase = .ended := by
  cases hphase : s.worker.phase with
  | ended => exact ⟨[], by simp, hphase⟩
  | closing => exact exists_end_of_closing haccounted hfired hqueued hphase
  | serving =>
      have hclosed : s.run [.notice, .close] =
          { s with worker := { s.worker with cancelled := true, phase := .closing } } := by
        show (notice s).close = _
        simp [notice, close, hfired, Worker.close?, Worker.cancel, hphase]
      have hrun := haccounted.run [.notice, .close]
      rw [hclosed] at hrun
      obtain ⟨moves, hown, hended⟩ := exists_end_of_closing hrun hfired hqueued rfl
      refine ⟨[.notice, .close] ++ moves, ?_, ?_⟩
      · exact List.forall_mem_append.mpr ⟨by simp [Move.isOwn], hown⟩
      · rw [run_append, hclosed]
        exact hended

/-! ## A whole shift -/

/-- What a run of a shift comes to. A request that has ended is one of those that were taken, so its
reply is under its own identifier; it does not end twice, nor is it handled after its end. It ends
with the handler's result, or because the worker has been told to stop. A reply is lost only if the
channel is closed, or full when the request is given up. At the end nothing is being handled and no
reply waits, so each request that was taken has come to its end, and it stays like this. The end is
near for a worker that has been told to stop, unless a reply waits for room. -/
structure Dismissed (moves : List (Move β α)) (s : Shift β α) : Prop where
  taken : ∀ a ∈ s.handled, ∃ m ∈ s.took[a.job.number]?, a.reply.id = m.id ∧ a.job.body = m.body
  once : (s.handled.map (·.job.number) ++ s.worker.jobs.map (·.number)).Nodup
  reason : ∀ a ∈ s.handled, Reason moves s.fired a
  channel : Accounts (s.others ++ s.posted.map (·.reply)) s.received s.replies.items s.lost
  dropped : ∀ d ∈ s.dropped, MayDrop d
  ended : s.worker.hasEnded = true → s.worker.jobs = [] ∧ s.queued = [] ∧
    ∀ number < s.took.length, ∃ a ∈ s.handled, a.job.number = number
  after : s.worker.hasEnded = true → ∀ more : List (Move β α),
    (s.run more).worker.hasEnded = true ∧ (s.run more).worker.jobs = [] ∧
      (s.run more).took = s.took ∧ (s.run more).handled.Perm s.handled
  nearEnd : s.fired = true → s.queued = [] → ∃ more : List (Move β α),
    (∀ m ∈ more, m.isOwn = true) ∧ (s.run more).worker.hasEnded = true

theorem RepliesAccounted.taken_of_mem {s : Shift β α} (h : s.RepliesAccounted) {a : Handled β α}
    (ha : a ∈ s.handled) :
    ∃ m ∈ s.took[a.job.number]?, a.reply.id = m.id ∧ a.job.body = m.body := by
  have hmem : a.job ∈ s.invoked :=
    h.jobs.mem_iff.mpr (List.mem_append_left _ (List.mem_map_of_mem ha))
  obtain ⟨i, hi, hjob⟩ := List.mem_mapIdx.mp hmem
  refine ⟨s.took[i], ?_, ?_, ?_⟩
  · rw [← hjob]
    exact List.getElem?_eq_getElem hi
  · rw [Handled.reply, ← hjob]
  · rw [← hjob]

theorem RepliesAccounted.ended_of_lt {s : Shift β α} (h : s.RepliesAccounted)
    (hjobs : s.worker.jobs = []) {number : Nat} (hlt : number < s.took.length) :
    ∃ a ∈ s.handled, a.job.number = number := by
  have hperm := h.jobs.map (·.number)
  rw [numbers_invoked, hjobs, List.append_nil, List.map_map] at hperm
  simpa using hperm.mem_iff.mp (List.mem_range.mpr hlt)

/-- Whatever happens on the channels and whenever the worker is told to stop, its shift is in
order, to its end and after. -/
theorem run_dismissed (requests : Channel (Message β)) (capacity : Nat) (items : List (Reply α))
    (received fired : Bool) (moves : List (Move β α)) :
    Dismissed moves ((opening requests capacity items received fired).run moves) := by
  have hopening := RepliesAccounted.opening requests capacity items received fired
  have haccounted := hopening.run moves
  have hover := over_run hopening (by simp [opening]) moves
  have hreason := fun a => mem_handled_run (a := a)
    (opening requests capacity items received fired) moves
  have hnone : (opening requests capacity items received fired).handled = [] := rfl
  rw [hnone] at hreason
  generalize (opening requests capacity items received fired).run moves = s at *
  have hended : s.worker.hasEnded = true ↔ s.worker.phase = .ended := beq_iff_eq
  refine ⟨fun a => haccounted.taken_of_mem, haccounted.nodup, fun a ha => ?_, haccounted.channel,
    haccounted.dropped, fun h => ?_, fun h more => ?_, fun hfired hqueued => ?_⟩
  · exact (hreason a ha).resolve_left List.not_mem_nil
  · have hjobs := (hover (hended.mp h)).jobs
    exact ⟨hjobs, (hover (hended.mp h)).queued, fun _ => haccounted.ended_of_lt hjobs⟩
  · have hleaves := (hover (hended.mp h)).run more
    have hrest := hleaves.isOver (hover (hended.mp h))
    exact ⟨beq_iff_eq.mpr hrest.ended, hrest.jobs, hleaves.took, hleaves.handled⟩
  · obtain ⟨more, hown, hmore⟩ := exists_end haccounted hfired hqueued
    exact ⟨more, hown, beq_iff_eq.mpr hmore⟩

/-- The first of two requests is answered and fills the channel, so the second one ends without a
reply when the worker stops. -/
example :
    let requests : Channel (Message Unit) :=
      { capacity := 2, items := [⟨.given "a", "", ()⟩, ⟨.given "b", "", ()⟩] }
    let s := (opening requests 1 [] true false).run [.take, .take, .finish 0 (.ok ()), .fire,
      .notice, .close, .giveUp 1, .leave]
    s.worker.hasEnded = true ∧ s.posted.map (·.job.number) = [0] ∧
      s.dropped.map (·.1.job.number) = [1] := by decide

end Shift

end AgentGateway.Bus
