import AgentGateway.Proofs.Bus.Parts
import AgentGateway.Proofs.Correlation.Sparing
import Mathlib.Algebra.Order.Group.Multiset
import Mathlib.Tactic.Abel

/-!
# Submissions on their way in

To submit a request is to register it, to send it, and to take it back if it cannot be sent. Other
things happen between these steps: a submission may wait for room while requests are taken, while
its entry is overdue and swept, while the engine is shut down, and while the worker comes to its
end. Each step is a move of its own here, and so is everything that others do.

A submission that fails leaves nothing behind. What its submitter learns is that something has shut
down, its request is never handled, the engine awaits no reply under its identifier, and none of
its steps changes what the engine awaits under others (`Intake.run_traceless`).

Moments are not required to be in order. Nobody knows an identifier before it is generated, and
nobody but its submitter knows it before the request is on the channel; so nobody else registers
it. That is all that is asked of the other users of the engine.
-/

namespace AgentGateway.Bus

open Correlation (Engine Id Registration Outcome Action isShutDown)

/-- A bus with the submissions that have got past their registration. A request that is `registered`
is still to be sent. If the worker was gone before it could be, it is `unsent` until it is taken
back and `undone`; else it is `accepted`, and stays so when it is taken off the channel. A request
that was not registered is `refused`, with what its submitter has learnt. The ones that wait for
room wait in the channel. -/
structure Intake (β α : Type) where
  gateway : Gateway β α
  registered : List (Message β) := []
  unsent : List (Message β) := []
  accepted : List (Message β) := []
  undone : List (Message β) := []
  refused : List (Message β × Failure) := []
  invoked : List (Job β) := []

namespace Intake

/-- What can happen at a bus. A submission registers its request (`begin`), sends it (`send`), and
takes it back if it could not be sent (`undo`). The other moves are those of the worker, which ends
by `leave`, of the listener, and of others who use the engine; by `drop` the submitting side goes
away. -/
inductive Move (β α : Type) where
  | begin (name : String) (body : β) (timeout : Option Duration) (moment : Duration)
  | send (place : Nat)
  | undo (place : Nat) (moment : Duration)
  | act (a : Action α) (moment : Duration)
  | take
  | finish (number : Nat) (result : Except Failure α)
  | crash (number : Nat)
  | giveUp (number : Nat)
  | cancel
  | close
  | leave
  | deliver (moment : Duration)
  | stopListening
  | drop

variable {β α : Type}

/-- A bus at the beginning, with an engine of its own. -/
def opening (timeout : Duration) (capacity : Nat) : Intake β α :=
  { gateway := Gateway.ofCapacity (Engine.fresh timeout) capacity }

def engine (s : Intake β α) : Engine α := s.gateway.engine

def requests (s : Intake β α) : Channel (Message β) := s.gateway.worker.requests

/-- The submissions that have failed, with what the submitters have learnt. -/
def failed (s : Intake β α) : List (Message β × Failure) :=
  s.undone.map (fun m => (m, notRunning)) ++ s.refused

/-- The identifier that a step of a submission is about. -/
def subject? (s : Intake β α) : Move β α → Option Id
  | .begin name .. => some (.generated s.engine.issued name)
  | .send place => s.registered[place]?.map (·.id)
  | .undo place _ => s.unsent[place]?.map (·.id)
  | _ => none

/-- The requests of which only their submitters know. -/
def hidden (s : Intake β α) : List (Message β) :=
  s.registered ++ s.requests.waiting ++ s.unsent ++ s.undone

/-- The requests that have been registered. -/
def messages (s : Intake β α) : List (Message β) := s.hidden ++ s.accepted

/-- Whether others may come to know an identifier. -/
def Known (s : Intake β α) (id : Id) : Prop := s.engine.Issued id ∧ ∀ m ∈ s.hidden, m.id ≠ id

instance (s : Intake β α) : DecidablePred s.Known :=
  fun id => inferInstanceAs (Decidable (s.engine.Issued id ∧ ∀ m ∈ s.hidden, m.id ≠ id))

/-- Whether others can do something with the engine: they register no identifier that they do not
know, and the engine does not go away while there are submissions. -/
def Allows (s : Intake β α) : Action α → Prop
  | .register id _ => s.Known id
  | .drop => False
  | _ => True

instance (s : Intake β α) : DecidablePred s.Allows
  | .register id _ => inferInstanceAs (Decidable (s.Known id))
  | .drop => inferInstanceAs (Decidable False)
  | .registerNew .. | .complete .. | .fail .. | .sweep | .shutdown =>
    inferInstanceAs (Decidable True)

def withEngine (s : Intake β α) (engine : Engine α) : Intake β α :=
  { s with gateway := { s.gateway with engine } }

def withWorker (s : Intake β α) (worker : Worker β α) : Intake β α :=
  { s with gateway := { s.gateway with worker } }

/-- The registration of a request has led to something. -/
def enter (s : Intake β α) (m : Message β) : Registration → Intake β α
  | .registered _ => { s with registered := s.registered ++ [m] }
  | .refused cause => { s with refused := s.refused ++ [(m, cause)] }
  | .impossible => s

def begin (s : Intake β α) (name : String) (body : β) (timeout : Option Duration)
    (moment : Duration) : Intake β α :=
  let (engine, id, r) := s.engine.registerNew moment name timeout
  (s.withEngine engine).enter ⟨id, replyAddress, body⟩ r

def send (s : Intake β α) (place : Nat) : Intake β α :=
  match s.registered[place]? with
  | some m =>
    let s' := { s with registered := s.registered.eraseIdx place }
    match s.requests.send? m with
    | some requests =>
      { s'.withWorker { s.gateway.worker with requests } with
        accepted := if s.requests.hasRoom then s.accepted ++ [m] else s.accepted }
    | none => { s' with unsent := s.unsent ++ [m] }
  | none => s

def undo (s : Intake β α) (place : Nat) (moment : Duration) : Intake β α :=
  match s.unsent[place]? with
  | some m =>
    { s.withEngine (s.engine.fail moment m.id notRunning).1 with
      unsent := s.unsent.eraseIdx place, undone := s.undone ++ [m] }
  | none => s

def act (s : Intake β α) (a : Action α) (moment : Duration) : Intake β α :=
  if s.Allows a then s.withEngine (s.engine.perform moment a).1 else s

/-- A request is taken, and one that has waited may find room. -/
def take (s : Intake β α) : Intake β α :=
  match s.gateway.worker.take? with
  | some (job, worker) =>
    let count := s.requests.waiting.length - worker.requests.waiting.length
    { s.withWorker worker with
      accepted := s.accepted ++ s.requests.waiting.take count
      invoked := s.invoked ++ [job] }
  | none => s

def leave (s : Intake β α) : Intake β α :=
  match s.gateway.worker.end? with
  | some worker => { s.withWorker worker with unsent := s.unsent ++ s.requests.waiting }
  | none => s

/-- Makes a move. One that is not possible changes nothing. -/
def step (s : Intake β α) : Move β α → Intake β α
  | .begin name body timeout moment => s.begin name body timeout moment
  | .send place => s.send place
  | .undo place moment => s.undo place moment
  | .act a moment => s.act a moment
  | .take => s.take
  | .finish number result => s.withWorker (s.gateway.worker.finish number result)
  | .crash number => s.withWorker (s.gateway.worker.crash number)
  | .giveUp number => s.withWorker (s.gateway.worker.giveUp number)
  | .cancel => s.withWorker s.gateway.worker.cancel
  | .close => s.withWorker (s.gateway.worker.close?.getD s.gateway.worker)
  | .leave => s.leave
  | .deliver moment => { s with gateway := (s.gateway.deliver? moment).getD s.gateway }
  | .stopListening => { s with gateway := s.gateway.stopListening }
  | .drop => { s with gateway := s.gateway.drop }

def run (s : Intake β α) (moves : List (Move β α)) : Intake β α := moves.foldl step s

/-! ## What the moves do -/

section Moves

variable (s : Intake β α)

@[simp] theorem engine_enter (m : Message β) (r : Registration) :
    (s.enter m r).engine = s.engine := by
  cases r <;> rfl

theorem begin_eq (name : String) (body : β) (timeout : Option Duration) (moment : Duration) :
    s.begin name body timeout moment =
      (s.withEngine (s.engine.registerNew moment name timeout).1).enter
        ⟨.generated s.engine.issued name, replyAddress, body⟩
        (s.engine.registerNew moment name timeout).2.2 :=
  rfl

@[simp] theorem engine_begin (name : String) (body : β) (timeout : Option Duration)
    (moment : Duration) :
    (s.begin name body timeout moment).engine = (s.engine.registerNew moment name timeout).1 := by
  rw [begin_eq, engine_enter]
  rfl

@[simp] theorem engine_send (place : Nat) : (s.send place).engine = s.engine := by
  unfold send
  split
  · split <;> rfl
  · rfl

@[simp] theorem failed_send (place : Nat) : (s.send place).failed = s.failed := by
  unfold send
  split
  · split <;> rfl
  · rfl

@[simp] theorem failed_act (a : Action α) (moment : Duration) :
    (s.act a moment).failed = s.failed := by
  unfold act
  split <;> rfl

@[simp] theorem failed_take : s.take.failed = s.failed := by
  unfold take
  split <;> rfl

@[simp] theorem failed_leave : s.leave.failed = s.failed := by
  unfold leave
  split <;> rfl

end Moves

/-! ## The engine while submissions are on their way -/

/-- What holds of a bus at any moment. A registration is refused only after the engine has been shut
down. -/
structure Consistent (s : Intake β α) : Prop where
  engine : s.engine.WellFormed
  entries : ∀ p ∈ s.engine.entries, s.engine.Issued p.id
  issued : ∀ m ∈ s.messages, s.engine.Issued m.id
  ids : (s.messages.map (·.id)).Nodup
  undone : ∀ m ∈ s.undone, s.engine.find? m.id = none
  refused : ∀ f ∈ s.refused, s.engine.closed = true ∧ f.2 = isShutDown ∧
    ∃ name, f.1.id = .generated s.engine.issued name
  items : ∀ m ∈ s.requests.items, m ∈ s.accepted
  invoked : ∀ job ∈ s.invoked, ∃ m ∈ s.accepted, job.id = m.id ∧ job.body = m.body

/-- An action registers nothing but what is new or known, and no request that was taken back. -/
def Fair (s : Intake β α) (a : Action α) : Prop :=
  ∀ id ∈ a.claims s.engine, (s.engine.Issued id ∨ ∃ name, id = .generated s.engine.issued name) ∧
    ∀ m ∈ s.undone, m.id ≠ id

namespace Consistent

variable {s : Intake β α}

theorem opening (timeout : Duration) (capacity : Nat) :
    (Intake.opening timeout capacity : Intake β α).Consistent where
  engine := Correlation.Engine.wellFormed_fresh timeout
  entries := by simp [Intake.opening, Intake.engine, Gateway.ofCapacity, Engine.fresh]
  issued := by simp [Intake.opening, messages, hidden, requests, Gateway.ofCapacity]
  ids := by simp [Intake.opening, messages, hidden, requests, Gateway.ofCapacity]
  undone := by simp [Intake.opening]
  refused := by simp [Intake.opening]
  items := by simp [Intake.opening, requests, Gateway.ofCapacity]
  invoked := by simp [Intake.opening]

theorem ne_new (h : s.Consistent) {m : Message β} (hm : m ∈ s.messages) (name : String) :
    m.id ≠ .generated s.engine.issued name := by
  intro heq
  have hlt : s.engine.Issued (.generated s.engine.issued name) := heq ▸ h.issued m hm
  exact Nat.lt_irrefl s.engine.issued hlt

theorem fair_registerNew (h : s.Consistent) (name : String) (timeout : Option Duration) :
    s.Fair (.registerNew name timeout : Action α) := by
  intro id hid
  obtain rfl := Option.some.inj hid
  refine ⟨.inr ⟨name, rfl⟩, fun m hm => h.ne_new ?_ name⟩
  exact List.mem_append_left _ (List.mem_append_right _ hm)

theorem fair_of_claims_eq_none {a : Action α} (ha : a.claims s.engine = none) : s.Fair a := by
  intro id hid
  cases ha.symm.trans hid

theorem fair_of_allows (h : s.Consistent) {a : Action α} (ha : s.Allows a) : s.Fair a := by
  cases a with
  | register id timeout =>
      intro id' hid
      obtain rfl := Option.some.inj hid
      exact ⟨.inl ha.1, fun m hm => ha.2 m (List.mem_append_right _ hm)⟩
  | registerNew name timeout => exact h.fair_registerNew name timeout
  | complete | fail | sweep | shutdown => exact fair_of_claims_eq_none rfl
  | drop => exact ha.elim

theorem perform (h : s.Consistent) {a : Action α} (ha : s.Fair a) (moment : Duration) :
    (s.withEngine (s.engine.perform moment a).1).Consistent where
  engine := Engine.perform_wellFormed h.engine moment a
  entries p hp := by
    obtain ⟨hp, -⟩ | hmade := (Engine.mem_perform h.engine).mp hp
    · exact (h.entries p hp).perform h.engine moment a
    · exact Engine.issued_of_made h.engine hmade (ha p.id (Engine.claims_of_made hmade)).1
  issued m hm := (h.issued m hm).perform h.engine moment a
  ids := h.ids
  undone m hm := by
    refine Engine.find?_eq_none_iff.mpr fun p hp hid => ?_
    obtain ⟨hp, -⟩ | hmade := (Engine.mem_perform h.engine).mp hp
    · exact Engine.find?_eq_none_iff.mp (h.undone m hm) p hp hid
    · exact (ha p.id (Engine.claims_of_made hmade)).2 m hm hid.symm
  refused f hf := by
    obtain ⟨hclosed, hcause, name, hname⟩ := h.refused f hf
    refine ⟨Engine.perform_closed h.engine (.inl hclosed), hcause, name, hname.trans ?_⟩
    -- a closed engine generates nothing
    have hnone : (s.engine.entry moment a).made? s.engine.defaultTimeout = none := by
      rw [Option.eq_none_iff_forall_not_mem]
      intro p hp
      cases hclosed.symm.trans (Engine.made?_entry h.engine hp).1
    have hissued := Engine.perform_issued h.engine moment a
    rw [hnone, Option.toList_none, List.length_nil, Nat.add_zero] at hissued
    exact congrArg (Id.generated · name) hissued.symm
  items := h.items
  invoked := h.invoked

end Consistent

/-! ## The submissions on their way -/

theorem coe_messages (s : Intake β α) : (s.messages : Multiset (Message β)) =
    s.registered + s.requests.waiting + s.unsent + s.undone + s.accepted := by
  simp [messages, hidden, ← Multiset.coe_add, add_assoc]

theorem coe_eraseIdx {γ : Type} {l : List γ} {place : Nat} {x : γ} (h : l[place]? = some x) :
    (l : Multiset γ) = {x} + l.eraseIdx place := by
  obtain ⟨hlt, rfl⟩ := List.getElem?_eq_some_iff.mp h
  rw [← Multiset.coe_singleton, Multiset.coe_add, Multiset.coe_eq_coe]
  exact (List.getElem_cons_eraseIdx_perm hlt).symm

namespace Consistent

variable {s s' : Intake β α}

theorem move (h : s.Consistent) (hengine : s'.engine = s.engine)
    (hmessages : (s'.messages : Multiset (Message β)) = s.messages) (hundone : s'.undone = s.undone)
    (hrefused : s'.refused = s.refused) (hitems : ∀ m ∈ s'.requests.items, m ∈ s'.accepted)
    (hinvoked : ∀ job ∈ s'.invoked, ∃ m ∈ s'.accepted, job.id = m.id ∧ job.body = m.body) :
    s'.Consistent := by
  have hperm := Multiset.coe_eq_coe.mp hmessages
  refine ⟨hengine ▸ h.engine, hengine ▸ h.entries, ?_, ?_, ?_, ?_, hitems, hinvoked⟩
  · rw [hengine]
    exact fun m hm => h.issued m (hperm.mem_iff.mp hm)
  · exact (hperm.map _).nodup_iff.mpr h.ids
  · rw [hengine, hundone]
    exact h.undone
  · rw [hengine, hrefused]
    exact h.refused

/-- Something happens that has nothing to do with requests. -/
theorem withGateway (h : s.Consistent) {g : Gateway β α} (hengine : g.engine = s.engine)
    (hitems : g.worker.requests.items = s.requests.items)
    (hwaiting : g.worker.requests.waiting = s.requests.waiting) :
    ({ s with gateway := g } : Intake β α).Consistent := by
  refine h.move hengine ?_ rfl rfl ?_ h.invoked
  · rw [coe_messages, coe_messages, ← hwaiting]
    rfl
  · intro m hm
    exact h.items m (hitems ▸ hm)

theorem withWorker (h : s.Consistent) {w : Worker β α} (hw : w.requests = s.requests) :
    (s.withWorker w).Consistent :=
  h.withGateway rfl (congrArg (·.items) hw) (congrArg (·.waiting) hw)

theorem enroll (h : s.Consistent) {m : Message β} (hissued : s.engine.Issued m.id)
    (hnew : ∀ m' ∈ s.messages, m'.id ≠ m.id) :
    ({ s with registered := s.registered ++ [m] } : Intake β α).Consistent := by
  have hperm : ({ s with registered := s.registered ++ [m] } : Intake β α).messages.Perm
      (m :: s.messages) := by
    rw [← Multiset.coe_eq_coe, ← Multiset.cons_coe, coe_messages, coe_messages,
      ← Multiset.singleton_add]
    simp only [Intake.requests, ← Multiset.coe_add, Multiset.coe_singleton]
    abel
  refine ⟨h.engine, h.entries, fun m' hm' => ?_, ?_, h.undone, h.refused, h.items, h.invoked⟩
  · obtain rfl | hm' := List.mem_cons.mp (hperm.mem_iff.mp hm')
    · exact hissued
    · exact h.issued m' hm'
  · refine (hperm.map _).nodup_iff.mpr (List.nodup_cons.mpr ⟨fun hmem => ?_, h.ids⟩)
    obtain ⟨m', hm', hid⟩ := List.mem_map.mp hmem
    exact hnew m' hm' hid

theorem begin (h : s.Consistent) (name : String) (body : β) (timeout : Option Duration)
    (moment : Duration) : (s.begin name body timeout moment).Consistent := by
  have hperform := h.perform (h.fair_registerNew name timeout) moment
  rw [begin_eq]
  cases hr : (s.engine.registerNew moment name timeout).2.2 with
  | registered ticket =>
      exact hperform.enroll (Engine.issued_of_registered h.engine hr) fun m hm => h.ne_new hm name
  | refused cause =>
      obtain ⟨hclosed, rfl, hsame⟩ := Engine.registerNew_refused h.engine h.entries hr
      rw [hsame]
      refine ⟨h.engine, h.entries, h.issued, h.ids, h.undone, ?_, h.items, h.invoked⟩
      refine List.forall_mem_append.mpr ⟨h.refused, ?_⟩
      exact List.forall_mem_singleton.mpr ⟨hclosed, rfl, name, rfl⟩
  | impossible => exact hperform

theorem send (h : s.Consistent) (place : Nat) : (s.send place).Consistent := by
  unfold Intake.send
  split
  next m hm =>
    have hregistered := coe_eraseIdx hm
    split
    next requests hs =>
      obtain ⟨hroom, rfl⟩ | ⟨hroom, rfl⟩ := Channel.send?_cases hs
      · rw [if_pos hroom]
        refine h.move rfl ?_ rfl rfl ?_ ?_
        · rw [coe_messages, coe_messages, hregistered]
          simp only [Intake.withWorker, Intake.requests, ← Multiset.coe_add,
            Multiset.coe_singleton]
          abel
        · exact fun m' hm' => (List.mem_append.mp hm').elim
            (fun hm' => List.mem_append_left _ (h.items m' hm')) (List.mem_append_right _)
        · intro job hjob
          obtain ⟨m', hm', hkey⟩ := h.invoked job hjob
          exact ⟨m', List.mem_append_left _ hm', hkey⟩
      · rw [if_neg (Bool.eq_false_iff.mp hroom)]
        refine h.move rfl ?_ rfl rfl h.items h.invoked
        rw [coe_messages, coe_messages, hregistered]
        simp only [Intake.withWorker, Intake.requests, ← Multiset.coe_add, Multiset.coe_singleton]
        abel
    next hs =>
      refine h.move rfl ?_ rfl rfl h.items h.invoked
      rw [coe_messages, coe_messages, hregistered]
      simp only [Intake.requests, ← Multiset.coe_add, Multiset.coe_singleton]
      abel
  next => exact h

theorem undo (h : s.Consistent) (place : Nat) (moment : Duration) :
    (s.undo place moment).Consistent := by
  unfold Intake.undo
  split
  next m hm =>
    have hperform := h.perform (a := .fail m.id notRunning) (fair_of_claims_eq_none rfl) moment
    have hperm : (s.undo place moment).messages.Perm s.messages := by
      rw [← Multiset.coe_eq_coe, coe_messages, coe_messages, coe_eraseIdx hm]
      simp only [Intake.undo, hm, Intake.withEngine, Intake.requests, ← Multiset.coe_add,
        Multiset.coe_singleton]
      abel
    simp only [Intake.undo, hm] at hperm
    refine ⟨hperform.engine, hperform.entries, fun m' hm' => ?_, ?_, ?_, hperform.refused,
      h.items, h.invoked⟩
    · exact hperform.issued m' (hperm.mem_iff.mp hm')
    · exact (hperm.map _).nodup_iff.mpr h.ids
    · refine List.forall_mem_append.mpr ⟨hperform.undone, List.forall_mem_singleton.mpr ?_⟩
      exact Engine.find?_resolve s.engine moment m.id (.error notRunning)
  next => exact h

theorem act (h : s.Consistent) (a : Action α) (moment : Duration) :
    (s.act a moment).Consistent := by
  unfold Intake.act
  split
  next ha => exact h.perform (h.fair_of_allows ha) moment
  next => exact h

theorem take (h : s.Consistent) : s.take.Consistent := by
  unfold Intake.take
  split
  next job worker hw =>
    obtain ⟨-, -, m, requests, hr, rfl, rfl⟩ := Worker.take?_eq_some hw
    obtain ⟨moved, hwaiting, hitems⟩ := Channel.exists_moved hr
    have hmoved : s.requests.waiting.take (s.requests.waiting.length - requests.waiting.length) =
        moved := by
      rw [Intake.requests, hwaiting, List.length_append, Nat.add_sub_cancel, List.take_left]
    have hmem : m ∈ s.accepted := by
      refine h.items m ?_
      rw [Intake.requests, (Channel.items_of_receive? hr).1]
      exact List.mem_cons_self
    dsimp only
    rw [hmoved]
    refine h.move rfl ?_ rfl rfl ?_ ?_
    · rw [coe_messages, coe_messages]
      simp only [Intake.withWorker, Intake.requests, hwaiting, ← Multiset.coe_add]
      abel
    · intro m' hm'
      have hmem' : m' ∈ s.requests.items ++ moved := by
        rw [Intake.requests, hitems]
        exact List.mem_cons_of_mem m hm'
      obtain hm' | hm' := List.mem_append.mp hmem'
      · exact List.mem_append_left _ (h.items m' hm')
      · exact List.mem_append_right _ hm'
    · refine List.forall_mem_append.mpr ⟨fun job hjob => ?_, List.forall_mem_singleton.mpr ?_⟩
      · obtain ⟨m', hm', hkey⟩ := h.invoked job hjob
        exact ⟨m', List.mem_append_left _ hm', hkey⟩
      · exact ⟨m, List.mem_append_left _ hmem, rfl, rfl⟩
  next => exact h

theorem leave (h : s.Consistent) : s.leave.Consistent := by
  unfold Intake.leave
  split
  next worker hw =>
    obtain ⟨-, -, -, rfl⟩ := Worker.end?_eq_some hw
    refine h.move rfl ?_ rfl rfl (by simp [Intake.requests, Intake.withWorker, Channel.hangUp])
      h.invoked
    rw [coe_messages, coe_messages]
    simp only [Intake.withWorker, Intake.requests, Channel.hangUp, ← Multiset.coe_add,
      Multiset.coe_nil]
    abel
  next => exact h

theorem deliver (h : s.Consistent) (moment : Duration) : (s.step (.deliver moment)).Consistent := by
  show ({ s with gateway := (s.gateway.deliver? moment).getD s.gateway } : Intake β α).Consistent
  cases hd : s.gateway.deliver? moment with
  | none => exact h
  | some g =>
      obtain ⟨-, reply, replies, -, rfl⟩ := Gateway.deliver?_eq_some hd
      have hw : (s.withWorker { s.gateway.worker with replies }).Consistent := h.withWorker rfl
      have hperform := hw.perform (a := .reply reply.id reply.result)
        (fair_of_claims_eq_none (by cases reply.result <;> rfl)) moment
      rw [← Engine.resolve_eq_perform] at hperform
      exact hperform

theorem step (h : s.Consistent) (m : Move β α) : (s.step m).Consistent := by
  cases m with
  | begin name body timeout moment => exact h.begin name body timeout moment
  | send place => exact h.send place
  | undo place moment => exact h.undo place moment
  | act a moment => exact h.act a moment
  | take => exact h.take
  | finish number result => exact h.withWorker (Worker.requests_finish _ number result)
  | crash number => exact h.withWorker rfl
  | giveUp number => exact h.withWorker (Worker.requests_giveUp _ number)
  | cancel => exact h.withWorker rfl
  | close =>
      refine h.withWorker ?_
      cases hc : s.gateway.worker.close? with
      | none => rfl
      | some w =>
          obtain ⟨-, -, rfl⟩ := Worker.close?_eq_some hc
          rfl
  | leave => exact h.leave
  | deliver moment => exact h.deliver moment
  | stopListening | drop => exact h.withGateway rfl rfl rfl

theorem run (h : s.Consistent) (moves : List (Move β α)) : (s.run moves).Consistent := by
  induction moves generalizing s with
  | nil => exact h
  | cons m moves ih => exact ih (h.step m)

end Consistent

/-! ## Failing -/

/-- A submission fails by a step of its own, and nothing undoes the failure. -/
theorem exists_failed_step (s : Intake β α) (m : Move β α) :
    ∃ new, (s.step m).failed.Perm (s.failed ++ new) ∧ ∀ f ∈ new, s.subject? m = some f.1.id := by
  have hidle : (s.step m).failed = s.failed →
      ∃ new, (s.step m).failed.Perm (s.failed ++ new) ∧ ∀ f ∈ new, s.subject? m = some f.1.id :=
    fun h => ⟨[], by rw [h, List.append_nil], by simp⟩
  cases m with
  | begin name body timeout moment =>
      have hbegin := s.begin_eq name body timeout moment
      cases hr : (s.engine.registerNew moment name timeout).2.2 with
      | refused cause =>
          rw [hr] at hbegin
          refine ⟨[(⟨.generated s.engine.issued name, replyAddress, body⟩, cause)], .of_eq ?_,
            List.forall_mem_singleton.mpr rfl⟩
          rw [step, hbegin]
          exact (List.append_assoc _ s.refused _).symm
      | registered | impossible =>
          rw [hr] at hbegin
          exact hidle (by rw [step, hbegin]; rfl)
  | undo place moment =>
      show ∃ new, (s.undo place moment).failed.Perm _ ∧ _
      unfold undo
      split
      next m hm =>
        refine ⟨[(m, notRunning)], ?_, List.forall_mem_singleton.mpr (by simp [subject?, hm])⟩
        simp only [failed, withEngine, List.map_append, List.map_cons, List.map_nil,
          List.append_assoc]
        exact List.perm_append_comm.append_left _
      next => exact ⟨[], by simp, by simp⟩
  | send place => exact hidle (s.failed_send place)
  | act a moment => exact hidle (s.failed_act a moment)
  | take => exact hidle s.failed_take
  | leave => exact hidle s.failed_leave
  | finish | crash | giveUp | cancel | close | deliver | stopListening | drop => exact hidle rfl

theorem mem_failed_run {s : Intake β α} {f : Message β × Failure} (h : f ∈ s.failed)
    (moves : List (Move β α)) : f ∈ (s.run moves).failed := by
  induction moves generalizing s with
  | nil => exact h
  | cons m moves ih =>
      obtain ⟨new, hperm, -⟩ := s.exists_failed_step m
      exact ih (hperm.mem_iff.mpr (List.mem_append_left _ h))

/-- The steps of a submission change nothing of what the engine awaits under other identifiers. -/
theorem spares_step {s : Intake β α} (h : s.Consistent) {m : Move β α} {id : Id}
    (hsubject : s.subject? m = some id) : Engine.Spares id s.engine (s.step m).engine := by
  cases m with
  | begin name body timeout moment =>
      obtain rfl := Option.some.inj hsubject
      rw [step, engine_begin]
      exact Engine.spares_registerNew h.engine moment name timeout
  | send place =>
      rw [step, engine_send]
      exact .refl id s.engine
  | undo place moment =>
      obtain ⟨m, hm, rfl⟩ := Option.map_eq_some_iff.mp hsubject
      rw [step, undo, hm]
      exact Engine.spares_resolve h.engine moment m.id (.error notRunning)
  | act | take | finish | crash | giveUp | cancel | close | leave | deliver | stopListening
  | drop => cases hsubject

/-! ## Steps that nothing comes between -/

/-- The steps of a submission that nothing comes between. -/
def submission (s : Intake β α) (name : String) (body : β) (timeout : Option Duration)
    (moment : Duration) : List (Move β α) :=
  [.begin name body timeout moment, .send s.registered.length, .undo s.unsent.length moment]

/-- A submission that nothing comes between is the one that the gateway makes at once. -/
theorem run_submission (s : Intake β α) (name : String) (body : β) (timeout : Option Duration)
    (moment : Duration) :
    (s.run (s.submission name body timeout moment)).gateway =
        (s.gateway.submit moment name body timeout).1 ∧
      ∀ cause, (s.gateway.submit moment name body timeout).2 = .refused cause →
        (⟨.generated s.engine.issued name, replyAddress, body⟩, cause) ∈
          (s.run (s.submission name body timeout moment)).failed := by
  have hrun : s.run (s.submission name body timeout moment) =
      ((s.begin name body timeout moment).send s.registered.length).undo s.unsent.length moment :=
    rfl
  have hid : (s.gateway.engine.registerNew moment name timeout).2.1 =
      .generated s.engine.issued name := rfl
  have hbegin := s.begin_eq name body timeout moment
  rw [hrun, hbegin, Gateway.submit, ← hid, Intake.engine]
  rcases s.gateway.engine.registerNew moment name timeout with ⟨engine, id, r⟩
  cases r with
  | registered ticket =>
      cases hs : s.gateway.worker.requests.send? ⟨id, replyAddress, body⟩ with
      | some requests => simp [enter, send, undo, withEngine, withWorker, Intake.requests, hs]
      | none => simp [enter, send, undo, withEngine, Intake.requests, Intake.engine, failed, hs]
  | refused cause => simp [enter, send, undo, withEngine, failed]
  | impossible => simp [enter, send, undo, withEngine]

/-- The requests that could not be sent are taken back one after another. -/
theorem run_undo (s : Intake β α) (moment : Duration) {kept rest : List (Message β)}
    (h : s.unsent = kept ++ rest) :
    s.run (List.replicate rest.length (.undo kept.length moment)) =
      { s.withEngine (rest.foldl (fun e m => (e.fail moment m.id notRunning).1) s.engine) with
        unsent := kept, undone := s.undone ++ rest } := by
  induction rest generalizing s with
  | nil =>
      rw [List.append_nil] at h
      simp [run, withEngine, Intake.engine, ← h]
  | cons m rest ih =>
      have hundo : s.undo kept.length moment =
          { s.withEngine (s.engine.fail moment m.id notRunning).1 with
            unsent := kept ++ rest, undone := s.undone ++ [m] } := by
        simp [undo, h, List.eraseIdx_append_of_length_le]
      show (s.undo kept.length moment).run _ = _
      rw [ih _ (by rw [hundo]), hundo]
      simp [withEngine, Intake.engine]

/-- The worker ends, and the submissions that wait for room take their requests back at once. -/
def ending (s : Intake β α) (moment : Duration) : List (Move β α) :=
  .leave :: List.replicate s.requests.waiting.length (.undo s.unsent.length moment)

theorem run_ending (s : Intake β α) (moment : Duration) {g : Gateway β α} {refused : List Id}
    (h : s.gateway.endWorker? moment = some (g, refused)) :
    (s.run (s.ending moment)).gateway = g ∧ refused = s.requests.waiting.map (·.id) ∧
      ∀ m ∈ s.requests.waiting, (m, notRunning) ∈ (s.run (s.ending moment)).failed := by
  obtain ⟨worker, hw, rfl, rfl⟩ := Gateway.endWorker?_eq_some h
  have hleave : s.leave =
      { s.withWorker worker with unsent := s.unsent ++ s.requests.waiting } := by
    simp [leave, hw]
  have hrun : s.run (s.ending moment) = _ := run_undo s.leave moment (by rw [hleave])
  rw [hrun, hleave]
  refine ⟨?_, rfl, fun m hm => ?_⟩
  · simp [withEngine, withWorker, Intake.engine, Intake.requests, List.foldl_map]
  · simp [failed, hm]

/-! ## Whatever happens -/

/-- What holds at any moment, with submissions on their way. The submitter of a failed one learns
that something has shut down. From then on no reply is awaited under its identifier, and the handler
is never called for the request, whatever else happens. A submission fails by a step of its own, and
none of its steps changes what is awaited under other identifiers. One that nothing comes between is
the one that the gateway makes at once, and those that wait for room fail when the worker ends. -/
structure Traceless (s : Intake β α) : Prop where
  cause : ∀ f ∈ s.failed, ∃ text, f.2 = .shutdown text
  forgotten : ∀ f ∈ s.failed, ∀ more : List (Move β α), f ∈ (s.run more).failed ∧
    (s.run more).engine.find? f.1.id = none ∧
    (∀ m ∈ (s.run more).requests.items ++ (s.run more).requests.waiting, m.id ≠ f.1.id) ∧
    ∀ job ∈ (s.run more).invoked, job.id ≠ f.1.id
  own : ∀ m : Move β α, ∀ f ∈ (s.step m).failed, f ∈ s.failed ∨ s.subject? m = some f.1.id
  spared : ∀ (m : Move β α) (id : Id), s.subject? m = some id →
    Engine.Spares id s.engine (s.step m).engine
  atOnce : ∀ name body timeout moment,
    (s.run (s.submission name body timeout moment)).gateway =
        (s.gateway.submit moment name body timeout).1 ∧
      ∀ cause, (s.gateway.submit moment name body timeout).2 = .refused cause →
        (⟨.generated s.engine.issued name, replyAddress, body⟩, cause) ∈
          (s.run (s.submission name body timeout moment)).failed
  atEnd : ∀ moment g refused, s.gateway.endWorker? moment = some (g, refused) →
    (s.run (s.ending moment)).gateway = g ∧ refused = s.requests.waiting.map (·.id) ∧
      ∀ m ∈ s.requests.waiting, (m, notRunning) ∈ (s.run (s.ending moment)).failed

namespace Consistent

variable {s : Intake β α} {f : Message β × Failure}

theorem mem_failed (h : f ∈ s.failed) : (f.1 ∈ s.undone ∧ f.2 = notRunning) ∨ f ∈ s.refused := by
  obtain hmem | hmem := List.mem_append.mp h
  · obtain ⟨m, hm, rfl⟩ := List.mem_map.mp hmem
    exact .inl ⟨hm, rfl⟩
  · exact .inr hmem

theorem find?_failed (h : s.Consistent) (hf : f ∈ s.failed) : s.engine.find? f.1.id = none := by
  obtain ⟨hm, -⟩ | hf := mem_failed hf
  · exact h.undone f.1 hm
  · obtain ⟨hclosed, -, -⟩ := h.refused f hf
    refine Engine.find?_eq_none_iff.mpr fun p hp => ?_
    rw [h.engine.empty hclosed] at hp
    cases hp

/-- A submission that has failed is none of those on their way or on the channel. -/
theorem ne_failed (h : s.Consistent) (hf : f ∈ s.failed) {m : Message β}
    (hm : m ∈ s.requests.waiting ∨ m ∈ s.accepted) : m.id ≠ f.1.id := by
  have hmem : m ∈ s.messages := by
    simp only [messages, hidden, List.mem_append]
    tauto
  obtain ⟨hundone, -⟩ | hf := mem_failed hf
  · have hids := h.ids
    simp only [messages, hidden, List.map_append] at hids
    obtain ⟨hhidden, -, haccepted⟩ := List.nodup_append.mp hids
    obtain ⟨-, -, hdistinct⟩ := List.nodup_append.mp hhidden
    have hfailed : f.1.id ∈ s.undone.map (·.id) := List.mem_map_of_mem hundone
    obtain hm | hm := hm
    · have hwaiting : m.id ∈ s.requests.waiting.map (·.id) := List.mem_map_of_mem hm
      refine hdistinct _ ?_ _ hfailed
      exact List.mem_append_left _ (List.mem_append_right _ hwaiting)
    · exact (haccepted _ (List.mem_append_right _ hfailed) _ (List.mem_map_of_mem hm)).symm
  · obtain ⟨-, -, name, hname⟩ := h.refused f hf
    rw [hname]
    exact h.ne_new hmem name

end Consistent

/-- Whatever happens at a bus, and whenever, a submission that fails leaves no trace. -/
theorem run_traceless (timeout : Duration) (capacity : Nat) (moves : List (Move β α)) :
    ((opening timeout capacity : Intake β α).run moves).Traceless := by
  have hconsistent : ((opening timeout capacity : Intake β α).run moves).Consistent :=
    (Consistent.opening timeout capacity).run moves
  generalize (opening timeout capacity : Intake β α).run moves = s at hconsistent
  refine ⟨fun f hf => ?_, fun f hf more => ?_, fun m f hf => ?_, fun m id =>
    spares_step hconsistent,
    s.run_submission, fun moment g refused => s.run_ending moment⟩
  · obtain ⟨-, hcause⟩ | hf := Consistent.mem_failed hf
    · exact ⟨_, hcause⟩
    · exact ⟨_, (hconsistent.refused f hf).2.1⟩
  · have hmore := hconsistent.run more
    have hstays := mem_failed_run hf more
    refine ⟨hstays, hmore.find?_failed hstays, fun m hm => ?_, fun job hjob => ?_⟩
    · refine hmore.ne_failed hstays ?_
      exact (List.mem_append.mp hm).symm.imp_right (hmore.items m)
    · obtain ⟨m, hm, hid, -⟩ := hmore.invoked job hjob
      rw [hid]
      exact hmore.ne_failed hstays (.inr hm)
  · obtain ⟨new, hperm, hnew⟩ := s.exists_failed_step m
    exact (List.mem_append.mp (hperm.mem_iff.mp hf)).imp_right (hnew f)

/-- The second request waits for room until the worker is gone. Only its entry is taken out. -/
example :
    let s := (opening (.ofSeconds 30) 1 : Intake Unit Unit).run [
      .begin "a" () none .zero, .send 0, .begin "b" () none .zero, .send 0,
      .cancel, .close, .leave, .undo 0 .zero]
    s.failed.map (·.1.id) = [.generated 1 "b"] ∧
      s.engine.entries.map (·.id) = [.generated 0 "a"] := by decide

end Intake

end AgentGateway.Bus
