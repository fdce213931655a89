import AgentGateway.Bus.Gateway
import AgentGateway.Proofs.Correlation.Resolution
import Mathlib.Data.List.Nodup
import Mathlib.Data.List.Perm.Basic

/-!
# The parts of the bus

What each operation of a channel, of the worker and of the gateway does, said once. A channel
keeps the order of what is put into it, whether that finds room or waits for it; so only the list
of all its contents matters here, not where the items are.
-/

namespace AgentGateway.Bus

open Correlation (Engine Id Outcome)

/-! ## Channels -/

namespace Channel

variable {α : Type} {c c' : Channel α} {x : α}

def contents (c : Channel α) : List α := c.items ++ c.waiting

/-- An item that is sent is put into the channel if there is room, and waits otherwise. -/
theorem send?_cases (h : c.send? x = some c') :
    (c.hasRoom = true ∧ c' = { c with items := c.items ++ [x] }) ∨
      (c.hasRoom = false ∧ c' = { c with waiting := c.waiting ++ [x] }) := by
  unfold send? at h
  split at h
  · cases h
  · split at h
    next hroom => exact .inl ⟨hroom, (Option.some.inj h).symm⟩
    next hroom => exact .inr ⟨Bool.eq_false_iff.mpr hroom, (Option.some.inj h).symm⟩

theorem contents_send? (h : c.send? x = some c') : c'.contents = c.contents ++ [x] := by
  obtain ⟨hroom, rfl⟩ | ⟨-, rfl⟩ := send?_cases h
  · have hnone : c.waiting = [] := by
      simp only [hasRoom, Bool.and_eq_true, List.isEmpty_iff] at hroom
      exact hroom.1
    simp [contents, hnone]
  · simp [contents]

theorem trySend?_cases (h : c.trySend? x = some c') :
    c.hasRoom = true ∧ c' = { c with items := c.items ++ [x] } := by
  unfold trySend? at h
  split at h
  next hroom =>
    rw [Bool.and_eq_true] at hroom
    exact ⟨hroom.2, (Option.some.inj h).symm⟩
  next => cases h

theorem trySend?_eq_some (h : c.trySend? x = some c') : c.send? x = some c' := by
  unfold trySend? at h
  split at h
  next hroom =>
    simp only [Bool.and_eq_true] at hroom
    simpa [send?, hroom] using h
  next => cases h

/-- The first item that waits moves up, unless there is none or no room for it. -/
theorem moveUp_cases (c : Channel α) :
    (c.moveUp = c ∧ (c.waiting = [] ∨ c.capacity ≤ c.items.length)) ∨
      ∃ x rest, c.waiting = x :: rest ∧
        c.moveUp = { c with items := c.items ++ [x], waiting := rest } := by
  unfold moveUp
  split
  next x rest hw =>
    split
    next => exact .inr ⟨x, rest, hw, rfl⟩
    next hfull => exact .inl ⟨rfl, .inr (Nat.le_of_not_lt hfull)⟩
  next hw => exact .inl ⟨rfl, .inl hw⟩

theorem contents_moveUp (c : Channel α) : c.moveUp.contents = c.contents := by
  obtain ⟨heq, -⟩ | ⟨x, rest, hwaiting, heq⟩ := c.moveUp_cases
  · rw [heq]
  · simp [heq, contents, hwaiting]

theorem items_of_receive? (h : c.receive? = some (x, c')) :
    c.items = x :: c.items.tail ∧ c' = { c with items := c.items.tail }.moveUp := by
  unfold receive? at h
  split at h
  next y rest hi =>
    obtain ⟨rfl, rfl⟩ := Prod.mk.inj (Option.some.inj h)
    simp [hi]
  next => cases h

theorem contents_receive? (h : c.receive? = some (x, c')) : c.contents = x :: c'.contents := by
  obtain ⟨hi, rfl⟩ := items_of_receive? h
  rw [contents_moveUp]
  show c.items ++ c.waiting = x :: (c.items.tail ++ c.waiting)
  rw [hi]
  rfl

theorem exists_moved (h : c.receive? = some (x, c')) :
    ∃ moved, c.waiting = moved ++ c'.waiting ∧ c.items ++ moved = x :: c'.items := by
  obtain ⟨hi, rfl⟩ := items_of_receive? h
  obtain ⟨heq, -⟩ | ⟨y, rest, hwaiting, heq⟩ := moveUp_cases { c with items := c.items.tail }
  · exact ⟨[], by rw [heq, List.nil_append], by rw [heq, List.append_nil, ← hi]⟩
  · refine ⟨[y], by rw [heq, List.singleton_append, ← hwaiting], ?_⟩
    rw [heq, ← List.cons_append, ← hi]

@[simp] theorem contents_hangUp (c : Channel α) : c.hangUp.contents = [] := rfl

@[simp] theorem contents_finish (c : Channel α) : c.finish.contents = c.contents := rfl

end Channel

/-! ## The worker -/

namespace Worker

variable {β α : Type} {w w' : Worker β α} {job : Job β} {number : Nat}

theorem take?_eq_some (h : w.take? = some (job, w')) :
    w.phase = .serving ∧ w.cancelled = false ∧ ∃ m requests,
      w.requests.receive? = some (m, requests) ∧ job = ⟨w.taken, m.id, m.body⟩ ∧
      w' = { w with requests, jobs := w.jobs ++ [job], taken := w.taken + 1 } := by
  unfold take? at h
  split at h
  next hserving =>
    split at h
    next m requests hm =>
      obtain ⟨rfl, rfl⟩ := Prod.mk.inj (Option.some.inj h)
      exact ⟨hserving.1, by simpa using hserving.2, m, requests, hm, rfl, rfl⟩
    next => cases h
  next => cases h

theorem finish_eq (h : w.job? number = some job) (result : Except Failure α) :
    w.finish number result = { w.removeJob number with
      replies := (w.replies.send? ⟨job.id, result⟩).getD w.replies } := by
  simp [finish, h, removeJob]

theorem giveUp_eq (h : w.job? number = some job) :
    w.giveUp number = { w.removeJob number with
      replies := (w.replies.trySend? ⟨job.id, .error stopped⟩).getD w.replies } := by
  simp [giveUp, h, removeJob]

@[simp] theorem requests_finish (w : Worker β α) (number : Nat) (result : Except Failure α) :
    (w.finish number result).requests = w.requests := by
  unfold finish
  split <;> rfl

@[simp] theorem requests_giveUp (w : Worker β α) (number : Nat) :
    (w.giveUp number).requests = w.requests := by
  unfold giveUp
  split <;> rfl

theorem close?_eq_some (h : w.close? = some w') :
    w.phase = .serving ∧ (w.cancelled ∨ w.requests.isExhausted) ∧
      w' = { w with phase := .closing } := by
  unfold close? at h
  split at h
  next hc => exact ⟨hc.1, hc.2, (Option.some.inj h).symm⟩
  next => cases h

theorem end?_eq_some (h : w.end? = some w') :
    w.phase = .closing ∧ w.jobs = [] ∧ w.replies.waiting = [] ∧
      w' = { w with
        phase := .ended, requests := w.requests.hangUp, replies := w.replies.finish } := by
  unfold end? at h
  split at h
  next hc =>
    obtain ⟨hphase, hjobs, hwaiting⟩ := hc
    exact ⟨hphase, by simpa using hjobs, by simpa using hwaiting, (Option.some.inj h).symm⟩
  next => cases h

theorem perm_removeJob (hn : (w.jobs.map (·.number)).Nodup) (h : w.job? number = some job) :
    w.jobs.Perm (job :: (w.removeJob number).jobs) := by
  have hmem : job ∈ w.jobs := List.mem_of_find?_eq_some h
  obtain rfl : job.number = number := by simpa using List.find?_some h
  show w.jobs.Perm (job :: w.jobs.filter (·.number != job.number))
  generalize w.jobs = jobs at hn hmem
  induction jobs with
  | nil => simp at hmem
  | cons j jobs ih =>
      rw [List.map_cons, List.nodup_cons] at hn
      rcases List.mem_cons.mp hmem with rfl | hmem
      · have hrest : jobs.filter (·.number != job.number) = jobs := by
          refine List.filter_eq_self.mpr fun k hk => ?_
          have hne : k.number ≠ job.number := fun heq => hn.1 (heq ▸ List.mem_map_of_mem hk)
          simpa using hne
        simp [hrest]
      · have hne : j.number ≠ job.number := fun heq => hn.1 (heq ▸ List.mem_map_of_mem hmem)
        have hkeep : (j :: jobs).filter (·.number != job.number) =
            j :: jobs.filter (·.number != job.number) := by simp [hne]
        rw [hkeep]
        exact ((ih hn.2 hmem).cons j).trans (List.Perm.swap job j _)

end Worker

/-! ## The gateway -/

namespace Gateway

variable {β α : Type} {g g' : Gateway β α} {now : Duration}

theorem submit_cases (g : Gateway β α) (now : Duration) (name : String) (body : β)
    (timeout : Option Duration) :
    (∃ id ticket requests, (g.engine.registerNew now name timeout).2 = (id, .registered ticket) ∧
      g.worker.requests.send? ⟨id, replyAddress, body⟩ = some requests ∧
      g.submit now name body timeout =
        ({ g with
          engine := (g.engine.registerNew now name timeout).1
          worker := { g.worker with requests } }, .registered id ticket)) ∨
    (∃ id, g.worker.requests.send? ⟨id, replyAddress, body⟩ = none ∧
      g.submit now name body timeout =
        ({ g with engine := ((g.engine.registerNew now name timeout).1.fail now id notRunning).1 },
          .refused notRunning)) ∨
    ∃ answer, (∀ id ticket, answer ≠ .registered id ticket) ∧ g.submit now name body timeout =
      ({ g with engine := (g.engine.registerNew now name timeout).1 }, answer) := by
  unfold submit
  split
  next engine id cause h => exact .inr (.inr ⟨.refused cause, by simp, by simp [h]⟩)
  next engine id h => exact .inr (.inr ⟨.impossible, by simp, by simp [h]⟩)
  next engine id ticket h =>
    split
    next requests hs => exact .inl ⟨id, ticket, requests, by simp [h], hs, by simp [h]⟩
    next hs => exact .inr (.inl ⟨id, hs, by simp [h]⟩)

theorem deliver?_eq_some (h : g.deliver? now = some g') : g.listening = true ∧ ∃ reply replies,
    g.worker.replies.receive? = some (reply, replies) ∧
    g' = { g with
      worker := { g.worker with replies }
      engine := (g.engine.resolve now reply.id reply.result).1 } := by
  unfold deliver? at h
  split at h
  next hl =>
    split at h
    next reply replies hr => exact ⟨hl, reply, replies, hr, (Option.some.inj h).symm⟩
    next => cases h
  next => cases h

theorem endWorker?_eq_some {refused : List Id} (h : g.endWorker? now = some (g', refused)) :
    ∃ worker, g.worker.end? = some worker ∧ refused = g.worker.requests.waiting.map (·.id) ∧
      g' = { g with
        worker
        engine := refused.foldl (fun e id => (e.fail now id notRunning).1) g.engine } := by
  unfold endWorker? at h
  split at h
  next worker hw =>
    obtain ⟨rfl, rfl⟩ := Prod.mk.inj (Option.some.inj h)
    exact ⟨worker, hw, rfl, rfl⟩
  next => cases h

end Gateway

end AgentGateway.Bus
