import AgentGateway.Proofs.Bus.Parts

/-!
# The bus comes to rest

Left alone, the worker and the listener act only finitely often before both wait: each of their
steps takes something off a channel or brings one of them closer to its end. So
`Gateway.settle` is given enough steps whatever the bus holds (`Gateway.settle_atRest`).
-/

namespace AgentGateway.Bus

variable {β α : Type}

def Worker.Phase.rank : Worker.Phase → Nat
  | .serving => 2
  | .closing => 1
  | .ended => 0

namespace Gateway

variable {g g' : Gateway β α} {now : Duration}

/-- No part of the bus can act until time passes or somebody submits or comes to a result. -/
structure AtRest (g : Gateway β α) (now : Duration) : Prop where
  take : g.worker.take? = none
  deliver : g.deliver? now = none
  close : g.worker.close? = none
  endWorker : g.endWorker? now = none
  listen : ¬ (g.listening = true ∧ g.worker.replies.isExhausted = true)

/-- What the worker and the listener can still do by themselves. -/
def work (g : Gateway β α) : Nat :=
  g.worker.requests.contents.length + g.worker.replies.contents.length + g.worker.phase.rank +
    if g.listening then 1 else 0

theorem work_take {job : Job β} {worker : Worker β α} (h : g.worker.take? = some (job, worker)) :
    work { g with worker } < g.work := by
  obtain ⟨-, -, m, requests, hr, -, rfl⟩ := Worker.take?_eq_some h
  have hcontents := congrArg List.length (Channel.contents_receive? hr)
  rw [List.length_cons] at hcontents
  simp only [work]
  omega

theorem work_deliver (h : g.deliver? now = some g') : g'.work < g.work := by
  obtain ⟨-, reply, replies, hr, rfl⟩ := deliver?_eq_some h
  have hcontents := congrArg List.length (Channel.contents_receive? hr)
  rw [List.length_cons] at hcontents
  simp only [work]
  omega

theorem work_close {worker : Worker β α} (h : g.worker.close? = some worker) :
    work { g with worker } < g.work := by
  obtain ⟨hserving, -, rfl⟩ := Worker.close?_eq_some h
  simp only [work, hserving, Worker.Phase.rank]
  omega

theorem work_endWorker {refused : List Correlation.Id}
    (h : g.endWorker? now = some (g', refused)) : g'.work < g.work := by
  obtain ⟨worker, hw, -, rfl⟩ := endWorker?_eq_some h
  obtain ⟨hclosing, -, -, rfl⟩ := Worker.end?_eq_some hw
  simp only [work, hclosing, Worker.Phase.rank, Channel.contents_hangUp, Channel.contents_finish,
    List.length_nil]
  omega

theorem work_stopListening (h : g.listening = true) : g.stopListening.work < g.work := by
  simp only [work, stopListening, h, Channel.contents_hangUp, List.length_nil, if_true,
    Bool.false_eq_true, if_false]
  omega

theorem atRest_of_work (h : g.work = 0) : g.AtRest now := by
  have hnot : ∀ n, ¬ n < g.work := fun n => by omega
  constructor
  · cases htake : g.worker.take? with
    | none => rfl
    | some p => exact absurd (work_take htake) (hnot _)
  · cases hdeliver : g.deliver? now with
    | none => rfl
    | some g' => exact absurd (work_deliver hdeliver) (hnot _)
  · cases hclose : g.worker.close? with
    | none => rfl
    | some worker => exact absurd (work_close hclose) (hnot _)
  · cases hend : g.endWorker? now with
    | none => rfl
    | some p => exact absurd (work_endWorker hend) (hnot _)
  · exact fun hl => absurd (work_stopListening hl.1) (hnot _)

theorem settle_atRest_of_le (g : Gateway β α) (now : Duration) {fuel : Nat} (h : g.work ≤ fuel)
    (p : Progress β) : (g.settle now fuel p).1.AtRest now := by
  induction fuel generalizing g p with
  | zero => exact atRest_of_work (Nat.le_zero.mp h)
  | succ fuel ih =>
    unfold settle
    split
    next job worker htake =>
      have hless := work_take htake
      exact ih _ (by omega) _
    next htake =>
      split
      next g' hdeliver =>
        have hless := work_deliver hdeliver
        exact ih _ (by omega) _
      next hdeliver =>
        split
        next worker hclose =>
          have hless := work_close hclose
          exact ih _ (by omega) _
        next hclose =>
          split
          next g' refused hend =>
            have hless := work_endWorker hend
            exact ih _ (by omega) _
          next hend =>
            split
            next hlisten =>
              have hless := work_stopListening hlisten.1
              exact ih _ (by omega) _
            next hlisten => exact ⟨htake, hdeliver, hclose, hend, hlisten⟩

/-- The bus always comes to rest in the steps it is given. -/
theorem settle_atRest (g : Gateway β α) (now : Duration) (p : Progress β) :
    (g.settle now g.steps p).1.AtRest now := by
  refine settle_atRest_of_le g now ?_ p
  have hrank : g.worker.phase.rank ≤ 2 := by cases g.worker.phase <;> decide
  simp only [work, steps, Worker.steps, Channel.contents, List.length_append]
  split <;> omega

end Gateway

end AgentGateway.Bus
