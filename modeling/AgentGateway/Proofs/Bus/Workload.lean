import AgentGateway.Proofs.Bus.Answers
import AgentGateway.Proofs.Bus.News
import AgentGateway.Proofs.Bus.Rest
import AgentGateway.Proofs.Client.Workload

/-!
# The bus runs out of things to do

A handler that has less left to do whenever it finds something out (`Handler.LowersLoad`) leaves
the bus less to do as well: each time the bus and the handler act, a request is taken off the
channel, or the handler gets on, or nobody has anything to do any more until time passes
(`Desk.Idle`).
-/

namespace AgentGateway.Bus

variable {η β α ω : Type}

theorem Gateway.settle_requests (g : Gateway β α) (now : Duration) (fuel : Nat) (p : Progress β) :
    (g.settle now fuel p).1.worker.requests.contents.length +
        (g.settle now fuel p).2.started.length ≤
      g.worker.requests.contents.length + p.started.length := by
  induction fuel generalizing g p with
  | zero => exact Nat.le_refl _
  | succ fuel ih =>
    unfold settle
    split
    next job worker htake =>
      obtain ⟨-, -, m, requests, hr, -, rfl⟩ := Worker.take?_eq_some htake
      have hcontents := congrArg List.length (Channel.contents_receive? hr)
      refine (ih _ _).trans ?_
      simp only [List.length_append, List.length_cons, List.length_nil] at hcontents ⊢
      omega
    next =>
      split
      next g' hdeliver =>
        obtain ⟨-, reply, replies, -, rfl⟩ := deliver?_eq_some hdeliver
        exact ih _ _
      next =>
        split
        next worker hclose =>
          obtain ⟨-, -, rfl⟩ := Worker.close?_eq_some hclose
          exact ih _ _
        next =>
          split
          next g' refused hend =>
            obtain ⟨worker, hw, -, rfl⟩ := endWorker?_eq_some hend
            obtain ⟨-, -, -, rfl⟩ := Worker.end?_eq_some hw
            refine (ih _ _).trans ?_
            simp
          next =>
            split
            next => exact ih _ _
            next => exact Nat.le_refl _

/-- The handler keeps by itself that it is as wanted, and has less left to do whenever it finds
something out. -/
structure Handler.LowersLoad [LT ω] [LE ω] (h : Handler η β α) (wanted : η → Prop) (load : η → ω) :
    Prop extends h.Preserves wanted where
  run_le : ∀ now {s}, wanted s → load (h.run now s).1 ≤ load s
  run_lt : ∀ now {s}, wanted s → (h.run now s).2 ≠ [] → load (h.run now s).1 < load s

namespace Desk

variable {h : Handler η β α} {wanted : η → Prop} {d : Desk η β α}

/-- What is left to do: requests that have not been taken, and what the handler is about. -/
def workload (load : η → ω) (d : Desk η β α) : ℕ ×ₗ ω :=
  toLex (d.gateway.worker.requests.contents.length, load d.handler)

/-- Neither the bus nor anybody who listens has anything to do until time passes. -/
structure Idle (d : Desk η β α) : Prop where
  rest : d.gateway.AtRest d.now
  heard : ∀ c ∈ d.callers, c.listening = true → d.gateway.engine.outcome? c.ticket = none

theorem Idle.tell (hrest : d.gateway.AtRest d.now) : d.tell.Idle where
  rest := hrest
  heard c hc hlistening := by
    obtain ⟨x, -, rfl⟩ := List.mem_map.mp hc
    by_cases houtcome : (d.gateway.engine.outcome? x.ticket).isSome = true
    · rw [if_pos houtcome] at hlistening
      cases hlistening
    · rw [if_neg houtcome]
      exact Option.not_isSome_iff_eq_none.mp houtcome

theorem unblock_eq (d : Desk η β α) (refused : List Correlation.Id) :
    (d.unblock refused).gateway = d.gateway ∧ (d.unblock refused).handler = d.handler ∧
      (d.unblock refused).now = d.now := by
  unfold Desk.unblock
  refine List.foldlRecOn d.blocked _
    (motive := fun d' : Desk η β α => d'.gateway = d.gateway ∧ d'.handler = d.handler ∧
      d'.now = d.now) ⟨rfl, rfl, rfl⟩ fun d' hd' c _ => ?_
  split_ifs
  · exact hd'
  · exact hd'
  · exact hd'

theorem round_lowersLoad [Preorder ω] {load : η → ω} (hh : h.LowersLoad wanted load)
    (hd : wanted d.handler) :
    wanted (d.round h).1.handler ∧ (d.round h).1.gateway.AtRest (d.round h).1.now ∧
      (d.round h).1.workload load ≤ d.workload load ∧
      ((d.round h).2 ≠ [] ∨ load (h.run d.now d.handler).1 < load d.handler →
        (d.round h).1.workload load < d.workload load) := by
  have hrequests := d.gateway.settle_requests d.now d.gateway.steps {}
  have hrest := d.gateway.settle_atRest d.now {}
  obtain ⟨⟨gateway, progress⟩, heq⟩ : ∃ p, d.gateway.settle d.now d.gateway.steps {} = p :=
    ⟨_, rfl⟩
  rw [heq] at hrequests hrest
  obtain ⟨hgateway, hhandler, hnow⟩ := unblock_eq { d with gateway } progress.refused
  dsimp only at hrequests hrest hgateway hhandler hnow
  unfold round
  rw [heq]
  dsimp only
  generalize { d with gateway }.unblock progress.refused = d' at hgateway hhandler hnow ⊢
  rw [hhandler, hnow]
  have hstarts (jobs : List (Job β)) : wanted (jobs.foldl (fun s job => h.start d.now job s)
      d.handler) :=
    List.foldlRecOn jobs _ hd fun _ hs job _ => hh.start d.now job hs
  refine ⟨hh.run _ (hstarts _), hgateway ▸ hrest, ?_⟩
  rw [workload, workload, hgateway]
  cases hstarted : progress.started with
  | cons job jobs =>
      -- Whatever the handler makes of a new request, there is one request less.
      have hfewer : gateway.worker.requests.contents.length <
          d.gateway.worker.requests.contents.length := by
        rw [hstarted] at hrequests
        simp only [List.length_cons, List.length_nil] at hrequests
        omega
      rw [Prod.Lex.toLex_le_toLex, Prod.Lex.toLex_lt_toLex]
      exact ⟨.inl hfewer, fun _ => .inl hfewer⟩
  | nil =>
      rw [hstarted] at hrequests
      have hrequests : gateway.worker.requests.contents.length ≤
          d.gateway.worker.requests.contents.length := by simpa using hrequests
      rw [List.foldl_nil, Prod.Lex.toLex_le_toLex, Prod.Lex.toLex_lt_toLex]
      have hno_more := Nat.lt_or_eq_of_le hrequests
      refine ⟨hno_more.imp_right fun heq => ⟨heq, hh.run_le _ hd⟩, fun hbusy => ?_⟩
      have hless : load (h.run d.now d.handler).1 < load d.handler :=
        hbusy.elim (hh.run_lt _ hd) id
      exact hno_more.imp_right fun heq => ⟨heq, hless⟩

theorem report_workload (load : η → ω) (findings : List (Nat × Finding α)) :
    (d.report findings).workload load = d.workload load := by
  rw [workload, requests_report]
  rfl

/-- The bus has less left to do, or there is nothing left that anybody can do by now. -/
theorem settle_lowersLoad [Preorder ω] {load : η → ω} (hh : h.LowersLoad wanted load)
    (hd : wanted d.handler)
    (fuel : Nat) :
    wanted (settle h fuel d).handler ∧ (settle h fuel d).workload load ≤ d.workload load ∧
      (0 < fuel → (settle h fuel d).Idle ∨ (settle h fuel d).workload load < d.workload load) ∧
      (0 < fuel → load (h.run d.now d.handler).1 < load d.handler →
        (settle h fuel d).workload load < d.workload load) := by
  induction fuel generalizing d with
  | zero => exact ⟨hd, le_refl _, fun h => absurd h (Nat.lt_irrefl 0),
      fun h => absurd h (Nat.lt_irrefl 0)⟩
  | succ fuel ih =>
      obtain ⟨hwanted, hrest, hle, hless⟩ := round_lowersLoad hh hd
      rw [settle_succ]
      split_ifs with hempty
      · exact ⟨hwanted, hle, fun _ => .inl (.tell hrest), fun _ hbusy => hless (.inr hbusy)⟩
      · rw [List.isEmpty_iff] at hempty
        obtain ⟨hnext, hle', -, -⟩ := ih (d := (d.round h).1.report (d.round h).2) hwanted
        rw [report_workload] at hle'
        have hdone := lt_of_le_of_lt hle' (hless (.inl hempty))
        exact ⟨hnext, hdone.le, fun _ => .inr hdone, fun _ _ => hdone⟩

theorem submit_keeps [Preorder ω] {load : η → ω} (hh : h.LowersLoad wanted load)
    (hd : wanted d.handler) (name : String) (body : β) (timeout : Option Duration) :
    wanted (d.submit h name body timeout).handler := by
  have hacted {d' : Desk η β α} (hsame : d'.handler = d.handler) : wanted (d'.act h).handler :=
    (settle_lowersLoad hh (hsame ▸ hd) Client.Desk.manySteps).1
  unfold submit
  dsimp only
  split
  next => split <;> exact hacted rfl
  next => exact hacted rfl
  next => exact hacted rfl

/-- As something comes due for the handler, less is left to do. -/
theorem happen_lowersLoad [Preorder ω] {load : η → ω} (hh : h.LowersLoad wanted load)
    (hd : wanted d.handler)
    (t : Duration) :
    wanted (d.happen h t).handler ∧
      (load (h.run t d.handler).1 < load d.handler →
        (d.happen h t).workload load < d.workload load) := by
  unfold happen
  dsimp only
  split_ifs
  · obtain ⟨hwanted, -, -, hless⟩ :=
      settle_lowersLoad hh
        (d := ({ d with now := t } : Desk η β α).sweep.1) hd Client.Desk.manySteps
    exact ⟨hwanted, hless (by decide)⟩
  · obtain ⟨hwanted, -, -, hless⟩ :=
      settle_lowersLoad hh (d := { d with now := t }) hd Client.Desk.manySteps
    exact ⟨hwanted, hless (by decide)⟩

end Desk

/-! ## Prompts that are answered -/

theorem Calls.findings_workload (c : Calls) :
    c.findings.1.desk.workload ≤ c.desk.workload ∧
      (c.findings.2 ≠ [] → c.findings.1.desk.workload < c.desk.workload) := by
  obtain ⟨p, hended, -, heq, hfindings⟩ := c.findings_eq
  have hfewer := List.length_filter_le (fun m => !p m) c.desk.messages
  rw [heq, Client.Desk.workload, Client.Desk.workload, Prod.Lex.toLex_le_toLex,
    Prod.Lex.toLex_le_toLex, Prod.Lex.toLex_lt_toLex, Prod.Lex.toLex_lt_toLex]
  refine ⟨.inr ⟨rfl, .inr ⟨rfl, hfewer⟩⟩, fun hfound => .inr ⟨rfl, .inr ⟨rfl, ?_⟩⟩⟩
  obtain ⟨f, hf⟩ := List.exists_mem_of_ne_nil _ hfound
  obtain ⟨t, time, how, n, hm, hn, -⟩ := (hfindings f).mp hf
  refine List.length_filter_lt_length_iff_exists.mpr ⟨_, hm, ?_⟩
  simp [hended, hn]

/-- As it finds out how calls ended, less and less is left to do at the desk. -/
theorem answering_lowersLoad :
    answering.LowersLoad (fun c => ∃ j, c.Recorded j) (·.desk.workload) where
  start now job c := by
    rintro ⟨j, h⟩
    have hclock : Client.Journaled (fun _ => True) j { c.desk with now } :=
      h.journal.same rfl rfl rfl rfl rfl rfl rfl
    have hstart := hclock.start job.body.key job.body.prompt false
    have hticket := Client.Desk.start_ticket { c.desk with now } job.body.key job.body.prompt false
    refine ⟨_, hstart, h.nobodyGone, fun {t n} hn => ?_⟩
    unfold answering at hn
    dsimp only at hn
    rw [hticket, List.lookup_cons] at hn
    split at hn
    next heq =>
      obtain rfl : t = c.desk.issued := by simpa using heq
      refine ⟨⟨job.body.key, job.body.prompt, false⟩, ?_, rfl⟩
      rw [← h.journal.started]
      exact List.getElem?_concat_length
    next =>
      obtain ⟨o, ho, hstreams⟩ := h.captures hn
      exact ⟨o, (List.getElem?_append_left (List.getElem?_eq_some_iff.mp ho).1).trans ho, hstreams⟩
  run now c := by
    rintro ⟨j, h⟩
    obtain ⟨p, hended, hevent, heq, -⟩ := Calls.findings_eq { c with desk := c.desk.runTo now }
    have hran : Calls.Recorded j { c with desk := c.desk.runTo now } :=
      h.carry (h.journal.runTo now) rfl id
    refine ⟨{ j with past := j.past ++ (c.desk.runTo now).messages.filter p }, ?_⟩
    show Calls.Recorded _ (Calls.findings _).1
    rw [heq]
    exact hran.find (hran.taken_iff hended hevent)
  run_le now c := by
    rintro ⟨j, h⟩
    exact (Calls.findings_workload _).1.trans (Client.Desk.runTo_le h.journal now)
  run_lt now c := by
    rintro ⟨j, h⟩ hfound
    exact lt_of_lt_of_le ((Calls.findings_workload _).2 hfound)
      (Client.Desk.runTo_le h.journal now)

end AgentGateway.Bus
