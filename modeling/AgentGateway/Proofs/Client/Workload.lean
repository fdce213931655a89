import AgentGateway.Proofs.Client.Slots
import Mathlib.Data.Prod.Lex

/-!
# Calls come to an end

Whatever is done at the desk as it comes due, it brings a call nearer to its end, or it leaves all
calls where they are and the agenda is shorter (`Desk.step_lt`). So what is left to do shrinks
with each thing that is done, though a new execution may put any number of lines on the agenda.
-/

namespace AgentGateway.Client

/-- How many attempts there may be to answer a prompt. -/
def Settings.tries (s : Settings) : Nat := s.retry.elim 0 (·.backoff.attempts)

/-- How far a call is from its end. Whether it has been summoned makes no difference, since that
is not its own doing. -/
def Phase.rank (tries : Nat) : Phase → Nat
  | .waiting | .summoned => 2 * tries + 2
  | .pausing attempt => 2 * (tries - (attempt + 1)) + 2
  | .executing _ attempt _ => 2 * (tries - attempt) + 1

theorem Phase.rank_pos (tries : Nat) (p : Phase) : 0 < p.rank tries := by
  cases p <;> exact Nat.succ_pos _

theorem Settings.lt_tries_of_again {s : Settings} {attempt : Nat}
    {outcome : Except Failure Execution.Result} {wait : Duration}
    (h : s.decide attempt outcome = .again wait) : attempt < s.tries := by
  unfold Settings.decide at h
  unfold Settings.tries
  cases hretry : s.retry with
  | none =>
      rw [hretry] at h
      cases h
  | some r =>
      rw [hretry] at h
      cases outcome with
      | ok result => cases h
      | error cause =>
          dsimp only [Retry.decide] at h
          split_ifs at h with hagain
          exact hagain.1

namespace Desk

variable {j : Journal} {d : Desk} {c : Call}

def toGo (d : Desk) : Nat := (d.calls.map fun c => c.phase.rank d.settings.tries).sum

/-- What is left to do: it shrinks as calls go on, and otherwise as things are taken off the agenda
or messages are taken out. -/
def workload (d : Desk) : ℕ ×ₗ ℕ ×ₗ ℕ :=
  toLex (d.toGo, toLex (d.agenda.items.length, d.messages.length))

theorem toGo_others (hdistinct : (d.calls.map (·.ticket)).Nodup) (hc : c ∈ d.calls) :
    d.toGo = c.phase.rank d.settings.tries +
      ((d.others c).map fun x => x.phase.rank d.settings.tries).sum :=
  ((perm_others hdistinct hc).map _).sum_nat.trans List.sum_cons

theorem toGo_update (hdistinct : (d.calls.map (·.ticket)).Nodup) (hc : c ∈ d.calls) {x : Call}
    (hx : x.ticket = c.ticket) :
    (d.update x).toGo + c.phase.rank d.settings.tries =
      d.toGo + x.phase.rank d.settings.tries :=
  sum_replace Call.ticket (fun x => x.phase.rank d.settings.tries) hdistinct hc hx

theorem toGo_update_lt (hdistinct : (d.calls.map (·.ticket)).Nodup) (hc : c ∈ d.calls) {x : Call}
    (hx : x.ticket = c.ticket)
    (hless : x.phase.rank d.settings.tries < c.phase.rank d.settings.tries) :
    (d.update x).toGo < d.toGo := by
  have hupdate := toGo_update hdistinct hc hx
  omega

theorem toGo_summon (d : Desk) : d.summon.toGo = d.toGo := by
  refine congrArg List.sum (Journaled.map_summon d _ fun x hwaiting => ?_)
  rw [hwaiting]
  rfl

theorem sum_others_lt (hdistinct : (d.calls.map (·.ticket)).Nodup) (hc : c ∈ d.calls) :
    ((d.others c).map fun x => x.phase.rank d.settings.tries).sum < d.toGo := by
  have hpos := c.phase.rank_pos d.settings.tries
  rw [toGo_others hdistinct hc]
  omega

theorem toGo_close_lt (hdistinct : (d.calls.map (·.ticket)).Nodup) (hc : c ∈ d.calls)
    (how : Ending) : (d.close c how).toGo < d.toGo :=
  Nat.lt_of_le_of_lt (Nat.le_of_eq (toGo_summon _)) (sum_others_lt hdistinct hc)

theorem toGo_launch_lt (hdistinct : (d.calls.map (·.ticket)).Nodup) (hc : c ∈ d.calls)
    {attempt : Nat}
    (hless : 2 * (d.settings.tries - attempt) + 1 < c.phase.rank d.settings.tries) :
    (d.launch c attempt).toGo < d.toGo := by
  unfold launch
  split
  next => exact toGo_close_lt hdistinct hc .crashed
  next =>
    dsimp only
    exact toGo_update_lt hdistinct hc rfl hless

/-- Something is done with a call: it comes nearer to its end, or nothing is put on the agenda. -/
def LowersLoad (d d' : Desk) : Prop :=
  d'.toGo < d.toGo ∨ d'.toGo = d.toGo ∧ d'.agenda = d.agenda

theorem lowersLoad_notice (hdistinct : (d.calls.map (·.ticket)).Nodup) (hc : c ∈ d.calls)
    (hphase : c.phase = .summoned) : d.LowersLoad (d.notice c) := by
  unfold notice
  split
  next limiter answer _ =>
    dsimp only
    cases answer with
    | granted =>
        have hless : 2 * (d.settings.tries - 1) + 1 < c.phase.rank d.settings.tries := by
          rw [hphase, Phase.rank]
          omega
        exact .inl (toGo_launch_lt (d := { d with limiter }) hdistinct hc hless)
    | refused cause =>
        refine .inl ?_
        rw [toGo_summon]
        exact sum_others_lt hdistinct hc
    | waiting | impossible =>
        have hupdate := toGo_update hdistinct hc (x := { c with phase := .waiting }) rfl
        rw [hphase] at hupdate
        exact .inr ⟨Nat.add_right_cancel hupdate, rfl⟩

theorem lowersLoad_line (hdistinct : (d.calls.map (·.ticket)).Nodup) (hc : c ∈ d.calls)
    (text : String) : d.LowersLoad (d.line c text) := by
  have hupdate := toGo_update hdistinct hc
    (x := { c with transcript := (c.transcript.feed text.toList).1 }) rfl
  have hsame := Nat.add_right_cancel hupdate
  unfold line
  dsimp only
  split
  next => exact .inr ⟨hsame, rfl⟩
  next => exact .inr ⟨hsame, rfl⟩

theorem lowersLoad_finish (hdistinct : (d.calls.map (·.ticket)).Nodup) (hc : c ∈ d.calls) :
    d.LowersLoad (d.finish c) := by
  unfold finish
  split
  next number attempt part hphase =>
    refine .inl ?_
    by_cases hstreams : c.streams = true
    · rw [if_pos hstreams]
      unfold finishStreamed
      dsimp only
      split
      next =>
        apply toGo_close_lt
        · exact hdistinct
        · exact hc
      next =>
        apply toGo_close_lt
        · exact hdistinct
        · exact hc
    · rw [if_neg hstreams]
      unfold finishCaptured
      split
      next wait hagain =>
        have htries : attempt < d.settings.tries := Settings.lt_tries_of_again hagain
        refine toGo_update_lt hdistinct hc rfl ?_
        show 2 * (d.settings.tries - (attempt + 1)) + 2 < c.phase.rank d.settings.tries
        rw [hphase, Phase.rank]
        omega
      next =>
        apply toGo_close_lt
        · exact hdistinct
        · exact hc
  next => exact .inr ⟨rfl, rfl⟩

theorem lowersLoad_retry (hdistinct : (d.calls.map (·.ticket)).Nodup) (hc : c ∈ d.calls) :
    d.LowersLoad (d.retry c) := by
  unfold retry
  split
  next attempt hphase =>
    refine .inl (toGo_launch_lt hdistinct hc ?_)
    rw [hphase, Phase.rank]
    omega
  next => exact .inr ⟨rfl, rfl⟩

/-- Whatever is due, less is left to do once it is done. -/
theorem step_lt (h : Journaled (fun _ => True) j d) {t moment : Duration} (hdue : d.due? = some t)
    (hle : t ≤ moment) : (d.step moment).workload < d.workload := by
  obtain ⟨⟨time, task⟩, hhead, rfl⟩ := Option.map_eq_some_iff.mp hdue
  obtain ⟨rest, hitems⟩ := List.head?_eq_some_iff.mp hhead
  have hnext : d.agenda.next? moment = some (time, task, ⟨rest⟩) := by
    rw [Agenda.next?, hitems]
    exact if_pos hle
  have hlength : d.agenda.items.length = rest.length + 1 := by
    rw [hitems]
    rfl
  have htasks : d.tasks task.ticket =
      task :: Agenda.select ⟨rest⟩ (·.ticket == task.ticket) :=
    (Agenda.select_next hnext).trans (if_pos (beq_self_eq_true _))
  obtain ⟨now, hnow⟩ : ∃ now, (if d.now ≤ time then time else d.now) = now := ⟨_, rfl⟩
  -- The task has left the agenda, so it is enough that nothing new is put there.
  have hless {d' : Desk} (hlowers : ({ d with agenda := ⟨rest⟩, now } : Desk).LowersLoad d') :
      d'.workload < d.workload := by
    rw [workload, workload, Prod.Lex.toLex_lt_toLex, Prod.Lex.toLex_lt_toLex]
    obtain hless | ⟨hsame, hagenda⟩ := hlowers
    · exact .inl hless
    · refine .inr ⟨hsame, .inl ?_⟩
      rw [hagenda, hlength]
      exact Nat.lt_succ_self _
  unfold step
  rw [hnext]
  dsimp only
  rw [hnow]
  unfold perform
  split
  next => exact hless (.inr ⟨rfl, rfl⟩)
  next c hcall =>
    have hc : c ∈ d.calls := List.mem_of_find?_eq_some hcall
    have hticket : c.ticket = task.ticket := by simpa using List.find?_some hcall
    cases task with
    | notice t =>
        obtain ⟨-, hstage⟩ := h.stage hc
        rw [hticket, htasks] at hstage
        exact hless (lowersLoad_notice (d := { d with agenda := ⟨rest⟩, now }) h.distinct hc
          hstage.summoned_of_notice)
    | line t text =>
      exact hless (lowersLoad_line (d := { d with agenda := ⟨rest⟩, now }) h.distinct hc text)
    | finish t =>
      exact hless (lowersLoad_finish (d := { d with agenda := ⟨rest⟩, now }) h.distinct hc)
    | retry t =>
      exact hless (lowersLoad_retry (d := { d with agenda := ⟨rest⟩, now }) h.distinct hc)

/-- Time does nothing at the desk, or less is left to do. -/
theorem runUntil_lt (h : Journaled (fun _ => True) j d) (moment : Duration) (fuel : Nat) :
    (runUntil due? step moment fuel d = d ∨
        (runUntil due? step moment fuel d).workload < d.workload) ∧
      (0 < fuel → ∀ t ∈ d.due?, t ≤ moment →
        (runUntil due? step moment fuel d).workload < d.workload) := by
  induction fuel generalizing d with
  | zero => exact ⟨.inl rfl, fun h => absurd h (Nat.lt_irrefl 0)⟩
  | succ fuel ih =>
      rw [runUntil]
      cases hdue : d.due? with
      | none => exact ⟨.inl rfl, fun _ t ht => by cases ht⟩
      | some t =>
          by_cases hle : t ≤ moment
          · have hstep := step_lt h hdue (Nat.le_refl t.nanos)
            have hless : (runUntil due? step moment fuel (d.step t)).workload < d.workload := by
              obtain heq | hless := (ih (h.step t)).1
              · rw [heq]
                exact hstep
              · exact hless.trans hstep
            dsimp only
            rw [if_pos hle]
            exact ⟨.inr hless, fun _ _ _ _ => hless⟩
          · dsimp only
            rw [if_neg hle]
            refine ⟨.inl rfl, fun _ u hu hule => ?_⟩
            obtain rfl := Option.some.inj hu
            exact absurd hule hle

theorem runTo_le (h : Journaled (fun _ => True) j d) (moment : Duration) :
    (d.runTo moment).workload ≤ d.workload := by
  obtain heq | hless := (runUntil_lt h moment manySteps).1
  · exact (congrArg workload heq).le
  · exact hless.le

end Desk

end AgentGateway.Client
