import AgentGateway.Bus.Desk
import AgentGateway.Proofs.Client.Crashes

/-!
# What callers at a bus are told

A caller is told of a crash only when the clock cannot show the moment at which its request
expires (`Desk.CrashFree.submit`). The handler may crash as it likes: its caller then has its
outcome when the request expires. What the handler keeps by itself it keeps at the bus.
-/

namespace AgentGateway.Bus

open Correlation (Engine Id)

variable {η β α : Type}

theorem Gateway.submit_ne_impossible {g : Gateway β α} {now timeout : Duration}
    (h : Ticker.Showable (now + timeout)) (name : String) (body : β) :
    (g.submit now name body (some timeout)).2 ≠ .impossible := by
  have hinsert (e : Engine α) (id : Id) : (e.insert now id timeout).2 ≠ .impossible := by
    unfold Engine.insert
    simp [h]
  have hregister : (g.engine.registerNew now name (some timeout)).2.2 ≠ .impossible := by
    unfold Engine.registerNew Engine.register
    dsimp only [Option.getD_some]
    split_ifs
    · simp
    · split
      next =>
        split_ifs
        · exact hinsert _ _
        · simp
      next => exact hinsert _ _
  unfold submit
  split
  next => simp
  next himpossible => exact absurd (by rw [himpossible]) hregister
  next => split <;> simp

structure Handler.Preserves (h : Handler η β α) (wanted : η → Prop) : Prop where
  start : ∀ now job {s}, wanted s → wanted (h.start now job s)
  run : ∀ now {s}, wanted s → wanted (h.run now s).1

namespace Desk

/-- The bus and the handler have acted once. -/
def round (h : Handler η β α) (d : Desk η β α) : Desk η β α × List (Nat × Finding α) :=
  let (gateway, progress) := d.gateway.settle d.now d.gateway.steps {}
  let d := { d with gateway }.unblock progress.refused
  let handler := progress.started.foldl (fun s job => h.start d.now job s) d.handler
  let (handler, findings) := h.run d.now handler
  ({ d with handler }, findings)

theorem settle_succ (h : Handler η β α) (fuel : Nat) (d : Desk η β α) :
    settle h (fuel + 1) d =
      if (d.round h).2.isEmpty then (d.round h).1.tell
      else settle h fuel ((d.round h).1.report (d.round h).2) := rfl

structure CrashFree (wanted : η → Prop) (d : Desk η β α) : Prop where
  handler : wanted d.handler
  notes : ∀ n ∈ d.notes, n.what ≠ .crashed

namespace CrashFree

variable {wanted : η → Prop} {d : Desk η β α}

theorem note (h : d.CrashFree wanted) (who : String) (what : News α) (hwhat : what ≠ .crashed) :
    (d.note who what).CrashFree wanted :=
  ⟨h.handler, List.forall_mem_append.mpr ⟨h.notes, List.forall_mem_singleton.mpr hwhat⟩⟩

theorem tell (h : d.CrashFree wanted) : d.tell.CrashFree wanted := by
  refine ⟨h.handler, List.forall_mem_append.mpr ⟨h.notes, fun n hn => ?_⟩⟩
  obtain ⟨⟨c, o⟩, -, rfl⟩ := List.mem_map.mp hn
  simp

theorem unblock (h : d.CrashFree wanted) (refused : List Id) :
    (d.unblock refused).CrashFree wanted := by
  unfold Desk.unblock
  refine List.foldlRecOn d.blocked _ ⟨h.handler, h.notes⟩ fun d hd c _ => ?_
  split_ifs
  · exact hd.note c.name _ (by simp)
  · exact ⟨hd.handler, hd.notes⟩
  · exact ⟨hd.handler, hd.notes⟩

variable {h : Handler η β α}

theorem settle (hd : d.CrashFree wanted) (hkeeps : Handler.Preserves h wanted) (fuel : Nat) :
    (Desk.settle h fuel d).CrashFree wanted := by
  have hstarts (jobs : List (Job β)) (now : Duration) {s : η} (hs : wanted s) :
      wanted (jobs.foldl (fun s job => h.start now job s) s) :=
    List.foldlRecOn jobs _ hs fun _ hs job _ => hkeeps.start now job hs
  induction fuel generalizing d with
  | zero => exact hd.tell
  | succ fuel ih =>
      have hunblocked := unblock (d := { d with
        gateway := (d.gateway.settle d.now d.gateway.steps {}).1 }) ⟨hd.handler, hd.notes⟩
        (d.gateway.settle d.now d.gateway.steps {}).2.refused
      have hran (now : Duration) (jobs : List (Job β)) := hkeeps.run now
        (hstarts jobs now hunblocked.handler)
      rw [Desk.settle]
      dsimp only
      split
      · exact tell ⟨hran _ _, hunblocked.notes⟩
      · exact ih ⟨hran _ _, hunblocked.notes⟩

theorem act (hd : d.CrashFree wanted) (hkeeps : Handler.Preserves h wanted) :
    (d.act h).CrashFree wanted := hd.settle hkeeps _

/-- A caller whose request expires at a moment that can be shown hears of no crash. -/
theorem submit (hd : d.CrashFree wanted) (hkeeps : Handler.Preserves h wanted) (name : String)
    (body : β) {timeout : Duration} (hshow : Ticker.Showable (d.now + timeout)) :
    (d.submit h name body (some timeout)).CrashFree wanted := by
  have hpossible := Gateway.submit_ne_impossible (g := d.gateway) hshow name body
  unfold Desk.submit
  dsimp only
  apply CrashFree.act _ hkeeps
  split
  next => split <;> exact ⟨hd.handler, hd.notes⟩
  next cause _ =>
    apply note
    · exact ⟨hd.handler, hd.notes⟩
    · simp
  next himpossible => exact absurd himpossible hpossible

theorem withEngine {γ : Type} (hd : d.CrashFree wanted) (f : Engine α → Engine α × γ) :
    (d.withEngine f).1.CrashFree wanted :=
  tell (d := { d with gateway := { d.gateway with engine := (f d.gateway.engine).1 } })
    ⟨hd.handler, hd.notes⟩

theorem happen (hd : d.CrashFree wanted) (hkeeps : Handler.Preserves h wanted) (t : Duration) :
    (d.happen h t).CrashFree wanted := by
  have hlater : ({ d with now := t } : Desk η β α).CrashFree wanted := ⟨hd.handler, hd.notes⟩
  unfold Desk.happen
  dsimp only
  apply CrashFree.act _ hkeeps
  split
  · exact hlater.withEngine _
  · exact hlater

theorem shutdownEngine (hd : d.CrashFree wanted) : d.shutdownEngine.1.CrashFree wanted :=
  withEngine (d := { d with sweeper := none }) ⟨hd.handler, hd.notes⟩ _

end CrashFree

end Desk

/-- Prompts that are answered for the bus are no reason for other calls to crash. -/
theorem answering_preserves (known : Admission.Ticket → Prop) :
    Handler.Preserves answering fun c => c.desk.CrashFree known where
  start now job c hc := by
    have hnow : ({ c.desk with now } : Client.Desk).CrashFree known := hc.same rfl rfl rfl rfl
    exact hnow.start (fun _ ht => .inl ht)
      (fun ht => absurd (hc.issued _ ht) (Nat.lt_irrefl _)) false
  run now c hc := by
    have hran := hc.runTo now
    refine hran.frame rfl rfl (fun _ h => h) fun m hm => ?_
    simp only [answering, Calls.findings, List.partition_eq_filter_filter] at hm
    exact List.mem_of_mem_filter hm

end AgentGateway.Bus
