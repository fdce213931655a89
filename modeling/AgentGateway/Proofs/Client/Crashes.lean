import AgentGateway.Client.Desk
import Mathlib.Data.List.Basic

/-!
# Which calls crash

A call crashes when its time limit cannot be computed, or when a pool of the size that its key is
to have cannot be made. Whatever else happens to a call, and whatever other calls do, it does not
crash. So calls of which all limits are known to be in range never tell their callers of a crash
(`Desk.CrashFree`).
-/

namespace AgentGateway.Client

open Admission (Limiter Ticket)

/-- An answer to a request is not that its pool cannot be made, if it can. -/
theorem request_ne_impossible {l : Limiter} {key : String} (t : Ticket)
    (h : l.sizeFor key none ≤ Limiter.maxCapacity) :
    (l.request key none t).2 ≠ .impossible := by
  have henter (p : Admission.Pool) : (p.enter key t).2 ≠ .impossible := by
    unfold Admission.Pool.enter
    split_ifs <;> simp
  unfold Limiter.request Limiter.ask
  split
  next p _ => exact henter p
  next =>
    split_ifs
    · simp
    · rw [if_neg (Nat.not_lt.mpr h)]
      exact henter _

/-- A call has a ticket that was issued, and if it is one of the known ones it has a limit. -/
structure Call.HasLimit (known : Ticket → Prop) (s : Settings) (issued : Nat) (c : Call) :
    Prop where
  issued : c.ticket < issued
  limit : known c.ticket → (s.limit? c.prompt).isSome

namespace Desk

/-- Nothing about a call is out of range: its time limit can be computed, and so can a pool of the
size that its key is to have. -/
def CallInRange (d : Desk) (key : String) (prompt : Prompt) : Prop :=
  (d.settings.limit? prompt).isSome ∧ d.limiter.sizeFor key none ≤ Limiter.maxCapacity

instance (d : Desk) (key : String) (prompt : Prompt) : Decidable (d.CallInRange key prompt) :=
  inferInstanceAs (Decidable (_ ∧ _))

structure CrashFree (known : Ticket → Prop) (d : Desk) : Prop where
  issued : ∀ t, known t → t < d.issued
  calls : ∀ c ∈ d.calls, c.HasLimit known d.settings d.issued
  told : ∀ m ∈ d.messages, m.1 < d.issued
  calm : ∀ m ∈ d.messages, known m.1 → m.2.2 ≠ .ended .crashed

/-- Calls whose waiting has been decided are summoned, and nothing else about calls changes. -/
theorem summon_calls (d : Desk) :
    d.summon.calls = d.calls.map fun c =>
      if isDecided d.limiter c then { c with phase := .summoned } else c := by
  simp only [summon]
  induction d.calls with
  | nil => rfl
  | cons c calls ih =>
      rw [List.foldr_cons, List.map_cons, ← ih]
      split <;> rfl

theorem start_ticket (d : Desk) (key : String) (prompt : Prompt) (streams : Bool) :
    (d.start key prompt streams).2 = d.issued := by
  unfold start
  dsimp only
  split <;> rfl

namespace CrashFree

variable {known : Ticket → Prop} {d d' : Desk}

theorem mono (h : d.CrashFree known) {fewer : Ticket → Prop} (hfewer : ∀ t, fewer t → known t) :
    d.CrashFree fewer where
  issued t ht := h.issued t (hfewer t ht)
  calls c hc := ⟨(h.calls c hc).issued, fun ht => (h.calls c hc).limit (hfewer _ ht)⟩
  told := h.told
  calm m hm ht := h.calm m hm (hfewer _ ht)

theorem frame (h : d.CrashFree known) (hsettings : d'.settings = d.settings)
    (hissued : d'.issued = d.issued) (hcalls : ∀ c ∈ d'.calls, c ∈ d.calls)
    (hmessages : ∀ m ∈ d'.messages, m ∈ d.messages) : d'.CrashFree known where
  issued t ht := hissued ▸ h.issued t ht
  calls c hc := by
    rw [hsettings, hissued]
    exact h.calls c (hcalls c hc)
  told m hm := hissued ▸ h.told m (hmessages m hm)
  calm m hm := h.calm m (hmessages m hm)

theorem same (h : d.CrashFree known) (hsettings : d'.settings = d.settings)
    (hissued : d'.issued = d.issued) (hcalls : d'.calls = d.calls)
    (hmessages : d'.messages = d.messages) : d'.CrashFree known :=
  h.frame hsettings hissued (fun _ hc => hcalls ▸ hc) fun _ hm => hmessages ▸ hm

theorem tell (h : d.CrashFree known) {t : Ticket} (ht : t < d.issued) {m : Message}
    (hm : known t → m ≠ .ended .crashed) : (d.tell t m).CrashFree known where
  issued := h.issued
  calls := h.calls
  told := List.forall_mem_append.mpr ⟨h.told, List.forall_mem_singleton.mpr ht⟩
  calm := List.forall_mem_append.mpr ⟨h.calm, List.forall_mem_singleton.mpr hm⟩

theorem update (h : d.CrashFree known) {c : Call} (hc : c.HasLimit known d.settings d.issued) :
    (d.update c).CrashFree known where
  issued := h.issued
  calls x hx := by
    obtain ⟨y, hy, rfl⟩ := List.mem_map.mp hx
    split
    · exact hc
    · exact h.calls y hy
  told := h.told
  calm := h.calm

theorem summon (h : d.CrashFree known) : d.summon.CrashFree known where
  issued := h.issued
  calls x hx := by
    rw [summon_calls] at hx
    obtain ⟨y, hy, rfl⟩ := List.mem_map.mp hx
    split <;> exact ⟨(h.calls y hy).issued, (h.calls y hy).limit⟩
  told := h.told
  calm := h.calm

theorem release (h : d.CrashFree known) (c : Call) : (d.release c).CrashFree known :=
  summon (d := { d with limiter := d.limiter.release c.key c.ticket }) (h.same rfl rfl rfl rfl)

theorem remove (h : d.CrashFree known) (t : Ticket) :
    ({ d with calls := d.calls.filter (·.ticket != t) } : Desk).CrashFree known :=
  h.frame rfl rfl (fun _ hc => List.mem_of_mem_filter hc) fun _ hm => hm

theorem close (h : d.CrashFree known) {c : Call} (hc : c.HasLimit known d.settings d.issued)
    {how : Ending} (hhow : known c.ticket → how ≠ .crashed) : (d.close c how).CrashFree known :=
  ((h.remove c.ticket).tell hc.issued fun ht heq => hhow ht (Message.ended.inj heq)).release c

theorem launch (h : d.CrashFree known) {c : Call} (hc : c.HasLimit known d.settings d.issued)
    (attempt : Nat) : (d.launch c attempt).CrashFree known := by
  unfold Desk.launch
  split
  next hnone => exact h.close hc fun ht => by simpa [hnone] using hc.limit ht
  next =>
    dsimp only
    apply update
    · exact h.same rfl rfl rfl rfl
    · exact ⟨hc.issued, hc.limit⟩

/-- A new call is known from now on only if nothing about it is out of range. -/
theorem start (h : d.CrashFree known) {more : Ticket → Prop}
    (hmore : ∀ t, more t → known t ∨ t = d.issued) {key : String} {prompt : Prompt}
    (hinRange : more d.issued → d.CallInRange key prompt) (streams : Bool) :
    (d.start key prompt streams).1.CrashFree more := by
  -- The next ticket is nobody's yet, so what is known of tickets in use is what was known before.
  have hold {t : Ticket} (hlt : t < d.issued) (ht : more t) : known t :=
    (hmore t ht).resolve_right (Nat.ne_of_lt hlt)
  have hnext (l : Limiter) :
    ({ d with limiter := l, issued := d.issued + 1 } : Desk).CrashFree more :=
    { issued := fun t ht => (hmore t ht).elim (fun hk => Nat.lt_succ_of_lt (h.issued t hk))
        fun heq => heq ▸ Nat.lt_succ_self _
      calls := fun c hc => ⟨Nat.lt_succ_of_lt (h.calls c hc).issued,
        fun ht => (h.calls c hc).limit (hold (h.calls c hc).issued ht)⟩
      told := fun m hm => Nat.lt_succ_of_lt (h.told m hm)
      calm := fun m hm ht => h.calm m hm (hold (h.told m hm) ht) }
  let c : Call := { ticket := d.issued, key, prompt, streams }
  have hlimit : c.HasLimit more d.settings (d.issued + 1) :=
    ⟨Nat.lt_succ_self _, fun ht => (hinRange ht).1⟩
  have hadd : CrashFree more { d with
      limiter := (d.limiter.request key none d.issued).1, issued := d.issued + 1
      calls := d.calls ++ [c] } :=
    ⟨(hnext d.limiter).issued,
      List.forall_mem_append.mpr ⟨(hnext d.limiter).calls, List.forall_mem_singleton.mpr hlimit⟩,
      (hnext d.limiter).told, (hnext d.limiter).calm⟩
  unfold Desk.start
  dsimp only
  split
  next => exact (hnext _).tell (Nat.lt_succ_self _) fun _ => by simp
  next himpossible =>
    exact (hnext _).tell (Nat.lt_succ_self _) fun ht =>
      absurd himpossible (request_ne_impossible _ (hinRange ht).2)
  next => exact hadd
  next => exact hadd.launch hlimit 1

theorem notice (h : d.CrashFree known) {c : Call} (hc : c.HasLimit known d.settings d.issued) :
    (d.notice c).CrashFree known := by
  have hchecked :
    ({ d with limiter := (d.limiter.check c.key c.ticket).1 } : Desk).CrashFree known :=
    h.same rfl rfl rfl rfl
  unfold Desk.notice
  dsimp only
  split
  next => exact hchecked.launch hc 1
  next => exact ((hchecked.remove c.ticket).tell hc.issued fun _ => by simp).summon
  next => exact hchecked.update ⟨hc.issued, hc.limit⟩
  next => exact hchecked.update ⟨hc.issued, hc.limit⟩

theorem line (h : d.CrashFree known) {c : Call} (hc : c.HasLimit known d.settings d.issued)
    (text : String) : (d.line c text).CrashFree known := by
  have hupdated : (d.update { c with
      transcript := (c.transcript.feed text.toList).1 }).CrashFree known :=
    h.update ⟨hc.issued, hc.limit⟩
  unfold Desk.line
  dsimp only
  split
  next => exact hupdated.tell hc.issued fun _ => by simp
  next => exact hupdated

theorem finishCaptured (h : d.CrashFree known) {c : Call}
    (hc : c.HasLimit known d.settings d.issued) (attempt : Nat)
    (outcome : Except Failure Execution.Result) :
    (d.finishCaptured c attempt outcome).CrashFree known := by
  unfold Desk.finishCaptured
  split
  next =>
    apply update
    · exact h.same rfl rfl rfl rfl
    · exact ⟨hc.issued, hc.limit⟩
  next => exact h.close hc fun _ => by split <;> simp

theorem finishStreamed (h : d.CrashFree known) {c : Call}
    (hc : c.HasLimit known d.settings d.issued) (outcome : Except Failure Int) :
    (d.finishStreamed c outcome).CrashFree known := by
  unfold Desk.finishStreamed
  dsimp only
  split
  next => exact (h.tell hc.issued fun _ => by simp).close hc fun _ => by split <;> simp
  next => exact h.close hc fun _ => by split <;> simp

theorem finish (h : d.CrashFree known) {c : Call} (hc : c.HasLimit known d.settings d.issued) :
    (d.finish c).CrashFree known := by
  have hrecord (number : Nat) (ending : Execution.Ending) :
      (d.record number ending).CrashFree known := h.same rfl rfl rfl rfl
  unfold Desk.finish
  split
  next =>
    split
    · exact (hrecord _ _).finishStreamed hc _
    · exact (hrecord _ _).finishCaptured hc _ _
  next => exact h

theorem retry (h : d.CrashFree known) {c : Call} (hc : c.HasLimit known d.settings d.issued) :
    (d.retry c).CrashFree known := by
  unfold Desk.retry
  split
  next attempt _ => exact h.launch hc (attempt + 1)
  next => exact h

theorem perform (h : d.CrashFree known) (task : Task) : (d.perform task).CrashFree known := by
  unfold Desk.perform
  split
  next => exact h
  next c hcall =>
    have hc := h.calls c (List.mem_of_find?_eq_some hcall)
    cases task with
    | notice => exact h.notice hc
    | line _ text => exact h.line hc text
    | finish => exact h.finish hc
    | retry => exact h.retry hc

theorem step (h : d.CrashFree known) (moment : Duration) : (d.step moment).CrashFree known := by
  unfold Desk.step
  split
  next =>
    apply perform
    exact h.same rfl rfl rfl rfl
  next => exact h

theorem runTo (h : d.CrashFree known) (moment : Duration) : (d.runTo moment).CrashFree known :=
  runUntil_keeps (fun t _ hs => hs.step t) moment manySteps h

theorem shut (h : d.CrashFree known) : d.shut.CrashFree known :=
  summon (d := { d with limiter := d.limiter.close }) (h.same rfl rfl rfl rfl)

end CrashFree

end Desk

end AgentGateway.Client
