import AgentGateway.Proofs.Admission.Conservation
import AgentGateway.Proofs.Client.Endings
import AgentGateway.Proofs.Client.Slots

/-!
# Calls never exceed their slots, and give them all back

Calls are made, carried on and dropped in any order: whichever of them has something to do may be
the next to do it (`Desk.goOn`), whenever it is due. Whatever the order, the calls of a key that
are past admission are no more than the pool of the key has slots, and when no call of the key is
left all its slots are free.

Two things are kept. The slots of a pool are those of calls or are free (`Desk.SlotsAccounted`),
and a pool that was made stays and keeps its size (`Limiter.Grows`), which is the one configured,
since calls ask for no other.
-/

namespace AgentGateway.Client

open Admission (Limiter Pool Ticket)

variable {known : Ticket → Prop} {j : Journal} {d : Desk} {c : Call} {sizes : String → Nat}

/-! ## Any call may be the next -/

/-- A call does what is due for it next, whatever else is due. -/
def Desk.goOn (d : Desk) (t : Ticket) : Desk :=
  match d.agenda.take? (·.ticket == t) with
  | some (task, agenda) => { d with agenda }.perform task
  | none => d

theorem Desk.Next.of_take (ho : d.agenda.Ordered) {t : Ticket} {task : Task} {rest : Agenda Task}
    (htake : d.agenda.take? (·.ticket == t) = some (task, rest)) : d.Next task rest where
  ordered := ho.take htake
  tasks u := by
    obtain ⟨-, -, -, -, -, hticket, -⟩ := Agenda.take?_eq_some htake
    obtain rfl : task.ticket = t := by simpa using hticket
    by_cases hu : task.ticket = u
    · subst hu
      rw [if_pos (beq_self_eq_true _)]
      exact Agenda.select_take htake
    · rw [if_neg (by simpa using hu)]
      exact Agenda.select_take_of_neg htake (by simpa using hu)

theorem Journaled.goOn (h : Journaled (fun _ => True) j d) (t : Ticket) :
    Journaled (fun _ => True) j (d.goOn t) := by
  unfold Desk.goOn
  split
  next task agenda htake => exact h.attend (.of_take h.ordered htake) d.now
  next => exact h

theorem Desk.SlotsAccounted.goOn (h : d.SlotsAccounted sizes) (hn : Journaled (fun _ => True) j d)
    (t : Ticket) : (d.goOn t).SlotsAccounted sizes := by
  unfold Desk.goOn
  split
  next task agenda htake => exact h.attend hn (.of_take hn.ordered htake) d.now
  next => exact h

/-- What can happen while calls take turns. -/
inductive Turn where
  | move (m : Move)
  | goOn (t : Ticket)

/-- The pool that a turn may make. -/
def Turn.opens? : Turn → Option (String × Option Nat)
  | .move (.start key _ _) => some (key, none)
  | _ => none

namespace Diary

def turn (y : Diary) : Turn → Diary
  | .move m => y.move m
  | .goOn t => { y with desk := y.desk.goOn t }

def turns (y : Diary) (us : List Turn) : Diary := us.foldl turn y

end Diary

/-! ## Pools stay -/

section

open Desk

variable {made : Option (String × Option Nat)} {l : Limiter}

theorem grows_release (h : l.Grows made d.limiter) (c : Call) :
    l.Grows made (d.release c).limiter :=
  h.modifyPool c.key (Pool.frame_release c.ticket)

theorem grows_close (h : l.Grows made d.limiter) (c : Call) (how : Ending) :
    l.Grows made (d.close c how).limiter :=
  grows_release (d := { d with calls := d.calls.filter (·.ticket != c.ticket) }.tell c.ticket
    (.ended how)) h c

theorem grows_launch (h : l.Grows made d.limiter) (c : Call) (attempt : Nat) :
    l.Grows made (d.launch c attempt).limiter := by
  unfold launch
  split
  · exact grows_close h c .crashed
  · exact h

theorem grows_start (d : Desk) (key : String) (prompt : Prompt) (streams : Bool) :
    d.limiter.Grows (some (key, none)) (d.start key prompt streams).1.limiter := by
  have hasked := Limiter.grows_ask (Pool.frame_enter key d.issued) key none d.limiter
  unfold start
  dsimp only
  split
  · exact hasked
  · exact hasked
  · exact hasked
  · apply grows_launch
    exact hasked

theorem grows_notice (made : Option (String × Option Nat)) (d : Desk) (c : Call) :
    d.limiter.Grows made (d.notice c).limiter := by
  have hchecked := Limiter.grows_check made d.limiter c.key c.ticket
  unfold notice
  dsimp only
  split
  · apply grows_launch
    exact hchecked
  · exact hchecked
  · exact hchecked
  · exact hchecked

theorem grows_line (h : l.Grows made d.limiter) (c : Call) (text : String) :
    l.Grows made (d.line c text).limiter := by
  unfold line
  dsimp only
  split <;> exact h

theorem grows_finish (h : l.Grows made d.limiter) (c : Call) :
    l.Grows made (d.finish c).limiter := by
  unfold Desk.finish
  split
  next =>
    split
    next =>
      unfold finishStreamed
      dsimp only
      split
      · apply grows_close
        exact h
      · apply grows_close
        exact h
    next =>
      unfold finishCaptured
      split
      · exact h
      · apply grows_close
        exact h
  next => exact h

theorem grows_retry (h : l.Grows made d.limiter) (c : Call) :
    l.Grows made (d.retry c).limiter := by
  unfold retry
  split
  · exact grows_launch h c _
  · exact h

theorem grows_perform (made : Option (String × Option Nat)) (d : Desk) (task : Task) :
    d.limiter.Grows made (d.perform task).limiter := by
  have hsame := Limiter.Grows.refl made d.limiter
  unfold perform
  split
  next => exact hsame
  next c _ =>
    cases task with
    | notice => exact grows_notice made d c
    | line t text => exact grows_line hsame c text
    | finish => exact grows_finish hsame c
    | retry => exact grows_retry hsame c

theorem grows_drop (made : Option (String × Option Nat)) (d : Desk) (t : Ticket) :
    d.limiter.Grows made (d.drop t).limiter := by
  have hsame := Limiter.Grows.refl made d.limiter
  unfold drop
  split
  next => exact hsame
  next c _ =>
    have hleft := hsame.modifyPool c.key (Pool.frame_leave t)
    have hreleased := hsame.modifyPool c.key (Pool.frame_release c.ticket)
    dsimp only
    split
    · exact hleft
    · exact hleft
    · exact hreleased
    · exact hreleased

end

/-- A turn makes no pool but one that a call asks for which starts. -/
theorem grows_turn (y : Diary) (u : Turn) :
    y.desk.limiter.Grows u.opens? (y.turn u).desk.limiter := by
  have hsame := Limiter.Grows.refl none y.desk.limiter
  cases u with
  | goOn t =>
      simp only [Diary.turn, Desk.goOn]
      split
      next task agenda _ => exact grows_perform none { y.desk with agenda } task
      next => exact hsame
  | move m =>
      cases m with
      | start key prompt streams => exact grows_start y.desk key prompt streams
      | step moment =>
          simp only [Diary.turn, Diary.move, Desk.step]
          split
          next due task agenda _ =>
            exact grows_perform none
              { y.desk with agenda, now := if y.desk.now ≤ due then due else y.desk.now } task
          next => exact hsame
      | drop t => exact grows_drop none y.desk t
      | shut => exact Limiter.grows_close none y.desk.limiter
      | collect => exact hsame
      | clock => exact hsame

/-! ## Every turn -/

/-- What every turn keeps: all is known of the calls, slots are those of calls, and pools have the
sizes that they should have. -/
structure TurnInvariant (sizes : String → Nat) (y : Diary) : Prop where
  journal : Journaled (fun _ => True) y.journal y.desk
  slotsAccounted : y.desk.SlotsAccounted sizes
  sized : ∀ {key p}, y.desk.limiter.pool? key = some p → p.capacity = sizes key

namespace TurnInvariant

variable {y : Diary}

theorem opening (settings : Settings) (defaultCapacity : Nat) (named : List (String × Nat))
    (agent : Execution.Agent) :
    TurnInvariant (Limiter.sizeFor { defaultCapacity, named } · none)
      (Diary.opening settings { defaultCapacity, named } agent) where
  journal := journaled_opening settings { defaultCapacity, named } agent
  slotsAccounted := slotsAccounted_opening settings defaultCapacity named agent
  sized hp := by cases hp

theorem move_slotsAccounted (h : TurnInvariant sizes y) (m : Move) :
    (y.move m).desk.SlotsAccounted sizes := by
  cases m with
  | start key prompt streams =>
      refine h.slotsAccounted.start h.journal.distinct (fun x hx heq => ?_) key prompt streams
      obtain ⟨hstarted, -⟩ := h.journal.stage hx
      have hlt := (List.getElem?_eq_some_iff.mp hstarted).1
      rw [h.journal.started, heq] at hlt
      exact Nat.lt_irrefl _ hlt
  | step moment => exact h.slotsAccounted.step h.journal moment
  | drop t => exact h.slotsAccounted.drop h.journal.distinct t
  | shut => exact h.slotsAccounted.shut
  | collect | clock => exact h.slotsAccounted.same rfl rfl

theorem turn (h : TurnInvariant sizes y) (u : Turn) : TurnInvariant sizes (y.turn u) where
  journal := by
    cases u with
    | move m => exact h.journal.move m
    | goOn t => exact h.journal.goOn t
  slotsAccounted := by
    cases u with
    | move m => exact h.move_slotsAccounted m
    | goOn t => exact h.slotsAccounted.goOn h.journal t
  sized {key p} hp := by
    have hgrows := grows_turn y u
    cases hbefore : y.desk.limiter.pool? key with
    | some q =>
        obtain ⟨p', hp', hcapacity⟩ := hgrows.kept hbefore
        obtain rfl := Option.some.inj (hp'.symm.trans hp)
        exact hcapacity.trans (h.sized hbefore)
    | none =>
        obtain ⟨override, hopens, hcapacity⟩ := hgrows.new hbefore hp
        obtain rfl : override = none := by
          unfold Turn.opens? at hopens
          split at hopens <;> cases hopens
          rfl
        exact hcapacity.trans (h.slotsAccounted.sizes key)

theorem turns (h : TurnInvariant sizes y) (us : List Turn) : TurnInvariant sizes (y.turns us) := by
  induction us generalizing y with
  | nil => exact h
  | cons u us ih => exact ih (h.turn u)

end TurnInvariant

theorem pool?_turns (y : Diary) (us : List Turn) {key : String} {p : Pool}
    (hp : y.desk.limiter.pool? key = some p) :
    ∃ q, (y.turns us).desk.limiter.pool? key = some q := by
  induction us generalizing y p with
  | nil => exact ⟨p, hp⟩
  | cons u us ih =>
      obtain ⟨q, hq, -⟩ := (grows_turn y u).kept hp
      exact ih (y.turn u) hq

/-! ## What holds after any turns -/

def Desk.admitted (d : Desk) (key : String) : List Call :=
  d.calls.filter fun c => c.key == key && c.phase.isAdmitted

/-- What is promised of the slots of calls, given the number of slots of each key. The calls of a
key that are past admission are no more than there are slots. A slot is free, or that of a call past
admission, or on its way to a call that is about to notice; when no call of a key is left, all slots
are free. As soon as there is a call of a key there are slots of it, and they stay. A call that is
no longer there was dropped or has told how it ended, and one that is there has not. -/
structure Rationed (sizes : String → Nat) (y : Diary) : Prop where
  bounded : ∀ key, (y.desk.admitted key).length ≤ sizes key
  sized : ∀ {key p}, y.desk.limiter.pool? key = some p → p.capacity = sizes key
  slots : ∀ {key p}, y.desk.limiter.pool? key = some p →
    p.free + (y.desk.admitted key).length + p.handed.length = p.capacity
  handed : ∀ {key p}, y.desk.limiter.pool? key = some p → ∀ t ∈ p.handed,
    ∃ c ∈ y.desk.calls, c.ticket = t ∧ c.key = key ∧ c.phase = .summoned
  rest : ∀ key, (∀ c ∈ y.desk.calls, c.key ≠ key) → ∀ n, y.desk.limiter.available key = some n →
    n = sizes key
  lasting : ∀ c ∈ y.desk.calls, ∀ more,
    ((y.turns more).desk.limiter.available c.key).isSome = true
  left : ∀ {t : Ticket} {o : Opening}, y.journal.started[t]? = some o →
    (∀ c ∈ y.desk.calls, c.ticket ≠ t) → t ∈ y.journal.gone ∨ ∃ how, .ended how ∈ y.told t
  present : ∀ c ∈ y.desk.calls, y.journal.started[c.ticket]? = some ⟨c.key, c.prompt, c.streams⟩ ∧
    ∀ how, .ended how ∉ y.told c.ticket

theorem ticketsOf_admitted (d : Desk) (key : String) :
    (ticketsOf (d.calls.map (·.guest)) key true).length = (d.admitted key).length := by
  rw [ticketsOf, List.length_map, List.filter_map, List.length_map, Desk.admitted]
  congr 1
  refine List.filter_congr fun c _ => ?_
  cases hadmitted : c.phase.isAdmitted <;> simp [Call.guest, hadmitted]

theorem Stage.silent {told : List Message} {due : List Task} (h : Stage d c told due)
    (how : Ending) : .ended how ∉ told := by
  cases h with
  | waiting | summoned | capturing | pausing => exact List.not_mem_nil
  | streaming => simp

namespace TurnInvariant

variable {y : Diary}

theorem slots (h : TurnInvariant sizes y) {key : String} {p : Pool}
    (hp : y.desk.limiter.pool? key = some p) :
    p.free + (y.desk.admitted key).length + p.handed.length = p.capacity := by
  have hfits := h.slotsAccounted.pools.fits hp
  rw [← ticketsOf_admitted, ← hfits.holds.length_eq]
  exact hfits.slots

theorem handed (h : TurnInvariant sizes y) {key : String} {p : Pool}
    (hp : y.desk.limiter.pool? key = some p) {t : Ticket} (ht : t ∈ p.handed) :
    ∃ c ∈ y.desk.calls, c.ticket = t ∧ c.key = key ∧ c.phase = .summoned := by
  have hfits := h.slotsAccounted.pools.fits hp
  obtain ⟨g, hg, rfl, rfl, hadmitted⟩ :=
    mem_ticketsOf.mp (hfits.waits.mem_iff.mp (List.mem_append_left p.line ht))
  obtain ⟨c, hc, rfl⟩ := List.mem_map.mp hg
  refine ⟨c, hc, rfl, rfl, ?_⟩
  have hnot : c.phase.isAdmitted = false := hadmitted
  cases hphase : c.phase with
  | summoned => rfl
  | waiting =>
      have hundecided := isDecided_eq_false_iff.mp (h.slotsAccounted.undecided c hc) hphase p hp
      exact absurd ht hundecided.2
  | executing | pausing => simp [hphase, Phase.isAdmitted] at hnot

theorem admitted_of_none (h : TurnInvariant sizes y) {key : String}
    (hnone : y.desk.limiter.pool? key = none) : (y.desk.admitted key).length = 0 := by
  rw [← ticketsOf_admitted, h.slotsAccounted.pools.ticketsOf_of_none hnone]
  rfl

theorem rest (h : TurnInvariant sizes y) {key : String} (hover : ∀ c ∈ y.desk.calls, c.key ≠ key)
    {n : Nat} (hn : y.desk.limiter.available key = some n) : n = sizes key := by
  obtain ⟨p, hp, rfl⟩ := Option.map_eq_some_iff.mp hn
  have hnobody : y.desk.admitted key = [] := by
    refine List.filter_eq_nil_iff.mpr fun c hc => ?_
    simp [hover c hc]
  have hnone : p.handed = [] := by
    rw [List.eq_nil_iff_forall_not_mem]
    intro t ht
    obtain ⟨c, hc, -, hkey, -⟩ := h.handed hp ht
    exact hover c hc hkey
  have hslots := h.slots hp
  rw [hnobody, hnone] at hslots
  exact hslots.trans (h.sized hp)

end TurnInvariant

theorem TurnInvariant.rationed {y : Diary} (h : TurnInvariant sizes y) : Rationed sizes y where
  bounded key := by
    cases hp : y.desk.limiter.pool? key with
    | none =>
        rw [h.admitted_of_none hp]
        exact Nat.zero_le _
    | some p =>
        have hslots := h.slots hp
        have hsized := h.sized hp
        omega
  sized := h.sized
  slots := h.slots
  handed hp _ ht := h.handed hp ht
  rest _ hover _ hn := h.rest hover hn
  lasting c hc more := by
    obtain ⟨p, hp⟩ := h.slotsAccounted.pools.located c.guest (List.mem_map_of_mem hc)
    obtain ⟨q, hq⟩ := pool?_turns y more hp
    rw [Limiter.available, show c.key = c.guest.key from rfl, hq]
    rfl
  left {t o} hstarted hnone := by
    cases h.journal.status t trivial with
    | fresh hfresh => simp [hfresh] at hstarted
    | running hc hticket => exact absurd hticket (hnone _ hc)
    | ended _ _ _ hstory =>
        by_cases hgone : t ∈ y.journal.gone
        · exact .inl hgone
        · exact .inr (hstory hgone).ends
  present c hc := by
    obtain ⟨hstarted, hstage⟩ := h.journal.stage hc
    exact ⟨hstarted, hstage.silent⟩

/-- However calls take turns, they keep to the slots of their keys and give them all back. -/
theorem turns_rationed (settings : Settings) (defaultCapacity : Nat)
    (named : List (String × Nat)) (agent : Execution.Agent) (us : List Turn) :
    Rationed (fun key => max ((named.lookup key).getD defaultCapacity) 1)
      ((Diary.opening settings { defaultCapacity, named } agent).turns us) :=
  ((TurnInvariant.opening settings defaultCapacity named agent).turns us).rationed

end AgentGateway.Client
