import AgentGateway.Proofs.Admission.Order

/-!
# A closed limiter stays closed

Once a limiter is closed nobody is admitted any more. Requests that were waiting fail as soon as
they look, those that come later fail at once, and no pool is made for a key that had none. Slots
that are held stay held until their holders give them back, and then each of them is free.

What a move can do at a closed limiter is said in one place (`Aftermath`), and what holds of a
whole run follows from it by induction on the moves.
-/

namespace AgentGateway.Admission

def closedCause (l : Limiter) (key : String) : Failure :=
  if (l.pool? key).isSome then poolClosed key else limiterClosed key

def Move.request? : Move → Option (String × String)
  | acquire name key _ | tryAcquire name key _ | acquireWithin name key _ _ => some (name, key)
  | prepare _ _ | look _ | giveUp _ | abort _ | release _ | close | elapse _ => none

namespace Pool

variable {p : Pool}

theorem enter_of_closed (h : p.closed = true) (key : String) (t : Ticket) :
    p.enter key t = (p, .refused (poolClosed key)) := by
  simp [enter, h]

theorem tryEnter_of_closed (h : p.closed = true) (key : String) (t : Ticket) :
    p.tryEnter key t = (p, .refused (poolClosed key)) := by
  simp [tryEnter, h]

theorem check_of_closed (h : p.closed = true) (key : String) (t : Ticket) :
    p.check key t = (p.leave t, .refused (poolClosed key)) := by
  simp [check, h]

theorem release_of_closed (h : p.closed = true) {t : Ticket} (ht : t ∈ p.held) :
    p.release t = { p with held := p.held.erase t, free := p.free + 1 } := by
  simp [release, give, h, ht]

theorem close_of_closed (h : p.closed = true) : p.close = p := by
  rw [close, ← h]

end Pool

namespace Limiter

variable {l : Limiter} {key : String}

/-- A call that changes no pool and cannot make one leaves the pools as they are. -/
theorem pool?_ask_of_closed (hclosed : l.closed = true) {enter : Pool → Pool × Answer}
    (henter : ∀ p, l.pool? key = some p → (enter p).1 = p) (override : Option Nat) (k : String) :
    (l.ask enter key override).1.pool? k = l.pool? k := by
  by_cases hk : k = key
  · subst hk
    rcases ask_cases enter k override l with ⟨p, hp | ⟨-, hopen, -⟩, hafter, -⟩ | ⟨-, hsame, -⟩
    · rw [hafter, henter p hp, hp]
    · rw [hclosed] at hopen
      cases hopen
    · rw [hsame]
  · exact (touches_ask enter key override l).elsewhere k hk

theorem ask_of_closed (hclosed : l.closed = true) {enter : Pool → Pool × Answer}
    (henter : ∀ p, l.pool? key = some p → enter p = (p, .refused (poolClosed key)))
    (override : Option Nat) :
    (l.ask enter key override).2 = .refused (closedCause l key) := by
  unfold ask closedCause
  cases hp : l.pool? key with
  | none => simp [hclosed]
  | some p => simp [henter p hp]

end Limiter

namespace Desk

structure Shut (d : Desk) : Prop where
  sound : d.Sound
  numbered : d.Numbered
  closed : d.limiter.closed = true

variable {d d' : Desk} {m : Move}

theorem Shut.pool (h : d.Shut) {key : String} {p : Pool} (hp : d.limiter.pool? key = some p) :
    p.closed = true :=
  ((h.sound key).shut hp).trans h.closed

/-- A move ends the wait of a caller with a verdict. -/
structure Ends (d : Desk) (m : Move) (v : Visit) (what : Verdict) : Prop where
  waits : v ∈ d.waiting
  leaves : (d.move m).waiting = d.waiting.erase v
  told : (d.move m).notes = d.notes ++ [⟨d.now.millis, v.name, what⟩]

/-- What a move can do at a desk whose limiter is closed. A request fails, also one that was
waiting. -/
inductive Aftermath (d : Desk) (m : Move) (d' : Desk) : Prop
  | idle (hm : m.request? = none) (hpools : ∀ k, d'.limiter.pool? k = d.limiter.pool? k)
      (hwaiting : d'.waiting = d.waiting) (hholders : d'.holders = d.holders)
      (hnotes : d'.notes = d.notes)
  | refused {name key : String} (hm : m.request? = some (name, key))
      (hpools : ∀ k, d'.limiter.pool? k = d.limiter.pool? k)
      (hwaiting : d'.waiting = d.waiting) (hholders : d'.holders = d.holders)
      (hnotes : d'.notes =
        d.notes ++ [⟨d.now.millis, name, .failed (closedCause d.limiter key)⟩])
  | failed {v : Visit} (hm : m = .look v ∨ m = .giveUp v) (hv : v ∈ d.waiting)
      (hpool : d'.limiter.pool? v.key = (d.limiter.pool? v.key).map (Pool.leave v.ticket))
      (hpools : ∀ k, k ≠ v.key → d'.limiter.pool? k = d.limiter.pool? k)
      (hwaiting : d'.waiting = d.waiting.erase v) (hholders : d'.holders = d.holders)
      (hnotes : d'.notes = d.notes ++ [⟨d.now.millis, v.name, .failed (poolClosed v.key)⟩])
  | aborted {v : Visit} (hm : m = .abort v) (hv : v ∈ d.waiting)
      (hpool : d'.limiter.pool? v.key = (d.limiter.pool? v.key).map (Pool.leave v.ticket))
      (hpools : ∀ k, k ≠ v.key → d'.limiter.pool? k = d.limiter.pool? k)
      (hwaiting : d'.waiting = d.waiting.erase v) (hholders : d'.holders = d.holders)
      (hnotes : d'.notes = d.notes)
  | released {held : Holder} (hm : m = .release held) (hheld : held ∈ d.holders)
      (hpool : d'.limiter.pool? held.key =
        (d.limiter.pool? held.key).map (Pool.release held.ticket))
      (hpools : ∀ k, k ≠ held.key → d'.limiter.pool? k = d.limiter.pool? k)
      (hwaiting : d'.waiting = d.waiting) (hholders : d'.holders = d.holders.erase held)
      (hnotes : d'.notes = d.notes)

namespace Shut

/-- A request to a closed limiter fails, in whichever way it asks. -/
theorem enroll (h : d.Shut) {v : Visit} {enter : Pool → Pool × Answer}
    (henter : ∀ p : Pool, p.closed = true → enter p = (p, .refused (poolClosed v.key)))
    (override : Option Nat) (hm : m.request? = some (v.name, v.key)) :
    Aftermath d m (d.enroll enter override v) := by
  have hpool : ∀ p, d.limiter.pool? v.key = some p → enter p = (p, .refused (poolClosed v.key)) :=
    fun p hp => henter p (h.pool hp)
  have hanswer := Limiter.ask_of_closed h.closed hpool override
  rw [Desk.enroll, hanswer]
  refine .refused hm (fun k => ?_) rfl rfl rfl
  rw [settle_limiter]
  exact Limiter.pool?_ask_of_closed h.closed (fun p hp => by rw [hpool p hp]) override k

/-- A caller that looks while it waits at a closed limiter learns that it will get no slot. -/
theorem consult (h : d.Shut) {v : Visit} (hv : v ∈ d.waiting)
    (hm : m = .look v ∨ m = .giveUp v) :
    (d.limiter.check v.key v.ticket).2 = .refused (poolClosed v.key) ∧
      Aftermath d m ((d.dismiss v).consult v) := by
  obtain ⟨p, hp⟩ := (h.sound v.key).pool_of_waiting hv
  obtain ⟨hafter, hanswer⟩ := Limiter.check_of_pool hp v.ticket
  rw [Pool.check_of_closed (h.pool hp)] at hafter hanswer
  constructor
  · exact hanswer
  · have hanswer' : ((d.dismiss v).limiter.check v.key v.ticket).2 =
        .refused (poolClosed v.key) := hanswer
    rw [Desk.consult, hanswer']
    refine .failed hm hv ?_ (fun k hk => ?_) rfl rfl rfl
    · rw [settle_limiter, hp]
      exact hafter
    · rw [settle_limiter]
      exact (Limiter.touches_check d.limiter v.key v.ticket).elsewhere k hk

theorem aftermath (h : d.Shut) (m : Move) : Aftermath d m (d.move m) := by
  cases m with
  | prepare key override =>
      refine .idle rfl (fun k => ?_) rfl rfl rfl
      exact Limiter.pool?_ask_of_closed h.closed (fun _ _ => rfl) override k
  | acquire name key override =>
      exact h.enroll (v := ⟨name, d.issued, key, none⟩)
        (fun p hp => Pool.enter_of_closed hp key d.issued) override rfl
  | tryAcquire name key override =>
      exact h.enroll (v := ⟨name, d.issued, key, none⟩)
        (fun p hp => Pool.tryEnter_of_closed hp key d.issued) override rfl
  | acquireWithin name key override wait =>
      exact h.enroll (v := ⟨name, d.issued, key, some (wait, (d.now + wait).tick)⟩)
        (fun p hp => Pool.enter_of_closed hp key d.issued) override rfl
  | look v =>
      rw [move]
      split_ifs with hv
      · exact (h.consult hv (.inl rfl)).2
      · exact .idle rfl (fun _ => rfl) rfl rfl rfl
  | giveUp v =>
      rw [move]
      split
      next wait deadline _ =>
        split_ifs with hv
        · obtain ⟨hanswer, hafter⟩ := h.consult hv.1 (.inr rfl)
          have hanswer' : ((d.dismiss v).limiter.check v.key v.ticket).2 =
              .refused (poolClosed v.key) := hanswer
          rw [giveUp_eq, hanswer']
          rw [Desk.consult, hanswer'] at hafter
          exact hafter
        · exact .idle rfl (fun _ => rfl) rfl rfl rfl
      next => exact .idle rfl (fun _ => rfl) rfl rfl rfl
  | abort v =>
      rw [move]
      split_ifs with hv
      · refine .aborted rfl hv ?_ (fun k hk => ?_) rfl rfl rfl
        · exact (Limiter.pool?_modifyPool _ _ _ _).trans (if_pos rfl)
        · exact (Limiter.pool?_modifyPool _ _ _ _).trans (if_neg hk)
      · exact .idle rfl (fun _ => rfl) rfl rfl rfl
  | release held =>
      rw [move]
      split_ifs with hheld
      · refine .released rfl hheld ?_ (fun k hk => ?_) rfl rfl rfl
        · exact (Limiter.pool?_modifyPool _ _ _ _).trans (if_pos rfl)
        · exact (Limiter.pool?_modifyPool _ _ _ _).trans (if_neg hk)
      · exact .idle rfl (fun _ => rfl) rfl rfl rfl
  | close =>
      refine .idle rfl (fun k => ?_) rfl rfl rfl
      refine (Limiter.pool?_close d.limiter k).trans ?_
      cases hp : d.limiter.pool? k with
      | none => rfl
      | some p => exact congrArg some (Pool.close_of_closed (h.pool hp))
  | elapse span => exact .idle rfl (fun _ => rfl) rfl rfl rfl

theorem closed_move (h : d.limiter.closed = true) (m : Move) :
    (d.move m).limiter.closed = true := by
  cases hkey : m.key? with
  | some key => exact ((d.moved m).apart hkey).pools.closed.trans h
  | none =>
      cases m with
      | close => rfl
      | elapse => exact h
      | _ => cases hkey

theorem move (h : d.Shut) (m : Move) : (d.move m).Shut where
  sound := h.sound.moved (d.moved m)
  numbered := h.numbered.moved (d.moved m)
  closed := closed_move h.closed m

theorem play (h : d.Shut) (moves : List Move) : (d.play moves).Shut := by
  induction moves generalizing d with
  | nil => exact h
  | cons m moves ih => exact ih (h.move m)

end Shut

namespace Aftermath

theorem available_isSome (h : Aftermath d m d') (key : String) :
    (d'.limiter.available key).isSome = (d.limiter.available key).isSome := by
  simp only [Limiter.available, Option.isSome_map]
  cases h with
  | idle _ hpools | refused _ hpools => rw [hpools]
  | @failed v _ _ hpool hpools | @aborted v _ _ hpool hpools =>
      by_cases hk : key = v.key
      · rw [hk, hpool, Option.isSome_map]
      · rw [hpools key hk]
  | @released held _ _ hpool hpools =>
      by_cases hk : key = held.key
      · rw [hk, hpool, Option.isSome_map]
      · rw [hpools key hk]

theorem holders_sublist (h : Aftermath d m d') : d'.holders.Sublist d.holders := by
  cases h with
  | idle _ _ _ hholders | refused _ _ _ hholders | failed _ _ _ _ _ hholders
  | aborted _ _ _ _ _ hholders =>
      rw [hholders]
  | released _ _ _ _ _ hholders =>
      rw [hholders]
      exact List.erase_sublist

theorem waiting_sublist (h : Aftermath d m d') : d'.waiting.Sublist d.waiting := by
  cases h with
  | idle _ _ hwaiting | refused _ _ hwaiting | released _ _ _ _ hwaiting =>
      rw [hwaiting]
  | failed _ _ _ _ hwaiting | aborted _ _ _ _ hwaiting =>
      rw [hwaiting]
      exact List.erase_sublist

theorem holds (h : Aftermath d m d') {held : Holder} (hheld : held ∈ d.holders) :
    held ∈ d'.holders ∨ m = .release held := by
  cases h with
  | idle _ _ _ hholders | refused _ _ _ hholders | failed _ _ _ _ _ hholders
  | aborted _ _ _ _ _ hholders =>
      left
      rw [hholders]
      exact hheld
  | @released other hm _ _ _ _ hholders =>
      by_cases heq : held = other
      · right
        rw [heq]
        exact hm
      · left
        rw [hholders]
        exact (List.mem_erase_of_ne heq).mpr hheld

theorem waits (h : Aftermath d m (d.move m)) {v : Visit} (hv : v ∈ d.waiting) :
    v ∈ (d.move m).waiting ∨ m = .abort v ∨ d.Ends m v (.failed (poolClosed v.key)) := by
  cases h with
  | idle _ _ hwaiting | refused _ _ hwaiting | released _ _ _ _ hwaiting =>
      left
      rw [hwaiting]
      exact hv
  | @failed other hm hother _ _ hwaiting _ hnotes =>
      by_cases heq : v = other
      · right
        right
        subst heq
        exact ⟨hv, hwaiting, hnotes⟩
      · left
        rw [hwaiting]
        exact (List.mem_erase_of_ne heq).mpr hv
  | @aborted other hm _ _ _ hwaiting =>
      by_cases heq : v = other
      · right
        left
        rw [heq]
        exact hm
      · left
        rw [hwaiting]
        exact (List.mem_erase_of_ne heq).mpr hv

theorem told (h : Aftermath d m d') : ∃ news, d'.notes = d.notes ++ news ∧
    ∀ n ∈ news, ∃ key,
      n.what = .failed (poolClosed key) ∨ n.what = .failed (limiterClosed key) := by
  cases h with
  | idle _ _ _ _ hnotes | aborted _ _ _ _ _ _ hnotes | released _ _ _ _ _ _ hnotes =>
      refine ⟨[], ?_, ?_⟩
      · rw [hnotes, List.append_nil]
      · intro n hn
        cases hn
  | @refused name key _ _ _ _ hnotes =>
      refine ⟨_, hnotes, ?_⟩
      intro n hn
      rw [List.mem_singleton.mp hn]
      refine ⟨key, ?_⟩
      unfold closedCause
      split_ifs
      · exact .inl rfl
      · exact .inr rfl
  | @failed v _ _ _ _ _ _ hnotes =>
      refine ⟨_, hnotes, ?_⟩
      intro n hn
      rw [List.mem_singleton.mp hn]
      exact ⟨v.key, .inl rfl⟩

end Aftermath

/-! ## Runs -/

namespace Shut

theorem available_isSome (h : d.Shut) (key : String) (moves : List Move) :
    ((d.play moves).limiter.available key).isSome = (d.limiter.available key).isSome := by
  induction moves generalizing d with
  | nil => rfl
  | cons m moves ih => exact (ih (h.move m)).trans ((h.aftermath m).available_isSome key)

theorem holders_sublist (h : d.Shut) (moves : List Move) :
    (d.play moves).holders.Sublist d.holders := by
  induction moves generalizing d with
  | nil => exact .refl _
  | cons m moves ih => exact (ih (h.move m)).trans (h.aftermath m).holders_sublist

theorem waiting_sublist (h : d.Shut) (moves : List Move) :
    (d.play moves).waiting.Sublist d.waiting := by
  induction moves generalizing d with
  | nil => exact .refl _
  | cons m moves ih => exact (ih (h.move m)).trans (h.aftermath m).waiting_sublist

theorem holds (h : d.Shut) (moves : List Move) {held : Holder} (hheld : held ∈ d.holders) :
    held ∈ (d.play moves).holders ∨ .release held ∈ moves := by
  induction moves generalizing d with
  | nil => exact .inl hheld
  | cons m moves ih =>
      rcases (h.aftermath m).holds hheld with hkept | rfl
      · exact (ih (h.move m) hkept).imp_right (List.mem_cons_of_mem _)
      · exact .inr List.mem_cons_self

theorem waits (h : d.Shut) (moves : List Move) {v : Visit} (hv : v ∈ d.waiting) :
    v ∈ (d.play moves).waiting ∨ .abort v ∈ moves ∨
      ∃ front m back, moves = front ++ m :: back ∧
        (d.play front).Ends m v (.failed (poolClosed v.key)) := by
  induction moves generalizing d with
  | nil => exact .inl hv
  | cons m moves ih =>
      rcases (h.aftermath m).waits hv with hkept | rfl | hends
      · rcases ih (h.move m) hkept with hwaits | haborted | ⟨front, n, back, heq, hends⟩
        · exact .inl hwaits
        · exact .inr (.inl (List.mem_cons_of_mem _ haborted))
        · exact .inr (.inr ⟨m :: front, n, back, by rw [heq]; rfl, hends⟩)
      · exact .inr (.inl List.mem_cons_self)
      · exact .inr (.inr ⟨[], m, moves, rfl, hends⟩)

theorem told (h : d.Shut) (moves : List Move) :
    ∃ news, (d.play moves).notes = d.notes ++ news ∧ ∀ n ∈ news,
      ∃ key, n.what = .failed (poolClosed key) ∨ n.what = .failed (limiterClosed key) := by
  induction moves generalizing d with
  | nil => exact ⟨[], (List.append_nil _).symm, fun n hn => absurd hn List.not_mem_nil⟩
  | cons m moves ih =>
      obtain ⟨first, hfirst, hshut⟩ := (h.aftermath m).told
      obtain ⟨rest, hrest, hshut'⟩ := ih (h.move m)
      refine ⟨first ++ rest, ?_, ?_⟩
      · rw [← List.append_assoc, ← hfirst]
        exact hrest
      · intro n hn
        rcases List.mem_append.mp hn with hn | hn
        · exact hshut n hn
        · exact hshut' n hn

/-- The end of a wait that the limiter did not grant, by a look or because time is over. -/
theorem ends_of_consulted (h : d.Shut) {v : Visit} (hv : v ∈ d.waiting)
    (hm : d.move m = (d.dismiss v).consult v ∨
      ∃ wait, d.move m = (d.dismiss v).giveUp v wait) :
    d.Ends m v (.failed (poolClosed v.key)) := by
  have hanswer : ((d.dismiss v).limiter.check v.key v.ticket).2 = .refused (poolClosed v.key) :=
    (h.consult hv (.inl rfl)).1
  rcases hm with hm | ⟨wait, hm⟩
  · rw [Desk.consult, hanswer] at hm
    exact ⟨hv, by rw [hm]; rfl, by rw [hm]; rfl⟩
  · rw [giveUp_eq, hanswer] at hm
    exact ⟨hv, by rw [hm]; rfl, by rw [hm]; rfl⟩

/-- Callers that wait at a closed limiter would all learn something by looking. -/
theorem waiting_of_quiescent (h : d.Shut) (hq : d.Quiescent) : d.waiting = [] := by
  rw [List.eq_nil_iff_forall_not_mem]
  intro v hv
  have hrefused := (h.consult hv (.inl rfl)).1
  rw [hq v hv] at hrefused
  cases hrefused

end Shut

/-- A request fails and leaves everything else as it is. -/
structure Rejects (d : Desk) (m : Move) (name : String) (cause : Failure) : Prop where
  told : (d.move m).notes = d.notes ++ [⟨d.now.millis, name, .failed cause⟩]
  pools : ∀ key, (d.move m).limiter.pool? key = d.limiter.pool? key
  waiting : (d.move m).waiting = d.waiting
  holders : (d.move m).holders = d.holders

/-- A slot comes back to its pool when its holder gives it up. -/
structure Returns (d : Desk) (held : Holder) : Prop where
  gone : (d.move (.release held)).holders = d.holders.erase held
  free : ∃ n, d.limiter.available held.key = some n ∧
    (d.move (.release held)).limiter.available held.key = some (n + 1)
  elsewhere : ∀ key, key ≠ held.key →
    (d.move (.release held)).limiter.available key = d.limiter.available key

theorem Shut.rejects (h : d.Shut) {name key : String} (hm : m.request? = some (name, key)) :
    d.Rejects m name (closedCause d.limiter key) := by
  cases h.aftermath m with
  | idle hnone => rw [hnone] at hm; cases hm
  | refused hm' hpools hwaiting hholders hnotes =>
      rw [hm] at hm'
      cases hm'
      exact ⟨hnotes, hpools, hwaiting, hholders⟩
  | failed hm' => rcases hm' with rfl | rfl <;> cases hm
  | aborted hm' | released hm' => rw [hm'] at hm; cases hm

theorem Shut.returns (h : d.Shut) {held : Holder} (hheld : held ∈ d.holders) :
    d.Returns held := by
  have hon : held ∈ d.heldOn held.key := List.mem_filter.mpr ⟨hheld, by simp⟩
  -- Someone holds a slot of this key, so the key has a pool, and the pool knows of the holder.
  obtain ⟨p, hp⟩ : ∃ p, d.limiter.pool? held.key = some p := by
    rw [← Option.ne_none_iff_exists']
    intro hnone
    rw [((h.sound held.key).homed hnone).2] at hon
    cases hon
  have hticket : held.ticket ∈ p.held :=
    ((h.sound held.key).fits hp).holds.mem_iff.mpr (List.mem_map_of_mem hon)
  have hmove : d.move (.release held) = { d with
      holders := d.holders.erase held
      limiter := d.limiter.release held.key held.ticket } := if_pos hheld
  have hpool (key : String) := Limiter.pool?_modifyPool d.limiter held.key key
    (Pool.release held.ticket)
  constructor
  · rw [hmove]
  · refine ⟨p.free, ?_, ?_⟩
    · rw [Limiter.available, hp, Option.map_some]
    · rw [hmove, Limiter.available, Limiter.release, hpool, if_pos rfl, hp, Option.map_some,
        Option.map_some, Pool.release_of_closed (h.pool hp) hticket]
  · intro key hkey
    rw [hmove, Limiter.available, Limiter.release, hpool, if_neg hkey, Limiter.available]

/-- What is promised of a limiter that is closed at some moment, whatever happens later. No pool is
made any more, and none is lost. Who waited when the limiter was closed fails when it looks or when
its wait runs out, unless it goes away; nobody else waits, and once everyone has looked, nobody
does. Every request fails at once, in whichever way it asks, and callers are told of nothing but the
closed limiter. Nobody gets a slot, who holds one keeps it until it gives it back, and once everyone
has looked, every slot that is not held is free. -/
structure ClosedForGood (d : Desk) (later : List Move) (after : Desk) : Prop where
  closed : after.limiter.closed = true
  pools : ∀ key, (after.limiter.available key).isSome = (d.limiter.available key).isSome
  waiters : ∀ v ∈ d.waiting, v ∈ after.waiting ∨ .abort v ∈ later ∨
    ∃ front m back, later = front ++ m :: back ∧
      ((d.move .close).play front).Ends m v (.failed (poolClosed v.key))
  looks : ∀ v ∈ after.waiting,
    v ∈ d.waiting ∧ after.Ends (.look v) v (.failed (poolClosed v.key))
  expires : ∀ v ∈ after.waiting, due after.now v = true →
    after.Ends (.giveUp v) v (.failed (poolClosed v.key))
  rest : after.Quiescent → after.waiting = []
  rejects : ∀ {m : Move} {name key : String}, m.request? = some (name, key) →
    after.Rejects m name (closedCause after.limiter key)
  told : ∃ news, after.notes = d.notes ++ news ∧ ∀ n ∈ news,
    ∃ key, n.what = .failed (poolClosed key) ∨ n.what = .failed (limiterClosed key)
  holders : after.holders.Sublist d.holders
  kept : ∀ held ∈ d.holders, held ∈ after.holders ∨ .release held ∈ later
  returns : ∀ held ∈ after.holders, after.Returns held
  slots : after.Quiescent → ∀ {key p}, d.limiter.pool? key = some p →
    ∃ n, after.limiter.available key = some n ∧
      n + (after.heldOn key).length = p.capacity

theorem available_isSome_close (d : Desk) (key : String) :
    ((d.move .close).limiter.available key).isSome = (d.limiter.available key).isSome := by
  have hclose : (d.move .close).limiter.pool? key = (d.limiter.pool? key).map Pool.close :=
    Limiter.pool?_close d.limiter key
  rw [Limiter.available, hclose, Limiter.available]
  simp only [Option.isSome_map]

theorem play_closedForGood (defaultCapacity : Nat) (named : List (String × Nat))
    (moves later : List Move) :
    let d := (opening defaultCapacity named).play moves
    ClosedForGood d later ((d.move .close).play later) := by
  have hsound := (sound_opening defaultCapacity named).play moves
  have hnumbered := (numbered_opening defaultCapacity named).play moves
  intro d
  have hstart : (d.move .close).Shut :=
    ⟨hsound.moved (moved d .close), hnumbered.moved (moved d .close), rfl⟩
  have hshut := hstart.play later
  constructor
  · exact hshut.closed
  · intro key
    exact (hstart.available_isSome key later).trans (available_isSome_close d key)
  · intro v hv
    exact hstart.waits later hv
  · intro v hv
    refine ⟨(hstart.waiting_sublist later).subset hv, ?_⟩
    exact hshut.ends_of_consulted hv (.inl (if_pos hv))
  · intro v hv hdue
    exact hshut.ends_of_consulted hv (.inr (move_giveUp hv hdue))
  · intro hq
    exact hshut.waiting_of_quiescent hq
  · intro m name key hm
    exact hshut.rejects hm
  · exact hstart.told later
  · exact hstart.holders_sublist later
  · intro held hheld
    exact hstart.holds later hheld
  · intro held hheld
    exact hshut.returns hheld
  · intro hq key p hp
    obtain ⟨q, hq', hcapacity⟩ := pool?_play_of_some (.close :: later) hp
    refine ⟨q.free, ?_, ?_⟩
    · exact congrArg (Option.map (·.free)) hq'
    · have hslots := hshut.sound.slots hq'
      rw [hshut.sound.handed_eq_nil hq hq', List.length_nil, Nat.add_zero] at hslots
      exact hslots.trans hcapacity

/-- A slot that was on its way to a waiting caller when the limiter was closed comes back, and one
that is held stays held. -/
example :
    ((opening 2 []).play [.acquire "first" "key" none, .acquire "second" "key" none,
      .acquire "third" "key" none, .release ⟨"second", 1, "key"⟩, .close,
      .look ⟨"third", 2, "key", none⟩]).limiter.available "key" = some 1 := by
  decide

end Desk

end AgentGateway.Admission
