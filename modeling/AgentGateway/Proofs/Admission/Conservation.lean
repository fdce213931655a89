import AgentGateway.Proofs.Admission.Operations

/-!
# No slot is lost or made

Whatever callers do at a limiter, in whatever order, each pool keeps the size that the call which
made it asked for, and its slots are accounted for: once everyone who waits has looked, each slot
is free or held by a caller, and nobody waits while one is free. What is done about one key leaves
all other keys alone.

The accounts of a key (`Desk.Accounts`) tie the pool of the key to the callers that wait for its
slots and to those that hold them; every move keeps the accounts of all keys (`Desk.Sound.moved`).
Between the hand-over of a slot and the moment at which its caller looks, the slot is counted as
handed over, so it makes no difference if the caller goes away in between.
-/

namespace AgentGateway.Admission

namespace Limiter

/-- Pools stay and keep their sizes, and a new one is of the size that the call wants which makes
it. -/
structure Grows (made : Option (String × Option Nat)) (l l' : Limiter) : Prop where
  kept : ∀ {key p}, l.pool? key = some p → ∃ q, l'.pool? key = some q ∧ q.capacity = p.capacity
  new : ∀ {key q}, l.pool? key = none → l'.pool? key = some q →
    ∃ override, made = some (key, override) ∧ q.capacity = l.sizeFor key override
  sizes : l'.sizeFor = l.sizeFor

variable {made : Option (String × Option Nat)} {l l' : Limiter}

theorem Grows.refl (made : Option (String × Option Nat)) (l : Limiter) : Grows made l l where
  kept hp := ⟨_, hp, rfl⟩
  new hnone hq := by simp [hnone] at hq
  sizes := rfl

theorem Grows.modifyPool (h : Grows made l l') (key : String) {f : Pool → Pool}
    (hf : ∀ p, (f p).frame = p.frame) : Grows made l (l'.modifyPool key f) where
  kept {k p} hp := by
    obtain ⟨q, hq, hcapacity⟩ := h.kept hp
    rw [pool?_modifyPool, hq]
    split_ifs
    · exact ⟨f q, rfl, (congrArg Prod.fst (hf q)).trans hcapacity⟩
    · exact ⟨q, rfl, hcapacity⟩
  new {k q} hnone hq := by
    rw [pool?_modifyPool] at hq
    split_ifs at hq
    · obtain ⟨p, hp, rfl⟩ := Option.map_eq_some_iff.mp hq
      obtain ⟨override, hmade, hcapacity⟩ := h.new hnone hp
      exact ⟨override, hmade, (congrArg Prod.fst (hf p)).trans hcapacity⟩
    · exact h.new hnone hq
  sizes := h.sizes

theorem grows_ask {enter : Pool → Pool × Answer} (henter : ∀ p, (enter p).1.frame = p.frame)
    (key : String) (override : Option Nat) (l : Limiter) :
    Grows (some (key, override)) l (l.ask enter key override).1 where
  kept {k p} hp := by
    by_cases hk : k = key
    · subst hk
      obtain ⟨q, hq | ⟨hnone, -⟩, hafter, -⟩ | ⟨hnone, -⟩ := ask_cases enter k override l
      · obtain rfl := Option.some.inj (hp.symm.trans hq)
        exact ⟨_, hafter, congrArg Prod.fst (henter p)⟩
      · simp [hnone] at hp
      · simp [hnone] at hp
    · rw [(touches_ask enter key override l).elsewhere k hk]
      exact ⟨p, hp, rfl⟩
  new {k q} hnone hq := by
    by_cases hk : k = key
    · subst hk
      obtain ⟨p, hp | ⟨-, -, rfl⟩, hafter, -⟩ | ⟨-, hsame, -⟩ := ask_cases enter k override l
      · simp [hnone] at hp
      · obtain rfl := Option.some.inj (hafter.symm.trans hq)
        exact ⟨override, rfl, congrArg Prod.fst (henter _)⟩
      · rw [hsame, hnone] at hq
        cases hq
    · rw [(touches_ask enter key override l).elsewhere k hk, hnone] at hq
      cases hq
  sizes := (touches_ask enter key override l).sizes

theorem grows_check (made : Option (String × Option Nat)) (l : Limiter) (key : String)
    (t : Ticket) : Grows made l (l.check key t).1 := by
  cases hp : l.pool? key with
  | none =>
      simp only [check, hp]
      exact .refl made l
  | some p =>
      refine ⟨fun {k q} hq => ?_, fun {k q} hnone hq => ?_, (touches_check l key t).sizes⟩
      · by_cases hk : k = key
        · subst hk
          obtain rfl := Option.some.inj (hp.symm.trans hq)
          exact ⟨_, (check_of_pool hp t).1, congrArg Prod.fst (Pool.frame_check k t p)⟩
        · rw [(touches_check l key t).elsewhere k hk]
          exact ⟨q, hq, rfl⟩
      · by_cases hk : k = key
        · subst hk
          simp [hp] at hnone
        · rw [(touches_check l key t).elsewhere k hk, hnone] at hq
          cases hq

theorem grows_close (made : Option (String × Option Nat)) (l : Limiter) : Grows made l l.close where
  kept hp := by
    rw [pool?_close, hp]
    exact ⟨_, rfl, rfl⟩
  new hnone hq := by simp [pool?_close, hnone] at hq
  sizes := rfl

end Limiter

namespace Desk

theorem Moved.grows {d d' : Desk} {m : Move} (hm : Moved d m d') :
    d.limiter.Grows m.opens? d'.limiter := by
  cases hm with
  | idle => exact .refl _ _
  | prepared key override => exact Limiter.grows_ask (fun _ => rfl) key override d.limiter
  | enrolled v override _ _ hopens henter =>
      rw [hopens, enroll, settle_limiter]
      obtain rfl | rfl := henter
      · exact Limiter.grows_ask (Pool.frame_enter _ _) v.key override d.limiter
      · exact Limiter.grows_ask (Pool.frame_tryEnter _ _) v.key override d.limiter
  | looked v =>
      rw [look, consult, settle_limiter]
      exact Limiter.grows_check _ _ _ _
  | gaveUp v wait =>
      have hcheck := Limiter.grows_check (Move.giveUp v).opens? d.limiter v.key v.ticket
      rw [giveUp_eq]
      split
      next =>
        rw [settle_limiter]
        exact hcheck.modifyPool v.key (Pool.frame_leave v.ticket)
      next =>
        rw [settle_limiter]
        exact hcheck
  | aborted v => exact (Limiter.Grows.refl _ _).modifyPool v.key (Pool.frame_leave v.ticket)
  | released h => exact (Limiter.Grows.refl _ _).modifyPool h.key (Pool.frame_release h.ticket)
  | closed => exact Limiter.grows_close _ _
  | elapsed => exact .refl _ _

/-- The accounts of one key: its pool agrees with the callers, and there are none of a key
without a pool. -/
structure Accounts (d : Desk) (key : String) : Prop where
  fits : ∀ {p}, d.limiter.pool? key = some p →
    p.Fits ((d.waitingOn key).map (·.ticket)) ((d.heldOn key).map (·.ticket))
  shut : ∀ {p}, d.limiter.pool? key = some p → p.closed = d.limiter.closed
  homed : d.limiter.pool? key = none → d.waitingOn key = [] ∧ d.heldOn key = []

def Sound (d : Desk) : Prop := ∀ key, d.Accounts key

theorem sound_opening (defaultCapacity : Nat) (named : List (String × Nat)) :
    (opening defaultCapacity named).Sound :=
  fun _ => ⟨fun h => by simp [opening, Limiter.pool?] at h,
    fun h => by simp [opening, Limiter.pool?] at h, fun _ => ⟨rfl, rfl⟩⟩

theorem Sound.of_apart {d d' : Desk} {key : String} (h : d.Sound) (ha : Apart key d d')
    (hkey : d'.Accounts key) : d'.Sound := by
  intro k
  by_cases hk : k = key
  · rwa [hk]
  · -- Pool and callers of another key are those of before, and so are its accounts.
    have hpool := ha.pools.elsewhere k hk
    refine ⟨fun hp => ?_, fun hp => ?_, fun hp => ?_⟩
    · rw [ha.waiting k hk, ha.holders k hk]
      exact (h k).fits (hpool ▸ hp)
    · rw [ha.pools.closed]
      exact (h k).shut (hpool ▸ hp)
    · rw [ha.waiting k hk, ha.holders k hk]
      exact (h k).homed (hpool ▸ hp)

/-- The accounts of a key after an answer to a request, from those of the pool that gave it. -/
theorem Accounts.settle {d : Desk} {v : Visit} {a : Answer}
    (hfits : ∀ {p}, d.limiter.pool? v.key = some p →
      p.Fits (a.queue v.ticket ((d.waitingOn v.key).map (·.ticket)))
        (a.holders v.ticket ((d.heldOn v.key).map (·.ticket))))
    (hshut : ∀ {p}, d.limiter.pool? v.key = some p → p.closed = d.limiter.closed)
    (hhomed : d.limiter.pool? v.key = none →
      a.queue v.ticket ((d.waitingOn v.key).map (·.ticket)) = [] ∧
        a.holders v.ticket ((d.heldOn v.key).map (·.ticket)) = []) :
    (d.settle v a).Accounts v.key := by
  refine ⟨fun hp => ?_, fun hp => ?_, fun hp => ?_⟩
  · rw [waitingOn_settle, heldOn_settle]
    exact hfits (by rwa [settle_limiter] at hp)
  · rw [settle_limiter] at hp ⊢
    exact hshut hp
  · rw [settle_limiter] at hp
    rw [← List.map_eq_nil_iff, ← List.map_eq_nil_iff (l := (d.settle v a).heldOn v.key),
      waitingOn_settle, heldOn_settle]
    exact hhomed hp

/-- A pool that is asked keeps the accounts, provided that it does when it is there. -/
theorem Accounts.ask {d : Desk} {key : String} (h : d.Accounts key)
    {enter : Pool → Pool × Answer} (henter : ∀ p, (enter p).1.frame = p.frame)
    (override : Option Nat) {p : Pool}
    (hp : (d.limiter.ask enter key override).1.pool? key = some p) :
    (∃ q, q.Fits ((d.waitingOn key).map (·.ticket)) ((d.heldOn key).map (·.ticket)) ∧
      p = (enter q).1 ∧ (d.limiter.ask enter key override).2 = (enter q).2) ∧
      p.closed = (d.limiter.ask enter key override).1.closed := by
  rw [(Limiter.touches_ask enter key override d.limiter).closed]
  obtain ⟨q, hq, hafter, hanswer⟩ | ⟨hnone, hsame, -⟩ :=
    Limiter.ask_cases enter key override d.limiter
  · obtain rfl := Option.some.inj (hafter.symm.trans hp)
    have hclosed : (enter q).1.closed = q.closed := congrArg Prod.snd (henter q)
    obtain hq | ⟨hnone, hopen, rfl⟩ := hq
    · exact ⟨⟨q, h.fits hq, rfl, hanswer⟩, hclosed.trans (h.shut hq)⟩
    · obtain ⟨hw, hh⟩ := h.homed hnone
      refine ⟨⟨_, ?_, rfl, hanswer⟩, hclosed.trans hopen.symm⟩
      rw [hw, hh]
      exact Pool.fits_ofCapacity _
  · rw [hsame, hnone] at hp
    cases hp

/-- A key that has no pool after it was asked has answered with a refusal. -/
theorem Accounts.ask_none {d : Desk} {key : String} (h : d.Accounts key)
    {enter : Pool → Pool × Answer} {override : Option Nat} (t : Ticket)
    (hp : (d.limiter.ask enter key override).1.pool? key = none) :
    (d.limiter.ask enter key override).2.queue t ((d.waitingOn key).map (·.ticket)) = [] ∧
      (d.limiter.ask enter key override).2.holders t ((d.heldOn key).map (·.ticket)) = [] := by
  obtain ⟨q, -, hafter, -⟩ | ⟨hnone, -, hanswer⟩ :=
    Limiter.ask_cases enter key override d.limiter
  · rw [hafter] at hp
    cases hp
  · obtain ⟨hw, hh⟩ := h.homed hnone
    obtain hanswer | hanswer := hanswer <;>
      simp [hanswer, hw, hh, Answer.queue, Answer.holders]

theorem Accounts.enroll {d : Desk} {v : Visit} (h : d.Accounts v.key)
    {enter : Pool → Pool × Answer} (henter : ∀ p, (enter p).1.frame = p.frame)
    (hfits : ∀ {p W H}, p.Fits W H →
      (enter p).1.Fits ((enter p).2.queue v.ticket W) ((enter p).2.holders v.ticket H))
    (override : Option Nat) : (d.enroll enter override v).Accounts v.key := by
  refine Accounts.settle (fun hp => ?_) (fun hp => (h.ask henter override hp).2)
    fun hp => h.ask_none v.ticket hp
  obtain ⟨⟨q, hq, rfl, hanswer⟩, -⟩ := h.ask henter override hp
  rw [hanswer]
  exact hfits hq

theorem Accounts.prepare {d : Desk} {key : String} (h : d.Accounts key)
    (override : Option Nat) : (d.move (.prepare key override)).Accounts key := by
  refine ⟨fun hp => ?_, fun hp => (h.ask (fun _ => rfl) override hp).2, fun hp => ?_⟩
  · obtain ⟨⟨q, hq, rfl, -⟩, -⟩ := h.ask (fun _ => rfl) override hp
    exact hq
  · obtain ⟨q, -, hafter, -⟩ | ⟨hnone, -, -⟩ :=
      Limiter.ask_cases (fun p => (p, .waiting)) key override d.limiter
    · exact absurd (hafter.symm.trans hp) (by simp)
    · exact h.homed hnone

theorem Accounts.pool_of_waiting {d : Desk} {v : Visit} (h : d.Accounts v.key)
    (hv : v ∈ d.waiting) : ∃ p, d.limiter.pool? v.key = some p := by
  cases hp : d.limiter.pool? v.key with
  | some p => exact ⟨p, rfl⟩
  | none =>
      have hmem : v ∈ d.waitingOn v.key := List.mem_filter.mpr ⟨hv, by simp⟩
      rw [(h.homed hp).1] at hmem
      cases hmem

theorem Accounts.look {d : Desk} {v : Visit} (h : d.Accounts v.key) (hv : v ∈ d.waiting) :
    (d.look v).Accounts v.key := by
  obtain ⟨p, hp⟩ := h.pool_of_waiting hv
  obtain ⟨hafter, hanswer⟩ :
      ((d.dismiss v).limiter.check v.key v.ticket).1.pool? v.key = _ ∧
        ((d.dismiss v).limiter.check v.key v.ticket).2 = _ := Limiter.check_of_pool hp v.ticket
  refine Accounts.settle (fun hq => ?_) (fun hq => ?_) fun hnone => ?_
  · obtain rfl := Option.some.inj (hafter.symm.trans hq)
    rw [hanswer]
    exact (h.fits hp).check (waitingOn_perm hv) v.key
  · obtain rfl := Option.some.inj (hafter.symm.trans hq)
    have hclosed : (p.check v.key v.ticket).1.closed = p.closed :=
      congrArg Prod.snd (Pool.frame_check v.key v.ticket p)
    exact (hclosed.trans (h.shut hp)).trans
      (Limiter.touches_check d.limiter v.key v.ticket).closed.symm
  · exact absurd (hafter.symm.trans hnone) (by simp)

/-- A caller that goes away leaves its place, or hands on the slot that it was handed. -/
theorem Accounts.leave {d : Desk} {v : Visit} (h : d.Accounts v.key) (hv : v ∈ d.waiting) :
    ({ d.dismiss v with limiter := d.limiter.leave v.key v.ticket } : Desk).Accounts v.key := by
  obtain ⟨p, hp⟩ := h.pool_of_waiting hv
  have hafter : (d.limiter.leave v.key v.ticket).pool? v.key = some (p.leave v.ticket) :=
    Limiter.pool?_modifyPool_self hp _
  refine ⟨fun hq => ?_, fun hq => ?_, fun hnone => ?_⟩
  · obtain rfl := Option.some.inj (hafter.symm.trans hq)
    exact (h.fits hp).leave (waitingOn_perm hv)
  · obtain rfl := Option.some.inj (hafter.symm.trans hq)
    exact (congrArg Prod.snd (Pool.frame_leave v.ticket p)).trans (h.shut hp)
  · exact absurd (hafter.symm.trans hnone) (by simp)

theorem Accounts.release {d : Desk} {held : Holder} (h : d.Accounts held.key)
    (hmem : held ∈ d.holders) :
    ({ d with
      holders := d.holders.erase held
      limiter := d.limiter.release held.key held.ticket } : Desk).Accounts held.key := by
  cases hp : d.limiter.pool? held.key with
  | none =>
      have hheld : held ∈ d.heldOn held.key := List.mem_filter.mpr ⟨hmem, by simp⟩
      rw [(h.homed hp).2] at hheld
      cases hheld
  | some p =>
      have hafter : (d.limiter.release held.key held.ticket).pool? held.key =
          some (p.release held.ticket) := Limiter.pool?_modifyPool_self hp _
      refine ⟨fun hq => ?_, fun hq => ?_, fun hnone => ?_⟩
      · obtain rfl := Option.some.inj (hafter.symm.trans hq)
        exact (h.fits hp).release (heldOn_perm hmem)
      · obtain rfl := Option.some.inj (hafter.symm.trans hq)
        exact (congrArg Prod.snd (Pool.frame_release held.ticket p)).trans (h.shut hp)
      · exact absurd (hafter.symm.trans hnone) (by simp)

/-- A caller whose wait has run out looks once more, and leaves if there is nothing. -/
theorem Accounts.giveUp {d : Desk} {v : Visit} (h : d.Accounts v.key) (hv : v ∈ d.waiting)
    (wait : Duration) : ((d.dismiss v).giveUp v wait).Accounts v.key := by
  rw [giveUp_eq]
  split
  next heq =>
    obtain ⟨p, hp⟩ := h.pool_of_waiting hv
    obtain ⟨hchecked, hanswer⟩ := Limiter.check_of_pool hp v.ticket
    have hwaits : (p.check v.key v.ticket).2 = .waiting := hanswer.symm.trans heq
    have hafter : ((d.limiter.check v.key v.ticket).1.leave v.key v.ticket).pool? v.key =
        some ((p.check v.key v.ticket).1.leave v.ticket) :=
      Limiter.pool?_modifyPool_self hchecked _
    have hfits := (h.fits hp).check (waitingOn_perm hv) v.key
    rw [hwaits] at hfits
    refine Accounts.settle (fun hq => ?_) (fun hq => ?_) fun hnone => ?_
    · obtain rfl := Option.some.inj (hafter.symm.trans hq)
      exact hfits.leave (List.perm_append_singleton v.ticket _)
    · obtain rfl := Option.some.inj (hafter.symm.trans hq)
      have hframe := (Pool.frame_leave v.ticket _).trans (Pool.frame_check v.key v.ticket p)
      exact ((congrArg Prod.snd hframe).trans (h.shut hp)).trans
        (Limiter.touches_check d.limiter v.key v.ticket).closed.symm
    · exact absurd (hafter.symm.trans hnone) (by simp)
  next => exact h.look hv

theorem Sound.moved {d d' : Desk} (h : d.Sound) {m : Move} (hm : Moved d m d') : d'.Sound := by
  have hkeyed {key : String} (hkey : m.key? = some key) (haccounts : d'.Accounts key) :
      d'.Sound := h.of_apart (hm.apart hkey) haccounts
  cases hm with
  | idle => exact h
  | prepared key override => exact hkeyed rfl ((h key).prepare override)
  | enrolled v override _ hkey _ henter =>
      obtain rfl | rfl := henter
      · exact hkeyed hkey
          ((h v.key).enroll (Pool.frame_enter _ _) (fun hf => hf.enter _ _) override)
      · exact hkeyed hkey
          ((h v.key).enroll (Pool.frame_tryEnter _ _) (fun hf => hf.tryEnter _ _) override)
  | looked v hv => exact hkeyed rfl ((h v.key).look hv)
  | gaveUp v wait hv => exact hkeyed rfl ((h v.key).giveUp hv wait)
  | aborted v hv => exact hkeyed rfl ((h v.key).leave hv)
  | released held hheld => exact hkeyed rfl ((h held.key).release hheld)
  | closed =>
      intro key
      refine ⟨fun hp => ?_, fun hp => ?_, fun hp => ?_⟩
      · obtain ⟨p, hbefore, rfl⟩ :=
          Option.map_eq_some_iff.mp ((Limiter.pool?_close _ key).symm.trans hp)
        exact ((h key).fits hbefore).close
      · obtain ⟨p, -, rfl⟩ := Option.map_eq_some_iff.mp ((Limiter.pool?_close _ key).symm.trans hp)
        rfl
      · exact (h key).homed
          (Option.map_eq_none_iff.mp ((Limiter.pool?_close _ key).symm.trans hp))
  | elapsed => exact fun key => ⟨(h key).fits, (h key).shut, (h key).homed⟩

theorem Sound.play {d : Desk} (h : d.Sound) (moves : List Move) : (d.play moves).Sound := by
  induction moves generalizing d with
  | nil => exact h
  | cons m moves ih => exact ih (h.moved (d.moved m))

/-- When nobody would learn anything by looking, no slot is on its way to a caller. -/
theorem Sound.handed_eq_nil {d : Desk} (h : d.Sound) (hq : d.Quiescent) {key : String} {p : Pool}
    (hp : d.limiter.pool? key = some p) : p.handed = [] := by
  rw [List.eq_nil_iff_forall_not_mem]
  intro t ht
  have hmem := ((h key).fits hp).waits.mem_iff.mp (List.mem_append_left p.line ht)
  obtain ⟨v, hv, rfl⟩ := List.mem_map.mp hmem
  obtain ⟨hwaiting, hkey⟩ := List.mem_filter.mp hv
  obtain rfl : v.key = key := by simpa using hkey
  have hwaits := (Limiter.check_of_pool hp v.ticket).2.symm.trans (hq v hwaiting)
  exact (Pool.check_eq_waiting.mp hwaits).2 ht

theorem Sound.slots {d : Desk} (h : d.Sound) {key : String} {p : Pool}
    (hp : d.limiter.pool? key = some p) :
    p.free + (d.heldOn key).length + p.handed.length = p.capacity := by
  have hfits := (h key).fits hp
  have hlen := hfits.holds.length_eq
  rw [List.length_map] at hlen
  rw [← hlen]
  exact hfits.slots

/-- Whoever goes on waiting after a look is in line, and all slots are taken. -/
theorem Sound.available_of_waiting {d : Desk} (h : d.Sound) {v : Visit} (hv : v ∈ d.waiting)
    (hwaits : (d.limiter.check v.key v.ticket).2 = .waiting) :
    d.limiter.available v.key = some 0 := by
  obtain ⟨p, hp⟩ := (h v.key).pool_of_waiting hv
  have hfits := (h v.key).fits hp
  -- It has not been handed a slot, so it stands in the line of its pool.
  obtain ⟨hopen, hnot⟩ :=
    Pool.check_eq_waiting.mp ((Limiter.check_of_pool hp v.ticket).2.symm.trans hwaits)
  have hmem : v.ticket ∈ p.handed ++ p.line :=
    hfits.waits.mem_iff.mpr (List.mem_map_of_mem (List.mem_filter.mpr ⟨hv, by simp⟩))
  have hline : v.ticket ∈ p.line := (List.mem_append.mp hmem).resolve_left hnot
  rw [Limiter.available, hp, Option.map_some, hfits.busy hopen (List.ne_nil_of_mem hline)]

theorem pool?_play_of_some {d : Desk} (moves : List Move) {key : String} {p : Pool}
    (hp : d.limiter.pool? key = some p) :
    ∃ q, (d.play moves).limiter.pool? key = some q ∧ q.capacity = p.capacity := by
  induction moves generalizing d p with
  | nil => exact ⟨p, hp, rfl⟩
  | cons m moves ih =>
      obtain ⟨q, hq, hcapacity⟩ := (d.moved m).grows.kept hp
      obtain ⟨r, hr, hsame⟩ := ih hq
      exact ⟨r, hr, hsame.trans hcapacity⟩

/-- A call among the moves makes the pool of a key, and the pool is of the size that this call
asks for. -/
structure MadeBy (d : Desk) (moves : List Move) (key : String) (p : Pool) (before : List Move)
    (m : Move) (after : List Move) (override : Option Nat) : Prop where
  split : moves = before ++ m :: after
  absent : (d.play before).limiter.pool? key = none
  present : ((d.play before).move m).limiter.pool? key ≠ none
  opens : m.opens? = some (key, override)
  size : p.capacity = d.limiter.sizeFor key override

theorem pool?_play_of_none {d : Desk} (moves : List Move) {key : String} {p : Pool}
    (hnone : d.limiter.pool? key = none) (hp : (d.play moves).limiter.pool? key = some p) :
    ∃ before m after override, MadeBy d moves key p before m after override := by
  induction moves generalizing d with
  | nil => exact absurd (hnone.symm.trans hp) (by simp)
  | cons m moves ih =>
      -- Either the pool is there after the first move, which made it, or a later move does.
      have hgrows := (d.moved m).grows
      cases hnext : (d.move m).limiter.pool? key with
      | none =>
          obtain ⟨before, m', after, override, hmade⟩ := ih hnext hp
          exact ⟨m :: before, m', after, override, congrArg (m :: ·) hmade.split, hmade.absent,
            hmade.present, hmade.opens, hgrows.sizes ▸ hmade.size⟩
      | some q =>
          obtain ⟨override, hopens, hsize⟩ := hgrows.new hnone hnext
          obtain ⟨r, hr, hcapacity⟩ := pool?_play_of_some moves hnext
          obtain rfl := Option.some.inj (hr.symm.trans hp)
          exact ⟨[], m, moves, override, rfl, hnone, by simp [play, hnext], hopens,
            hcapacity.trans hsize⟩

/-- What is promised of a limiter with its callers, after any moves since nobody had used it. The
size of a pool is the one that the call which made it asked for, or else the one that is configured,
and at least one; no further moves change it. A slot is free, held, or on its way to a caller, and
nobody holds a slot of a key that has no pool, or waits for one. When nobody would learn anything by
looking, which is so once everyone has looked, a slot is free or held, and nobody goes on waiting
while a slot is free. A move about one key changes nothing about the others. -/
structure Conserved (defaultCapacity : Nat) (named : List (String × Nat)) (moves : List Move)
    (d : Desk) : Prop where
  sized : ∀ {key p}, d.limiter.pool? key = some p →
    ∃ before m after override,
      MadeBy (opening defaultCapacity named) moves key p before m after override ∧
        p.capacity = max (override.getD ((named.lookup key).getD defaultCapacity)) 1
  fixed : ∀ {key p}, d.limiter.pool? key = some p → ∀ more,
    ∃ q, (d.play more).limiter.pool? key = some q ∧ q.capacity = p.capacity
  slots : ∀ {key p}, d.limiter.pool? key = some p →
    p.free + (d.heldOn key).length + p.handed.length = p.capacity
  homed : ∀ {key}, d.limiter.pool? key = none → d.waitingOn key = [] ∧ d.heldOn key = []
  rest : d.Quiescent → ∀ {key p}, d.limiter.pool? key = some p →
    ∃ n, d.limiter.available key = some n ∧ n + (d.heldOn key).length = p.capacity
  rests : (d.play (d.waiting.map .look)).Quiescent
  waits : ∀ v ∈ d.waiting, (d.limiter.check v.key v.ticket).2 = .waiting →
    d.limiter.available v.key = some 0
  apart : ∀ {m : Move} {key}, m.key? = some key → Apart key d (d.move m)

theorem play_conserved (defaultCapacity : Nat) (named : List (String × Nat))
    (moves : List Move) :
    Conserved defaultCapacity named moves ((opening defaultCapacity named).play moves) := by
  have hsound := (sound_opening defaultCapacity named).play moves
  refine ⟨fun hp => ?_, fun hp more => pool?_play_of_some more hp, hsound.slots,
    fun hp => (hsound _).homed hp, fun hq _ _ hp => ?_, ?_,
    fun v hv hwaits => hsound.available_of_waiting hv hwaits, fun hm => (moved _ _).apart hm⟩
  · obtain ⟨before, m, after, override, hmade⟩ := pool?_play_of_none moves rfl hp
    exact ⟨before, m, after, override, hmade, hmade.size⟩
  · refine ⟨_, by rw [Limiter.available, hp, Option.map_some], ?_⟩
    simpa [hsound.handed_eq_nil hq hp] using hsound.slots hp
  · rw [← checkAll_eq_play]
    exact quiescent_checkAll _

/-- A slot handed to a caller that goes away before it looks is free again, and the pool is as
large as its first caller wanted. -/
example :
    ((opening 1 []).play [.acquire "first" "key" (some 2), .acquire "second" "key" (some 9),
      .acquire "third" "key" none, .release ⟨"first", 0, "key"⟩,
      .abort ⟨"third", 2, "key", none⟩]).limiter.available "key" = some 1 := by
  decide

end Desk

end AgentGateway.Admission
