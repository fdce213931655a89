import AgentGateway.Admission.Basic
import Mathlib.Data.List.Basic

/-!
# One pool at a time

Every operation of a limiter concerns the pool of one key, or all pools alike. Here is said what
an operation makes of the pool of each key (`Limiter.ask_cases` and its like), and that every
operation on a pool keeps its accounts (`Pool.Fits`): each slot is free, held, or handed over,
the requests that hold one and those that wait are the ones that the callers know of, and nobody
waits in line while a slot is free.
-/

namespace AgentGateway.Admission

namespace Answer

def queue (t : Ticket) (before : List Ticket) : Answer → List Ticket
  | .waiting => before ++ [t]
  | _ => before

def holders (t : Ticket) (before : List Ticket) : Answer → List Ticket
  | .granted => t :: before
  | _ => before

end Answer

namespace Pool

structure Fits (p : Pool) (waiting holders : List Ticket) : Prop where
  slots : p.free + p.held.length + p.handed.length = p.capacity
  busy : p.closed = false → p.line ≠ [] → p.free = 0
  waits : (p.handed ++ p.line).Perm waiting
  holds : p.held.Perm holders

theorem fits_ofCapacity (n : Nat) : (ofCapacity n).Fits [] [] where
  slots := by simp [ofCapacity]
  busy _ h := absurd rfl h
  waits := .refl _
  holds := .refl _

/-- What no operation on slots changes: the size of a pool, and whether it is closed. -/
def frame (p : Pool) : Nat × Bool := (p.capacity, p.closed)

@[simp] theorem frame_give (p : Pool) : p.give.frame = p.frame := by
  unfold give
  split <;> rfl

@[simp] theorem frame_enter (key : String) (t : Ticket) (p : Pool) :
    (p.enter key t).1.frame = p.frame := by
  unfold enter
  split_ifs <;> rfl

@[simp] theorem frame_tryEnter (key : String) (t : Ticket) (p : Pool) :
    (p.tryEnter key t).1.frame = p.frame := by
  unfold tryEnter
  split_ifs <;> rfl

@[simp] theorem frame_leave (t : Ticket) (p : Pool) : (p.leave t).frame = p.frame := by
  unfold leave
  split_ifs
  next => exact frame_give _
  next => rfl

@[simp] theorem frame_check (key : String) (t : Ticket) (p : Pool) :
    (p.check key t).1.frame = p.frame := by
  unfold check
  split_ifs
  next => exact frame_leave t p
  next => rfl
  next => rfl

@[simp] theorem frame_release (t : Ticket) (p : Pool) : (p.release t).frame = p.frame := by
  unfold release
  split_ifs
  next => exact frame_give _
  next => rfl

theorem check_eq_waiting {key : String} {t : Ticket} {p : Pool} :
    (p.check key t).2 = .waiting ↔ p.closed = false ∧ t ∉ p.handed := by
  unfold check
  split_ifs with hclosed hmem
  · simp [hclosed]
  · simp [hmem]
  · simpa [hmem] using hclosed

/-- At an open pool nobody is handed a slot because another one looks. -/
theorem handed_check {key : String} {p : Pool} (hopen : p.closed = false) (t : Ticket)
    {t' : Ticket} (h : t' ∈ (p.check key t).1.handed) : t' ∈ p.handed := by
  unfold check at h
  rw [if_neg (by simp [hopen])] at h
  split_ifs at h
  · exact List.mem_of_mem_erase h
  · exact h

theorem give_held (p : Pool) : p.give.held = p.held := by
  unfold give
  split <;> rfl

theorem give_slots (p : Pool) :
    p.give.free + p.give.handed.length = p.free + p.handed.length + 1 := by
  unfold give
  split
  next => simp only [List.length_append, List.length_singleton]; omega
  next => simp only; omega

theorem give_waits (p : Pool) : p.give.handed ++ p.give.line = p.handed ++ p.line := by
  unfold give
  split
  next t rest _ hline => simp [hline]
  next => rfl

theorem give_busy {p : Pool} (h : p.closed = false → p.line ≠ [] → p.free = 0)
    (hopen : p.give.closed = false) (hline : p.give.line ≠ []) : p.give.free = 0 := by
  have hclosed : p.closed = false := (congrArg Prod.snd (frame_give p)).symm.trans hopen
  unfold give at hline ⊢
  split
  next t rest _ heq => exact h hclosed (by simp [heq])
  next hno =>
    split at hline
    next t rest hc heq => exact (hno t rest hc heq).elim
    next =>
      cases heq : p.line with
      | nil => exact absurd heq hline
      | cons t rest => exact (hno t rest hclosed heq).elim

namespace Fits

variable {p : Pool} {W H : List Ticket}

theorem take (h : p.Fits W H) (t : Ticket) (hfree : 0 < p.free) :
    ({ p with free := p.free - 1, held := t :: p.held } : Pool).Fits W (t :: H) where
  slots := by
    have := h.slots
    simp only [List.length_cons]
    omega
  busy hopen hline := by
    have := h.busy hopen hline
    omega
  waits := h.waits
  holds := h.holds.cons t

theorem enter (h : p.Fits W H) (key : String) (t : Ticket) :
    (p.enter key t).1.Fits ((p.enter key t).2.queue t W) ((p.enter key t).2.holders t H) := by
  unfold Pool.enter
  split_ifs with hclosed hfree
  · exact h
  · exact h.take t hfree
  · refine ⟨h.slots, fun _ _ => Nat.eq_zero_of_not_pos hfree, ?_, h.holds⟩
    simpa [Answer.queue] using h.waits.append_right [t]

theorem tryEnter (h : p.Fits W H) (key : String) (t : Ticket) :
    (p.tryEnter key t).1.Fits ((p.tryEnter key t).2.queue t W)
      ((p.tryEnter key t).2.holders t H) := by
  unfold Pool.tryEnter
  split_ifs with hclosed hfree
  · exact h
  · exact h.take t hfree
  · exact h

/-- A slot that comes back is free, or goes to the first in line. -/
theorem give {held : List Ticket}
    (hslots : p.free + p.held.length + p.handed.length + 1 = p.capacity)
    (hbusy : p.closed = false → p.line ≠ [] → p.free = 0)
    (hwaits : (p.handed ++ p.line).Perm W) (hholds : p.held.Perm held) : p.give.Fits W held where
  slots := by
    have hgive := p.give_slots
    have hcapacity : p.give.capacity = p.capacity := congrArg Prod.fst (frame_give p)
    rw [give_held, hcapacity]
    omega
  busy := give_busy hbusy
  waits := by rwa [give_waits]
  holds := by rwa [give_held]

theorem leave {t : Ticket} (h : p.Fits W H) {rest : List Ticket} (hrest : W.Perm (t :: rest)) :
    (p.leave t).Fits rest H := by
  have hwaits : ((p.handed ++ p.line).erase t).Perm rest := by
    simpa using (h.waits.trans hrest).erase t
  unfold Pool.leave
  split_ifs with hmem
  · rw [List.erase_append_left _ hmem] at hwaits
    refine give ?_ h.busy hwaits h.holds
    have hlen := List.length_erase_of_mem hmem
    have hpos := List.length_pos_of_mem hmem
    have hslots := h.slots
    simp only
    omega
  · rw [List.erase_append_right _ hmem] at hwaits
    exact ⟨h.slots, fun hopen hline => h.busy hopen fun hnil => hline (by simp [hnil]), hwaits,
      h.holds⟩

/-- A request that looks counts as waiting only if it still does afterwards. -/
theorem check {t : Ticket} (h : p.Fits W H) {rest : List Ticket} (hrest : W.Perm (t :: rest))
    (key : String) :
    (p.check key t).1.Fits ((p.check key t).2.queue t rest)
      ((p.check key t).2.holders t H) := by
  unfold Pool.check
  split_ifs with hclosed hmem
  · exact h.leave hrest
  · have hwaits := (h.waits.trans hrest).erase t
    rw [List.erase_append_left _ hmem, List.erase_cons_head] at hwaits
    refine ⟨?_, h.busy, hwaits, h.holds.cons t⟩
    have hlen := List.length_erase_of_mem hmem
    have hpos := List.length_pos_of_mem hmem
    have hslots := h.slots
    simp only [List.length_cons]
    omega
  · exact ⟨h.slots, h.busy, h.waits.trans (hrest.trans (List.perm_append_singleton t rest).symm),
      h.holds⟩

theorem release {t : Ticket} (h : p.Fits W H) {rest : List Ticket} (hrest : H.Perm (t :: rest)) :
    (p.release t).Fits W rest := by
  have hmem : t ∈ p.held := (h.holds.trans hrest).mem_iff.mpr (by simp)
  have hholds : (p.held.erase t).Perm rest := by simpa using (h.holds.trans hrest).erase t
  unfold Pool.release
  rw [if_pos hmem]
  refine give ?_ h.busy h.waits hholds
  have hlen := List.length_erase_of_mem hmem
  have hpos := List.length_pos_of_mem hmem
  have hslots := h.slots
  simp only
  omega

theorem close (h : p.Fits W H) : p.close.Fits W H where
  slots := h.slots
  busy hopen := by simp [Pool.close] at hopen
  waits := h.waits
  holds := h.holds

end Fits

end Pool

namespace Limiter

/-- At most the pool of one key differs between two limiters. -/
structure Touches (key : String) (l l' : Limiter) : Prop where
  elsewhere : ∀ k, k ≠ key → l'.pool? k = l.pool? k
  closed : l'.closed = l.closed
  sizes : l'.sizeFor = l.sizeFor

theorem Touches.refl (key : String) (l : Limiter) : Touches key l l :=
  ⟨fun _ _ => rfl, rfl, rfl⟩

theorem lookup_cons_eq {α : Type} (e : String × α) (rest : List (String × α)) (k : String) :
    (e :: rest).lookup k = if k = e.1 then some e.2 else rest.lookup k := by
  rw [List.lookup_cons]
  by_cases hk : k = e.1
  · simp [hk]
  · simp [hk, beq_eq_false_iff_ne.mpr hk]

theorem pool?_modifyPool (l : Limiter) (key k : String) (f : Pool → Pool) :
    (l.modifyPool key f).pool? k = if k = key then (l.pool? k).map f else l.pool? k := by
  simp only [modifyPool, pool?]
  induction l.pools with
  | nil => simp
  | cons e rest ih =>
      simp only [List.map_cons, lookup_cons_eq, ih]
      by_cases he : e.1 = key
      · subst he
        by_cases hk : k = e.1 <;> simp [hk]
      · by_cases hk : k = e.1 <;> simp [hk, he]

theorem Touches.modifyPool {key : String} {l l' : Limiter} (h : Touches key l l')
    (f : Pool → Pool) : Touches key l (l'.modifyPool key f) where
  elsewhere k hk := by rw [pool?_modifyPool, if_neg hk, h.elsewhere k hk]
  closed := h.closed
  sizes := h.sizes

theorem pool?_modifyPool_self {l : Limiter} {key : String} {p : Pool} (h : l.pool? key = some p)
    (f : Pool → Pool) : (l.modifyPool key f).pool? key = some (f p) := by
  rw [pool?_modifyPool, if_pos rfl, h, Option.map_some]

theorem pool?_addPool (l : Limiter) (key k : String) (p : Pool) :
    (l.addPool key p).pool? k = (l.pool? k).or (if k = key then some p else none) := by
  rw [pool?, addPool, List.lookup_append, lookup_cons_eq]
  rfl

theorem pool?_close (l : Limiter) (key : String) :
    l.close.pool? key = (l.pool? key).map Pool.close := by
  simp only [close, pool?]
  induction l.pools with
  | nil => rfl
  | cons e rest ih =>
      simp only [List.map_cons, lookup_cons_eq, ih]
      split <;> rfl

/-- A request is answered by the pool of its key, which it may have to make; or it finds no pool
and makes none. -/
theorem ask_cases (enter : Pool → Pool × Answer) (key : String) (override : Option Nat)
    (l : Limiter) :
    (∃ p, (l.pool? key = some p ∨
          l.pool? key = none ∧ l.closed = false ∧ p = .ofCapacity (l.sizeFor key override)) ∧
        (l.ask enter key override).1.pool? key = some (enter p).1 ∧
        (l.ask enter key override).2 = (enter p).2) ∨
      l.pool? key = none ∧ (l.ask enter key override).1 = l ∧
        ((l.ask enter key override).2 = .refused (limiterClosed key) ∨
          (l.ask enter key override).2 = .impossible) := by
  cases hp : l.pool? key with
  | some p =>
      refine .inl ⟨p, .inl rfl, ?_⟩
      simp only [ask, hp]
      exact ⟨pool?_modifyPool_self hp fun _ => (enter p).1, trivial⟩
  | none =>
      simp only [ask, hp]
      split_ifs with hclosed hlarge
      · exact .inr ⟨trivial, rfl, .inl rfl⟩
      · exact .inr ⟨trivial, rfl, .inr rfl⟩
      · refine .inl ⟨_, .inr ⟨trivial, by simpa using hclosed, rfl⟩, ?_, rfl⟩
        rw [pool?_addPool, hp, if_pos rfl]
        rfl

theorem touches_ask (enter : Pool → Pool × Answer) (key : String) (override : Option Nat)
    (l : Limiter) : Touches key l (l.ask enter key override).1 := by
  cases hp : l.pool? key with
  | some p =>
      simp only [ask, hp]
      exact (Touches.refl key l).modifyPool fun _ => (enter p).1
  | none =>
      simp only [ask, hp]
      split_ifs
      · exact .refl key l
      · exact .refl key l
      · refine ⟨fun k hk => ?_, rfl, rfl⟩
        rw [pool?_addPool, if_neg hk, Option.or_none]

theorem touches_check (l : Limiter) (key : String) (t : Ticket) :
    Touches key l (l.check key t).1 := by
  unfold check
  split
  next p _ => exact (Touches.refl key l).modifyPool fun _ => (p.check key t).1
  next => exact .refl key l

theorem check_of_pool {l : Limiter} {key : String} {p : Pool} (h : l.pool? key = some p)
    (t : Ticket) :
    (l.check key t).1.pool? key = some (p.check key t).1 ∧
      (l.check key t).2 = (p.check key t).2 := by
  unfold check
  rw [h]
  exact ⟨pool?_modifyPool_self h fun _ => (p.check key t).1, rfl⟩

end Limiter

end AgentGateway.Admission
