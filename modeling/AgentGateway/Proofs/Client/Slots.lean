import AgentGateway.Proofs.Admission.Pool
import AgentGateway.Proofs.Client.Acts
import Mathlib.Algebra.Ring.Nat

/-!
# Whoever waits for a slot waits for another call

Each slot of the limiter that is not free is held by a call that is running, or was handed to one
that is about to notice (`Desk.SlotsAccounted`). For such a call something is due. So as soon as
nothing is due for anyone, nobody is waiting either: all calls are over.
-/

namespace AgentGateway

/-- Of things with different keys one is replaced and the others stay. -/
theorem perm_replace {α κ : Type} [DecidableEq κ] (key : α → κ) {l : List α} {x : α}
    (hdistinct : (l.map key).Nodup) (hx : ∃ y ∈ l, key y = key x) :
    (l.map fun y => if key y = key x then x else y).Perm
      (x :: l.filter fun y => key y != key x) := by
  induction l with
  | nil =>
      obtain ⟨y, hy, -⟩ := hx
      cases hy
  | cons z l ih =>
      obtain ⟨hz, hrest⟩ := List.nodup_cons.mp hdistinct
      obtain ⟨y, hy, hkey⟩ := hx
      by_cases heq : key z = key x
      · have hother : ∀ w ∈ l, key w ≠ key x := fun w hw h =>
          hz (List.mem_map.mpr ⟨w, hw, h.trans heq.symm⟩)
        have hsame : (l.map fun w => if key w = key x then x else w) = l := by
          refine (List.map_congr_left fun w hw => ?_).trans (List.map_id l)
          rw [if_neg (hother w hw)]
          rfl
        have hfilter : (l.filter fun w => key w != key x) = l :=
          List.filter_eq_self.mpr fun w hw => by simpa using hother w hw
        rw [List.map_cons, if_pos heq, hsame, List.filter_cons_of_neg (by simp [heq]), hfilter]
      · have hy : y ∈ l := by
          rcases List.mem_cons.mp hy with rfl | hy
          · exact absurd hkey heq
          · exact hy
        have hperm := ih hrest ⟨y, hy, hkey⟩
        rw [List.map_cons, if_neg heq, List.filter_cons_of_pos (by simpa using heq)]
        exact (hperm.cons z).trans (List.Perm.swap x z _)

theorem map_replace_self {α κ : Type} [DecidableEq κ] (key : α → κ) {l : List α} {x : α}
    (hdistinct : (l.map key).Nodup) (hx : x ∈ l) :
    (l.map fun y => if key y = key x then x else y) = l := by
  refine (List.map_congr_left fun y hy => ?_).trans (List.map_id l)
  split_ifs with h
  · exact (List.inj_on_of_nodup_map hdistinct hy hx h).symm
  · rfl

theorem perm_others_of_mem {α κ : Type} [DecidableEq κ] (key : α → κ) {l : List α} {x : α}
    (hdistinct : (l.map key).Nodup) (hx : x ∈ l) :
    l.Perm (x :: l.filter fun y => key y != key x) := by
  have hperm := perm_replace key hdistinct ⟨x, hx, rfl⟩
  rwa [map_replace_self key hdistinct hx] at hperm

theorem sum_replace {α κ : Type} [DecidableEq κ] (key : α → κ) (weight : α → Nat) {l : List α}
    {x y : α} (hdistinct : (l.map key).Nodup) (hy : y ∈ l) (hkey : key x = key y) :
    ((l.map fun z => if key z = key x then x else z).map weight).sum + weight y =
      (l.map weight).sum + weight x := by
  have hbefore := ((perm_others_of_mem key hdistinct hy).map weight).sum_nat
  have hafter := ((perm_replace key hdistinct ⟨y, hy, hkey.symm⟩).map weight).sum_nat
  rw [List.map_cons, List.sum_cons] at hbefore hafter
  rw [hafter, hbefore, hkey]
  omega

end AgentGateway

namespace AgentGateway.Client

open Admission (Answer Limiter Pool Ticket)
open Desk (isDecided)

/-! ## Guests -/

/-- A call as the limiter sees it: it has a slot of its key, or is still to get one. -/
structure Guest where
  ticket : Ticket
  key : String
  admitted : Bool

def Phase.isAdmitted : Phase → Bool
  | .waiting | .summoned => false
  | .executing .. | .pausing _ => true

def Call.guest (c : Call) : Guest := ⟨c.ticket, c.key, c.phase.isAdmitted⟩

/-- The tickets of the guests of a key that have a slot, or of those that have none. -/
def ticketsOf (guests : List Guest) (key : String) (admitted : Bool) : List Ticket :=
  (guests.filter fun g => g.key == key && g.admitted == admitted).map (·.ticket)

structure PoolsMatch (l : Limiter) (guests : List Guest) : Prop where
  fits : ∀ {key p}, l.pool? key = some p →
    p.Fits (ticketsOf guests key false) (ticketsOf guests key true)
  roomy : ∀ {key p}, l.pool? key = some p → 0 < p.capacity
  located : ∀ g ∈ guests, ∃ p, l.pool? g.key = some p

/-- The guests after one more has asked for a slot and got an answer. -/
def enrolled (t : Ticket) (key : String) (guests : List Guest) : Answer → List Guest
  | .granted => ⟨t, key, true⟩ :: guests
  | .waiting => ⟨t, key, false⟩ :: guests
  | .refused _ | .impossible => guests

section

variable {l l' : Limiter} {guests guests' : List Guest} {key : String} {t : Ticket}

theorem ticketsOf_cons (g : Guest) (guests : List Guest) (key : String) (admitted : Bool) :
    ticketsOf (g :: guests) key admitted =
      if g.key = key ∧ g.admitted = admitted then g.ticket :: ticketsOf guests key admitted
      else ticketsOf guests key admitted := by
  rw [ticketsOf, List.filter_cons]
  by_cases h : g.key = key ∧ g.admitted = admitted
  · simp [h, ticketsOf]
  · rw [if_neg h, if_neg (by simpa using h)]
    rfl

theorem mem_ticketsOf {admitted : Bool} :
    t ∈ ticketsOf guests key admitted ↔
      ∃ g ∈ guests, g.ticket = t ∧ g.key = key ∧ g.admitted = admitted := by
  simp only [ticketsOf, List.mem_map, List.mem_filter, Bool.and_eq_true, beq_iff_eq]
  constructor
  · rintro ⟨g, ⟨hg, hkey, hadmitted⟩, rfl⟩
    exact ⟨g, hg, rfl, hkey, hadmitted⟩
  · rintro ⟨g, hg, rfl, hkey, hadmitted⟩
    exact ⟨g, ⟨hg, hkey, hadmitted⟩, rfl⟩

theorem ticketsOf_perm (h : guests.Perm guests') (key : String) (admitted : Bool) :
    (ticketsOf guests key admitted).Perm (ticketsOf guests' key admitted) :=
  (h.filter _).map _

theorem ticketsOf_enrolled (t : Ticket) (key : String) (guests : List Guest) (a : Answer) :
    (ticketsOf (enrolled t key guests a) key false).Perm (a.queue t (ticketsOf guests key false)) ∧
      (ticketsOf (enrolled t key guests a) key true).Perm
        (a.holders t (ticketsOf guests key true)) := by
  cases a with
  | granted => simp [enrolled, ticketsOf_cons, Answer.queue, Answer.holders]
  | waiting =>
      simp only [enrolled, ticketsOf_cons, Answer.queue, Answer.holders]
      exact ⟨(List.perm_append_singleton _ _).symm, .refl _⟩
  | refused | impossible => exact ⟨.refl _, .refl _⟩

theorem ticketsOf_enrolled_of_ne {k : String} (hk : k ≠ key) (a : Answer) (admitted : Bool) :
    ticketsOf (enrolled t key guests a) k admitted = ticketsOf guests k admitted := by
  cases a <;> simp [enrolled, ticketsOf_cons, hk.symm]

theorem key_of_mem_enrolled {g : Guest} {a : Answer} (h : g ∈ enrolled t key guests a) :
    g ∈ guests ∨ g.key = key := by
  cases a with
  | granted | waiting =>
      rcases List.mem_cons.mp h with rfl | h
      · exact .inr rfl
      · exact .inl h
  | refused | impossible => exact .inl h

theorem fits_perm {p : Pool} {W W' H H' : List Ticket} (h : p.Fits W H) (hW : W'.Perm W)
    (hH : H'.Perm H) : p.Fits W' H' :=
  ⟨h.slots, h.busy, h.waits.trans hW.symm, h.holds.trans hH.symm⟩

namespace PoolsMatch

theorem perm (h : PoolsMatch l guests) (hperm : guests'.Perm guests) : PoolsMatch l guests' where
  fits hp := fits_perm (h.fits hp) (ticketsOf_perm hperm _ _) (ticketsOf_perm hperm _ _)
  roomy := h.roomy
  located g hg := h.located g (hperm.mem_iff.mp hg)

theorem ticketsOf_of_none (h : PoolsMatch l guests) (hnone : l.pool? key = none) (admitted : Bool) :
    ticketsOf guests key admitted = [] := by
  rw [List.eq_nil_iff_forall_not_mem]
  intro t ht
  obtain ⟨g, hg, -, rfl, -⟩ := mem_ticketsOf.mp ht
  obtain ⟨p, hp⟩ := h.located g hg
  rw [hnone] at hp
  cases hp

theorem of_touches (h : PoolsMatch l guests) (htouches : l.Touches key l') {p : Pool}
    (hp : l'.pool? key = some p) (hroomy : 0 < p.capacity)
    (hfits : p.Fits (ticketsOf guests' key false) (ticketsOf guests' key true))
    (hother : ∀ k, k ≠ key → ∀ admitted, ticketsOf guests' k admitted = ticketsOf guests k admitted)
    (hguests : ∀ g ∈ guests', g ∈ guests ∨ g.key = key) : PoolsMatch l' guests' where
  fits {k q} hq := by
    by_cases hk : k = key
    · subst hk
      obtain rfl := Option.some.inj (hp.symm.trans hq)
      exact hfits
    · rw [htouches.elsewhere k hk] at hq
      rw [hother k hk, hother k hk]
      exact h.fits hq
  roomy {k q} hq := by
    by_cases hk : k = key
    · subst hk
      obtain rfl := Option.some.inj (hp.symm.trans hq)
      exact hroomy
    · rw [htouches.elsewhere k hk] at hq
      exact h.roomy hq
  located g hg := by
    by_cases hk : g.key = key
    · exact ⟨p, hk ▸ hp⟩
    · rw [htouches.elsewhere g.key hk]
      exact h.located g ((hguests g hg).resolve_right hk)

theorem request (h : PoolsMatch l guests) (key : String) (t : Ticket) :
    PoolsMatch (l.request key none t).1 (enrolled t key guests (l.request key none t).2) := by
  obtain ⟨p, hp, hafter, hanswer⟩ | ⟨-, hsame, hanswer⟩ :=
    Limiter.ask_cases (Pool.enter key t) key none l
  · obtain ⟨hfits, hroomy⟩ : p.Fits (ticketsOf guests key false) (ticketsOf guests key true) ∧
        0 < p.capacity := by
      rcases hp with hp | ⟨hnone, -, rfl⟩
      · exact ⟨h.fits hp, h.roomy hp⟩
      · rw [h.ticketsOf_of_none hnone, h.ticketsOf_of_none hnone]
        exact ⟨Pool.fits_ofCapacity _, Nat.lt_of_lt_of_le Nat.one_pos (Nat.le_max_right _ _)⟩
    have hcapacity : (p.enter key t).1.capacity = p.capacity :=
      congrArg Prod.fst (Pool.frame_enter key t p)
    obtain ⟨hqueue, hholders⟩ := ticketsOf_enrolled t key guests (p.enter key t).2
    rw [Limiter.request, hanswer]
    refine h.of_touches (Limiter.touches_ask _ key none l) hafter ?_ ?_
      (fun k hk => ticketsOf_enrolled_of_ne hk _) fun g hg => key_of_mem_enrolled hg
    · rw [hcapacity]
      exact hroomy
    · exact fits_perm (hfits.enter key t) hqueue hholders
  · have hsame' : (l.request key none t).1 = l := hsame
    rw [hsame']
    obtain hanswer | hanswer := hanswer
    · have hanswer' : (l.request key none t).2 = .refused (Admission.limiterClosed key) := hanswer
      rw [hanswer']
      exact h
    · have hanswer' : (l.request key none t).2 = .impossible := hanswer
      rw [hanswer']
      exact h

theorem check (h : PoolsMatch l (⟨t, key, false⟩ :: guests)) :
    PoolsMatch (l.check key t).1 (enrolled t key guests (l.check key t).2) := by
  obtain ⟨p, hp⟩ := h.located _ List.mem_cons_self
  obtain ⟨hafter, hanswer⟩ := Limiter.check_of_pool hp t
  obtain ⟨hqueue, hholders⟩ := ticketsOf_enrolled t key guests (p.check key t).2
  have hfits := h.fits hp
  simp only [ticketsOf_cons, true_and, if_true, Bool.false_eq_true, if_false] at hfits
  have hcapacity : (p.check key t).1.capacity = p.capacity :=
    congrArg Prod.fst (Pool.frame_check key t p)
  rw [hanswer]
  refine h.of_touches (Limiter.touches_check l key t) hafter ?_ ?_ (fun k hk admitted => ?_)
    fun g hg => ?_
  · rw [hcapacity]
    exact h.roomy hp
  · exact fits_perm (hfits.check (.refl _) key) hqueue hholders
  · rw [ticketsOf_enrolled_of_ne hk, ticketsOf_cons, if_neg fun heq => hk heq.1.symm]
  · exact (key_of_mem_enrolled hg).imp_left (List.mem_cons_of_mem _)

theorem depart {admitted : Bool} (h : PoolsMatch l (⟨t, key, admitted⟩ :: guests)) {f : Pool → Pool}
    (hf : ∀ p, (f p).frame = p.frame)
    (hfits : ∀ p : Pool, p.Fits (ticketsOf (⟨t, key, admitted⟩ :: guests) key false)
      (ticketsOf (⟨t, key, admitted⟩ :: guests) key true) →
      (f p).Fits (ticketsOf guests key false) (ticketsOf guests key true)) :
    PoolsMatch (l.modifyPool key f) guests := by
  obtain ⟨p, hp⟩ := h.located _ List.mem_cons_self
  have hcapacity : (f p).capacity = p.capacity := congrArg Prod.fst (hf p)
  refine h.of_touches ((Limiter.Touches.refl key l).modifyPool f)
    (Limiter.pool?_modifyPool_self hp f) ?_ (hfits p (h.fits hp)) (fun k hk _ => ?_) fun g hg => ?_
  · rw [hcapacity]
    exact h.roomy hp
  · rw [ticketsOf_cons, if_neg fun heq => hk heq.1.symm]
  · exact .inl (List.mem_cons_of_mem _ hg)

theorem release (h : PoolsMatch l (⟨t, key, true⟩ :: guests)) :
    PoolsMatch (l.release key t) guests := by
  refine h.depart (Pool.frame_release t) fun p hfits => ?_
  simp only [ticketsOf_cons, true_and, if_true, Bool.true_eq_false, if_false] at hfits
  exact hfits.release (.refl _)

theorem leave (h : PoolsMatch l (⟨t, key, false⟩ :: guests)) :
    PoolsMatch (l.leave key t) guests := by
  refine h.depart (Pool.frame_leave t) fun p hfits => ?_
  simp only [ticketsOf_cons, true_and, if_true, Bool.false_eq_true, if_false] at hfits
  exact hfits.leave (.refl _)

theorem close (h : PoolsMatch l guests) : PoolsMatch l.close guests where
  fits hp := by
    obtain ⟨p, hbefore, rfl⟩ := Option.map_eq_some_iff.mp ((Limiter.pool?_close _ _).symm.trans hp)
    exact (h.fits hbefore).close
  roomy hp := by
    obtain ⟨p, hbefore, rfl⟩ := Option.map_eq_some_iff.mp ((Limiter.pool?_close _ _).symm.trans hp)
    exact h.roomy (p := p) hbefore
  located g hg := by
    obtain ⟨p, hp⟩ := h.located g hg
    exact ⟨p.close, by rw [Limiter.pool?_close, hp, Option.map_some]⟩

end PoolsMatch

end

/-! ## Calls that nobody has decided about -/

section

variable {l l' : Limiter} {c : Call}

theorem isDecided_eq_false_iff :
    isDecided l c = false ↔ (c.phase = .waiting →
      ∀ p, l.pool? c.key = some p → p.closed = false ∧ c.ticket ∉ p.handed) := by
  unfold isDecided
  split
  next p hphase hp => simp [hphase, hp]
  next hno =>
    constructor
    · intro _ hphase p hp
      exact absurd hp (hno p hphase)
    · intro _
      rfl

theorem isDecided_mono (h : isDecided l c = false)
    (hpool : ∀ q, l'.pool? c.key = some q → ∃ p, l.pool? c.key = some p ∧
      q.closed = p.closed ∧ q.handed ⊆ p.handed) : isDecided l' c = false := by
  rw [isDecided_eq_false_iff] at h ⊢
  intro hphase q hq
  obtain ⟨p, hp, hclosed, hhanded⟩ := hpool q hq
  obtain ⟨hopen, hnot⟩ := h hphase p hp
  exact ⟨hclosed.trans hopen, fun hmem => hnot (hhanded hmem)⟩

theorem isDecided_of_phase (h : c.phase ≠ .waiting) : isDecided l c = false :=
  isDecided_eq_false_iff.mpr fun hphase => absurd hphase h

theorem handed_enter (key : String) (t : Ticket) (p : Pool) :
    (p.enter key t).1.handed = p.handed := by
  unfold Pool.enter
  split_ifs <;> rfl

theorem isDecided_request (h : isDecided l c = false) (hhomed : ∃ p, l.pool? c.key = some p)
    (key : String) (t : Ticket) : isDecided (l.request key none t).1 c = false := by
  refine isDecided_mono h fun q hq => ?_
  obtain ⟨p, hp⟩ := hhomed
  by_cases hk : c.key = key
  · rw [hk] at hp
    rw [hk] at hq ⊢
    obtain ⟨p', hp', hafter, -⟩ | ⟨hnone, -⟩ :=
      Limiter.ask_cases (Pool.enter key t) key none l
    · obtain rfl : p = p' := by
        rcases hp' with hp' | ⟨hnone, -⟩
        · exact Option.some.inj (hp.symm.trans hp')
        · simp [hnone] at hp
      obtain rfl := Option.some.inj (hafter.symm.trans hq)
      refine ⟨p, hp, congrArg Prod.snd (Pool.frame_enter key t p), ?_⟩
      rw [handed_enter]
      exact List.Subset.refl _
    · simp [hnone] at hp
  · rw [Limiter.request, (Limiter.touches_ask _ key none l).elsewhere c.key hk] at hq
    exact ⟨q, hq, rfl, List.Subset.refl _⟩

theorem isDecided_of_request {guests : List Guest} (h : PoolsMatch l guests)
    (hnew : ∀ g ∈ guests, g.ticket ≠ c.ticket)
    (hwaiting : (l.request c.key none c.ticket).2 = .waiting) :
    isDecided (l.request c.key none c.ticket).1 c = false := by
  refine isDecided_eq_false_iff.mpr fun _ q hq => ?_
  obtain ⟨p, hp, hafter, hanswer⟩ | ⟨-, -, hanswer⟩ :=
    Limiter.ask_cases (Pool.enter c.key c.ticket) c.key none l
  · obtain rfl := Option.some.inj (hafter.symm.trans hq)
    have hopen : p.closed = false := by
      have hwaits : (p.enter c.key c.ticket).2 = .waiting := hanswer.symm.trans hwaiting
      by_contra hclosed
      rw [Pool.enter, if_pos (by simpa using hclosed)] at hwaits
      cases hwaits
    refine ⟨(congrArg Prod.snd (Pool.frame_enter _ _ p)).trans hopen, fun hmem => ?_⟩
    rw [handed_enter] at hmem
    rcases hp with hp | ⟨-, -, rfl⟩
    · have hwaits := (h.fits hp).waits.mem_iff.mp (List.mem_append_left p.line hmem)
      obtain ⟨g, hg, hticket, -⟩ := mem_ticketsOf.mp hwaits
      exact hnew g hg hticket
    · cases hmem
  · have hrefused : (l.request c.key none c.ticket).2 = .refused (Admission.limiterClosed c.key) ∨
        (l.request c.key none c.ticket).2 = .impossible := hanswer
    rw [hwaiting] at hrefused
    simp at hrefused

/-- At an open pool nobody is decided about because another one looks. -/
theorem isDecided_check (h : isDecided l c = false) {key : String} {t : Ticket}
    (hanswer : ∀ cause, (l.check key t).2 ≠ .refused cause) :
    isDecided (l.check key t).1 c = false := by
  refine isDecided_mono h fun q hq => ?_
  by_cases hk : c.key = key
  · rw [hk] at hq ⊢
    cases hp : l.pool? key with
    | none =>
        simp only [Limiter.check, hp] at hq
        cases hq
    | some p =>
        obtain ⟨hafter, hsame⟩ := Limiter.check_of_pool hp t
        obtain rfl := Option.some.inj (hafter.symm.trans hq)
        have hopen : p.closed = false := by
          by_contra hclosed
          refine hanswer (Admission.poolClosed key) ?_
          rw [hsame, Pool.check, if_pos (by simpa using hclosed)]
        exact ⟨p, rfl, congrArg Prod.snd (Pool.frame_check key t p),
          fun u hu => Pool.handed_check hopen t hu⟩
  · rw [(Limiter.touches_check l key t).elsewhere c.key hk] at hq
    exact ⟨q, hq, rfl, List.Subset.refl _⟩

end

/-! ## The desk -/

variable {j : Journal} {d : Desk} {c : Call} {sizes : String → Nat}

/-- All slots are accounted for by calls, pools are of known sizes, and every call that could
notice something is about to do so. -/
structure Desk.SlotsAccounted (sizes : String → Nat) (d : Desk) : Prop where
  sizes : ∀ key, d.limiter.sizeFor key none = sizes key
  pools : PoolsMatch d.limiter (d.calls.map (·.guest))
  undecided : ∀ c ∈ d.calls, isDecided d.limiter c = false

theorem slotsAccounted_opening (settings : Settings) (defaultCapacity : Nat)
    (named : List (String × Nat)) (agent : Execution.Agent) :
    Desk.SlotsAccounted (Limiter.sizeFor { defaultCapacity, named } · none)
      { settings, limiter := { defaultCapacity, named }, agent } where
  sizes _ := rfl
  pools := {
    fits := fun hp => by cases hp
    roomy := fun hp => by cases hp
    located := fun g hg => by cases hg }
  undecided c hc := by cases hc

def Desk.others (d : Desk) (c : Call) : List Call := d.calls.filter (·.ticket != c.ticket)

theorem perm_update (hdistinct : (d.calls.map (·.ticket)).Nodup)
    (hc : ∃ x ∈ d.calls, x.ticket = c.ticket) :
    (d.update c).calls.Perm (c :: d.others c) :=
  perm_replace Call.ticket hdistinct hc

theorem perm_others (hdistinct : (d.calls.map (·.ticket)).Nodup) (hc : c ∈ d.calls) :
    d.calls.Perm (c :: d.others c) :=
  perm_others_of_mem Call.ticket hdistinct hc

namespace Desk.SlotsAccounted

theorem same {d' : Desk} (h : d.SlotsAccounted sizes) (hlimiter : d'.limiter = d.limiter)
    (hcalls : d'.calls = d.calls) : d'.SlotsAccounted sizes := by
  refine ⟨?_, ?_, ?_⟩
  · rw [hlimiter]
    exact h.sizes
  · rw [hlimiter, hcalls]
    exact h.pools
  · rw [hlimiter, hcalls]
    exact h.undecided

theorem summon (hsizes : ∀ key, d.limiter.sizeFor key none = sizes key)
    (h : PoolsMatch d.limiter (d.calls.map (·.guest))) : d.summon.SlotsAccounted sizes where
  sizes := hsizes
  pools := by
    have hsame : d.summon.calls.map (·.guest) = d.calls.map (·.guest) :=
      Journaled.map_summon d _ fun x hwaiting => by simp [Call.guest, hwaiting, Phase.isAdmitted]
    rw [hsame]
    exact h
  undecided x hx := by
    rw [summon_calls] at hx
    obtain ⟨y, -, rfl⟩ := List.mem_map.mp hx
    show isDecided d.limiter _ = false
    split_ifs with hdecided
    · exact isDecided_of_phase (by simp)
    · simpa using hdecided

theorem close (hsizes : ∀ key, d.limiter.sizeFor key none = sizes key)
    (h : PoolsMatch d.limiter (⟨c.ticket, c.key, true⟩ :: (d.others c).map (·.guest)))
    (how : Ending) : (d.close c how).SlotsAccounted sizes := by
  have hreleased := h.release
  unfold Desk.close Desk.release
  apply SlotsAccounted.summon
  · exact hsizes
  · exact hreleased

theorem replace (hsizes : ∀ key, d.limiter.sizeFor key none = sizes key)
    (h : PoolsMatch d.limiter (⟨c.ticket, c.key, c.phase.isAdmitted⟩ :: (d.others c).map (·.guest)))
    (hundecided : ∀ x ∈ d.others c, isDecided d.limiter x = false)
    (hself : isDecided d.limiter c = false) (hdistinct : (d.calls.map (·.ticket)).Nodup)
    (hc : ∃ x ∈ d.calls, x.ticket = c.ticket) : (d.update c).SlotsAccounted sizes := by
  have hperm := perm_update hdistinct hc
  refine ⟨hsizes, h.perm (hperm.map _), fun x hx => ?_⟩
  rcases List.mem_cons.mp (hperm.mem_iff.mp hx) with rfl | hx
  · exact hself
  · exact hundecided x hx

theorem launch (hsizes : ∀ key, d.limiter.sizeFor key none = sizes key)
    (h : PoolsMatch d.limiter (⟨c.ticket, c.key, true⟩ :: (d.others c).map (·.guest)))
    (hundecided : ∀ x ∈ d.others c, isDecided d.limiter x = false)
    (hdistinct : (d.calls.map (·.ticket)).Nodup) (hc : ∃ x ∈ d.calls, x.ticket = c.ticket)
    (attempt : Nat) : (d.launch c attempt).SlotsAccounted sizes := by
  unfold Desk.launch
  split
  next => exact close hsizes h .crashed
  next =>
    dsimp only
    apply replace
    · exact hsizes
    · exact h
    · exact hundecided
    · exact isDecided_of_phase (by simp)
    · exact hdistinct
    · exact hc

theorem start (h : d.SlotsAccounted sizes) (hdistinct : (d.calls.map (·.ticket)).Nodup)
    (hnew : ∀ x ∈ d.calls, x.ticket ≠ d.issued) (key : String) (prompt : Prompt) (streams : Bool) :
    (d.start key prompt streams).1.SlotsAccounted sizes := by
  have hpools := h.pools.request key d.issued
  have hsizes (k : String) : (d.limiter.request key none d.issued).1.sizeFor k none = sizes k := by
    rw [Limiter.request, (Limiter.touches_ask _ key none d.limiter).sizes]
    exact h.sizes k
  have hold : ∀ x ∈ d.calls, isDecided (d.limiter.request key none d.issued).1 x = false :=
    fun x hx => isDecided_request (h.undecided x hx)
      (h.pools.located x.guest (List.mem_map_of_mem hx)) key d.issued
  let c : Call := { ticket := d.issued, key, prompt, streams }
  have hjoined : (d.calls ++ [c]).map (·.guest) = d.calls.map (·.guest) ++ [c.guest] :=
    List.map_append
  have hperm : ((d.calls ++ [c]).map (·.guest)).Perm (c.guest :: d.calls.map (·.guest)) := by
    rw [hjoined]
    exact List.perm_append_singleton _ _
  unfold Desk.start
  dsimp only
  split
  next cause hanswer =>
    rw [hanswer] at hpools
    exact ⟨hsizes, hpools, hold⟩
  next hanswer =>
    rw [hanswer] at hpools
    exact ⟨hsizes, hpools, hold⟩
  next hanswer =>
    rw [hanswer] at hpools
    refine ⟨hsizes, hpools.perm hperm, List.forall_mem_append.mpr
      ⟨hold, List.forall_mem_singleton.mpr ?_⟩⟩
    refine isDecided_of_request (c := c) h.pools (fun g hg => ?_) hanswer
    obtain ⟨x, hx, rfl⟩ := List.mem_map.mp hg
    exact hnew x hx
  next hanswer =>
    rw [hanswer] at hpools
    have hothers : (d.calls ++ [c]).filter (·.ticket != c.ticket) = d.calls := by
      have hkeep : d.calls.filter (·.ticket != c.ticket) = d.calls :=
        List.filter_eq_self.mpr fun x hx => by simpa using hnew x hx
      rw [List.filter_append, hkeep]
      simp
    apply launch (c := c)
    · exact hsizes
    · rw [Desk.others, hothers]
      exact hpools
    · rw [Desk.others, hothers]
      exact hold
    · rw [List.map_append, List.nodup_append]
      refine ⟨hdistinct, List.nodup_singleton _, fun t ht u hu => ?_⟩
      obtain ⟨x, hx, rfl⟩ := List.mem_map.mp ht
      rw [List.mem_singleton.mp hu]
      exact hnew x hx
    · exact ⟨c, List.mem_append_right _ (List.mem_singleton_self c), rfl⟩

theorem besides (h : d.SlotsAccounted sizes) (hdistinct : (d.calls.map (·.ticket)).Nodup)
    (hc : c ∈ d.calls) :
    PoolsMatch d.limiter (c.guest :: (d.others c).map (·.guest)) ∧
      ∀ x ∈ d.others c, isDecided d.limiter x = false := by
  refine ⟨h.pools.perm ((perm_others hdistinct hc).map _).symm, fun x hx => ?_⟩
  exact h.undecided x (List.mem_of_mem_filter hx)

theorem notice (h : d.SlotsAccounted sizes) (hdistinct : (d.calls.map (·.ticket)).Nodup)
    (hc : c ∈ d.calls) (hphase : c.phase = .summoned) : (d.notice c).SlotsAccounted sizes := by
  obtain ⟨hbesides, hothers⟩ := h.besides hdistinct hc
  have hguest : c.guest = ⟨c.ticket, c.key, false⟩ := by
    simp [Call.guest, hphase, Phase.isAdmitted]
  rw [hguest] at hbesides
  obtain ⟨p, hp⟩ := hbesides.located _ List.mem_cons_self
  have hp : d.limiter.pool? c.key = some p := hp
  obtain ⟨hafter, hsame⟩ := Limiter.check_of_pool hp c.ticket
  have hchecked := hbesides.check
  have hsizes (k : String) : (d.limiter.check c.key c.ticket).1.sizeFor k none = sizes k := by
    rw [(Limiter.touches_check d.limiter c.key c.ticket).sizes]
    exact h.sizes k
  unfold Desk.notice
  dsimp only
  split
  next hanswer =>
    rw [hanswer] at hchecked
    apply launch
    · exact hsizes
    · exact hchecked
    · exact fun x hx => isDecided_check (hothers x hx) (by simp [hanswer])
    · exact hdistinct
    · exact ⟨c, hc, rfl⟩
  next cause hanswer =>
    rw [hanswer] at hchecked
    apply SlotsAccounted.summon
    · exact hsizes
    · exact hchecked
  next hanswer =>
    rw [hanswer] at hchecked
    apply replace
    · exact hsizes
    · exact hchecked
    · exact fun x hx => isDecided_check (hothers x hx) (by simp [hanswer])
    · refine isDecided_eq_false_iff.mpr fun _ q hq => ?_
      obtain rfl := Option.some.inj (hafter.symm.trans hq)
      obtain ⟨hopen, hnot⟩ := Pool.check_eq_waiting.mp (hsame.symm.trans hanswer)
      exact ⟨(congrArg Prod.snd (Pool.frame_check _ _ p)).trans hopen,
        fun hmem => hnot (Pool.handed_check hopen _ hmem)⟩
    · exact hdistinct
    · exact ⟨c, hc, rfl⟩
  next hanswer =>
    rw [hsame] at hanswer
    unfold Pool.check at hanswer
    split_ifs at hanswer

theorem line (h : d.SlotsAccounted sizes) (hdistinct : (d.calls.map (·.ticket)).Nodup)
    (hc : c ∈ d.calls) (text : String) : (d.line c text).SlotsAccounted sizes := by
  obtain ⟨hbesides, hothers⟩ := h.besides hdistinct hc
  have hupdated : (d.update { c with
      transcript := (c.transcript.feed text.toList).1 }).SlotsAccounted sizes := by
    apply replace
    · exact h.sizes
    · exact hbesides
    · exact hothers
    · exact h.undecided c hc
    · exact hdistinct
    · exact ⟨c, hc, rfl⟩
  unfold Desk.line
  dsimp only
  split
  next => exact hupdated.same rfl rfl
  next => exact hupdated

theorem finish (h : d.SlotsAccounted sizes) (hdistinct : (d.calls.map (·.ticket)).Nodup)
    (hc : c ∈ d.calls) : (d.finish c).SlotsAccounted sizes := by
  obtain ⟨hbesides, hothers⟩ := h.besides hdistinct hc
  unfold Desk.finish
  split
  next number attempt part hphase =>
    have hguest : c.guest = ⟨c.ticket, c.key, true⟩ := by
      simp [Call.guest, hphase, Phase.isAdmitted]
    rw [hguest] at hbesides
    by_cases hstreams : c.streams = true
    · rw [if_pos hstreams]
      unfold Desk.finishStreamed
      dsimp only
      split
      next =>
        apply close
        · exact h.sizes
        · exact hbesides
      next =>
        apply close
        · exact h.sizes
        · exact hbesides
    · rw [if_neg hstreams]
      unfold Desk.finishCaptured
      split
      next =>
        apply replace
        · exact h.sizes
        · exact hbesides
        · exact hothers
        · exact isDecided_of_phase (by simp)
        · exact hdistinct
        · exact ⟨c, hc, rfl⟩
      next =>
        apply close
        · exact h.sizes
        · exact hbesides
  next => exact h

theorem retry (h : d.SlotsAccounted sizes) (hdistinct : (d.calls.map (·.ticket)).Nodup)
    (hc : c ∈ d.calls) : (d.retry c).SlotsAccounted sizes := by
  obtain ⟨hbesides, hothers⟩ := h.besides hdistinct hc
  unfold Desk.retry
  split
  next attempt hphase =>
    have hguest : c.guest = ⟨c.ticket, c.key, true⟩ := by
      simp [Call.guest, hphase, Phase.isAdmitted]
    rw [hguest] at hbesides
    exact launch h.sizes hbesides hothers hdistinct ⟨c, hc, rfl⟩ _
  next => exact h

theorem drop (h : d.SlotsAccounted sizes) (hdistinct : (d.calls.map (·.ticket)).Nodup)
    (t : Ticket) :
    (d.drop t).SlotsAccounted sizes := by
  unfold Desk.drop
  split
  next => exact h
  next c hcall =>
    have hc : c ∈ d.calls := List.mem_of_find?_eq_some hcall
    obtain rfl : c.ticket = t := by simpa using List.find?_some hcall
    obtain ⟨hbesides, -⟩ := h.besides hdistinct hc
    have hleft (h : c.phase.isAdmitted = false) :
        PoolsMatch (d.limiter.leave c.key c.ticket) ((d.others c).map (·.guest)) := by
      rw [Call.guest, h] at hbesides
      exact hbesides.leave
    have hreleased (h : c.phase.isAdmitted = true) :
        PoolsMatch (d.limiter.release c.key c.ticket) ((d.others c).map (·.guest)) := by
      rw [Call.guest, h] at hbesides
      exact hbesides.release
    dsimp only
    split
    next hphase => exact summon h.sizes (hleft (by rw [hphase]; rfl))
    next hphase => exact summon h.sizes (hleft (by rw [hphase]; rfl))
    next hphase => exact summon h.sizes (hreleased (by rw [hphase]; rfl))
    next hphase => exact summon h.sizes (hreleased (by rw [hphase]; rfl))

theorem shut (h : d.SlotsAccounted sizes) : d.shut.SlotsAccounted sizes := by
  unfold Desk.shut
  apply SlotsAccounted.summon
  · exact h.sizes
  · exact h.pools.close

end Desk.SlotsAccounted

theorem Stage.summoned_of_notice {t : Ticket} {told : List Message} {due : List Task}
    (h : Stage d c told (.notice t :: due)) : c.phase = .summoned := by
  generalize hdue : Task.notice t :: due = tasks at h
  cases h with
  | summoned hphase => exact hphase
  | streaming =>
      rename_i rest _ _ _ _ _
      cases rest <;> simp at hdue
  | waiting | capturing | pausing => cases hdue

theorem Stage.waiting_of_idle {told : List Message} (h : Stage d c told []) :
    c.phase = .waiting := by
  generalize hdue : ([] : List Task) = tasks at h
  cases h with
  | waiting hphase => exact hphase
  | streaming => simp at hdue
  | summoned | capturing | pausing => cases hdue

namespace Desk.SlotsAccounted

theorem attend (h : d.SlotsAccounted sizes) (hn : Journaled (fun _ => True) j d) {task : Task}
    {rest : Agenda Task} (hnext : d.Next task rest) (now : Duration) :
    (Desk.perform { d with agenda := rest, now } task).SlotsAccounted sizes := by
  have htasks := (hnext.tasks task.ticket).trans (if_pos (beq_self_eq_true _))
  have hpopped : Desk.SlotsAccounted sizes { d with agenda := rest, now } := h.same rfl rfl
  unfold Desk.perform
  split
  next => exact hpopped
  next c hcall =>
    have hc : c ∈ d.calls := List.mem_of_find?_eq_some hcall
    have hticket : c.ticket = task.ticket := by simpa using List.find?_some hcall
    have hdistinct := hn.distinct
    cases task with
    | notice t =>
        obtain ⟨-, hstage⟩ := hn.stage hc
        rw [hticket, htasks] at hstage
        exact hpopped.notice hdistinct hc hstage.summoned_of_notice
    | line t text => exact hpopped.line hdistinct hc text
    | finish t => exact hpopped.finish hdistinct hc
    | retry t => exact hpopped.retry hdistinct hc

theorem step (h : d.SlotsAccounted sizes) (hn : Journaled (fun _ => True) j d) (moment : Duration) :
    (d.step moment).SlotsAccounted sizes := by
  unfold Desk.step
  split
  next due task agenda hnext => exact h.attend hn (Desk.Next.of_next hn.ordered hnext) _
  next => exact h

theorem runTo (h : d.SlotsAccounted sizes) (hn : Journaled (fun _ => True) j d)
    (moment : Duration) :
    (d.runTo moment).SlotsAccounted sizes :=
  (runUntil_keeps (P := fun d : Desk => Journaled (fun _ => True) j d ∧ d.SlotsAccounted sizes)
    (fun t _ hd => ⟨hd.1.step t, hd.2.step hd.1 t⟩) moment manySteps ⟨hn, h⟩).2

/-- When nothing is due for anyone, all calls are over: the slots that those in line wait for
would be held by calls for which something is due. -/
theorem calls_eq_nil (h : d.SlotsAccounted sizes) (hn : Journaled (fun _ => True) j d)
    (hidle : d.due? = none) : d.calls = [] := by
  have hitems : d.agenda.items = [] := by simpa [Desk.due?] using hidle
  have hwaiting : ∀ c ∈ d.calls, c.phase = .waiting := fun c hc => by
    obtain ⟨-, hstage⟩ := hn.stage hc
    have hnone : d.tasks c.ticket = [] := by simp [Desk.tasks, Agenda.select, hitems]
    rw [hnone] at hstage
    exact hstage.waiting_of_idle
  rw [List.eq_nil_iff_forall_not_mem]
  intro c hc
  obtain ⟨p, hp⟩ := h.pools.located c.guest (List.mem_map_of_mem hc)
  have hp : d.limiter.pool? c.key = some p := hp
  have hfits := h.pools.fits hp
  have hroomy := h.pools.roomy hp
  have hmissed {x : Call} (hx : x ∈ d.calls) (hkey : x.key = c.key) :
      p.closed = false ∧ x.ticket ∉ p.handed :=
    isDecided_eq_false_iff.mp (h.undecided x hx) (hwaiting x hx) p (hkey ▸ hp)
  -- Whoever was handed a slot would be about to notice it.
  have hhanded : p.handed = [] := by
    rw [List.eq_nil_iff_forall_not_mem]
    intro t ht
    obtain ⟨g, hg, rfl, hkey, -⟩ :=
      mem_ticketsOf.mp (hfits.waits.mem_iff.mp (List.mem_append_left p.line ht))
    obtain ⟨x, hx, rfl⟩ := List.mem_map.mp hg
    exact (hmissed hx hkey).2 ht
  -- Whoever holds a slot was admitted, and does not wait any more.
  have hheld : p.held = [] := by
    rw [List.eq_nil_iff_forall_not_mem]
    intro t ht
    obtain ⟨g, hg, -, -, hadmitted⟩ := mem_ticketsOf.mp (hfits.holds.mem_iff.mp ht)
    obtain ⟨x, hx, rfl⟩ := List.mem_map.mp hg
    simp [Call.guest, hwaiting x hx, Phase.isAdmitted] at hadmitted
  have hline : c.ticket ∈ p.handed ++ p.line := by
    refine hfits.waits.mem_iff.mpr
      (mem_ticketsOf.mpr ⟨c.guest, List.mem_map_of_mem hc, rfl, rfl, ?_⟩)
    simp [Call.guest, hwaiting c hc, Phase.isAdmitted]
  rw [hhanded, List.nil_append] at hline
  -- So no slot is taken, but the call is in line for one.
  have hbusy := hfits.busy (hmissed hc rfl).1 (List.ne_nil_of_mem hline)
  have hslots := hfits.slots
  rw [hheld, hhanded, hbusy] at hslots
  simp only [List.length_nil] at hslots
  omega

end Desk.SlotsAccounted

end AgentGateway.Client
