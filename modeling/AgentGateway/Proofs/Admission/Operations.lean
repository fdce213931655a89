import AgentGateway.Proofs.Admission.Crowd
import Mathlib.Data.List.Nodup

/-!
# What the desk does at once

An operation of the desk is a run of moves (`Desk.perform_eq_play`): a release, say, is the move
that gives the slot back, after which everyone in line looks. Once they have all looked, nobody
would learn anything by looking again (`Desk.quiescent_checkAll`), so a desk at rest is always
within reach.
-/

namespace AgentGateway.Admission

/-- A request that waits still does after another one has looked. -/
theorem Limiter.check_waiting {l : Limiter} {k : String} {t : Ticket}
    (h : (l.check k t).2 = .waiting) (k' : String) (t' : Ticket) :
    ((l.check k' t').1.check k t).2 = .waiting := by
  have hafter : (l.check k' t').1.pool? k = l.pool? k ∨
      ∃ p, l.pool? k = some p ∧ (l.check k' t').1.pool? k = some (p.check k t').1 := by
    by_cases hk : k = k'
    · subst hk
      cases hp : l.pool? k with
      | none => exact .inl (by simp [check, hp])
      | some p => exact .inr ⟨p, rfl, (check_of_pool hp t').1⟩
    · exact .inl ((touches_check l k' t').elsewhere k hk)
  cases hp : l.pool? k with
  | none =>
      have hnone : (l.check k' t').1.pool? k = none := by simpa [hp] using hafter
      simp only [Limiter.check.eq_def (l.check k' t').1, hnone]
  | some p =>
      obtain ⟨hopen, hnot⟩ := Pool.check_eq_waiting.mp ((check_of_pool hp t).2.symm.trans h)
      rw [hp] at hafter
      obtain hsame | ⟨q, hq, hafter⟩ := hafter
      · rw [(check_of_pool hsame t).2, Pool.check_eq_waiting]
        exact ⟨hopen, hnot⟩
      · obtain rfl := Option.some.inj hq
        rw [(check_of_pool hafter t).2, Pool.check_eq_waiting]
        exact ⟨(congrArg Prod.snd (Pool.frame_check k t' p)).trans hopen,
          fun hmem => hnot (Pool.handed_check hopen t' hmem)⟩

namespace Desk

def tickets (d : Desk) : List Ticket := d.waiting.map (·.ticket) ++ d.holders.map (·.ticket)

/-- No two callers have one ticket, and the tickets of later callers are new. -/
structure Numbered (d : Desk) : Prop where
  distinct : d.tickets.Nodup
  issued : ∀ t ∈ d.tickets, t < d.issued

inductive Op where
  | acquire (name key : String) (override : Option Nat)
  | tryAcquire (name key : String) (override : Option Nat)
  | acquireWithin (name key : String) (override : Option Nat) (wait : Duration)
  | release (name : String)
  | abort (name : String)
  | close
  | sleep (time : Duration)
  deriving DecidableEq, Repr, Inhabited

def perform (d : Desk) : Op → Desk
  | .acquire name key override => d.acquire name key override
  | .tryAcquire name key override => d.tryAcquire name key override
  | .acquireWithin name key override wait => d.acquireWithin name key override wait
  | .release name => (d.release name).1
  | .abort name => d.abort name
  | .close => d.close
  | .sleep time => d.sleep time

/-- Who stands in front in the line is of no concern to one who gets an answer. -/
theorem settle_behind (d : Desk) (v : Visit) (a : Answer) (front : List Visit) :
    ({ d with waiting := front ++ d.waiting } : Desk).settle v a =
      { d.settle v a with waiting := front ++ (d.settle v a).waiting } := by
  cases a <;> simp [settle, note]

theorem mem_waiting_settle {d : Desk} {v w : Visit} {a : Answer}
    (h : w ∈ (d.settle v a).waiting) : w ∈ d.waiting ∨ w = v ∧ a = .waiting := by
  cases a with
  | waiting => simpa [settle] using h
  | granted | refused | impossible => exact .inl h

theorem checkAll_eq_foldl (d : Desk) :
    d.checkAll = d.waiting.foldl consult { d with waiting := [] } := rfl

theorem checkAll_eq_play (d : Desk) : d.checkAll = d.play (d.waiting.map .look) := by
  -- Those who have yet to look stand in front of those who looked in vain.
  have hfold (vs : List Visit) (d : Desk) :
      vs.foldl consult d =
        ({ d with waiting := vs ++ d.waiting } : Desk).play (vs.map .look) := by
    induction vs generalizing d with
    | nil => rfl
    | cons v vs ih =>
        have hlook : ({ d with waiting := v :: vs ++ d.waiting } : Desk).move (.look v) =
            { d.consult v with waiting := vs ++ (d.consult v).waiting } := by
          simp only [move, look, dismiss, List.cons_append, List.mem_cons, true_or, if_true,
            List.erase_cons_head]
          exact settle_behind { d with limiter := (d.limiter.check v.key v.ticket).1 } v _ vs
        rw [List.foldl_cons, ih, ← hlook]
        rfl
  rw [checkAll_eq_foldl, hfold]
  simp

/-- After everyone in line has looked, looking again tells nothing. -/
theorem quiescent_checkAll (d : Desk) : d.checkAll.Quiescent := by
  have hfold (vs : List Visit) {d : Desk} (hd : d.Quiescent) :
      (vs.foldl consult d).Quiescent := by
    induction vs generalizing d with
    | nil => exact hd
    | cons v vs ih =>
        refine ih fun w hw => ?_
        rw [consult, settle_limiter]
        obtain hw | ⟨rfl, ha⟩ := mem_waiting_settle hw
        · exact Limiter.check_waiting (hd w hw) v.key v.ticket
        · exact Limiter.check_waiting ha w.key w.ticket
  exact hfold d.waiting fun v hv => by simp at hv

/-- Whether the wait of a caller has run out at a moment. -/
def due (t : Duration) (v : Visit) : Bool := v.limit.any (·.2 ≤ t)

theorem giveUp_now (d : Desk) (v : Visit) (wait : Duration) : (d.giveUp v wait).now = d.now := by
  rw [giveUp_eq]
  split <;> exact settle_now _ _ _

/-- One who gives up leaves the line as it is: it has an answer, or notes that it had none. -/
theorem giveUp_line (d : Desk) (v : Visit) (wait : Duration) (line : List Visit) :
    ({ d with waiting := line } : Desk).giveUp v wait =
      { d.giveUp v wait with waiting := line } := by
  rw [giveUp_eq, giveUp_eq]
  cases (d.limiter.check v.key v.ticket).2 <;> rfl

theorem giveUp_waiting (d : Desk) (v : Visit) (wait : Duration) :
    (d.giveUp v wait).waiting = d.waiting := by
  rw [giveUp_eq]
  cases (d.limiter.check v.key v.ticket).2 <;> rfl

/-- What becomes of one caller when waits run out: it gives up, or stays in line. -/
def yield (t : Duration) (d : Desk) (v : Visit) : Desk :=
  match v.limit with
  | some (wait, deadline) =>
    if deadline ≤ t then d.giveUp v wait else { d with waiting := d.waiting ++ [v] }
  | none => { d with waiting := d.waiting ++ [v] }

theorem expire_eq_foldl (t : Duration) (d : Desk) :
    d.expire t = (d.waiting.foldl (yield t)
      { d with now := if d.now ≤ t then t else d.now, waiting := [] }).checkAll := rfl

/-- Those whose wait has run out give up, one after the other; nobody who stays is one of them. -/
theorem foldl_yield (t : Duration) (vs : List Visit) {d : Desk} (hnow : t ≤ d.now)
    (hstay : ∀ v ∈ d.waiting, due t v = false) :
    vs.foldl (yield t) d =
      ({ d with waiting := d.waiting ++ vs } : Desk).play ((vs.filter (due t)).map .giveUp) := by
  induction vs generalizing d with
  | nil => simp [play]
  | cons v vs ih =>
      have hkeep (hv : due t v = false)
          (hyield : yield t d v = { d with waiting := d.waiting ++ [v] }) :
          (v :: vs).foldl (yield t) d =
            ({ d with waiting := d.waiting ++ v :: vs } : Desk).play
              (((v :: vs).filter (due t)).map .giveUp) := by
        have hstay' : ∀ w ∈ d.waiting ++ [v], due t w = false := fun w hw => by
          obtain hw | rfl := List.mem_append.mp hw |>.imp_right List.mem_singleton.mp
          · exact hstay w hw
          · exact hv
        have hrest := ih (d := { d with waiting := d.waiting ++ [v] }) hnow hstay'
        rw [List.foldl_cons, hyield, hrest, List.filter_cons_of_neg (by simp [hv])]
        simp
      cases hlimit : v.limit with
      | none => exact hkeep (by simp [due, hlimit]) (by simp [yield, hlimit])
      | some limit =>
          obtain ⟨wait, deadline⟩ := limit
          by_cases hdue : deadline ≤ t
          · have hv : due t v = true := by simpa [due, hlimit] using hdue
            -- Whoever stays still has time, so it is not `v` that `erase` finds in front.
            have hnot : v ∉ d.waiting := fun hmem => by simp [hstay v hmem] at hv
            have hover : deadline ≤ d.now := Nat.le_trans hdue hnow
            have hmove : ({ d with waiting := d.waiting ++ v :: vs } : Desk).move (.giveUp v) =
                { d.giveUp v wait with waiting := (d.giveUp v wait).waiting ++ vs } := by
              simp only [move, hlimit, List.mem_append, List.mem_cons, true_or, or_true, true_and]
              rw [if_pos hover, dismiss, giveUp_waiting]
              simp only [List.erase_append_right _ hnot, List.erase_cons_head]
              exact giveUp_line d v wait _
            have hyield : yield t d v = d.giveUp v wait := by simp [yield, hlimit, hdue]
            rw [List.foldl_cons, hyield, ih (by rwa [giveUp_now]) (by rwa [giveUp_waiting]),
              List.filter_cons_of_pos hv, ← hmove]
            rfl
          · exact hkeep (by simpa [due, hlimit] using hdue) (by simp [yield, hlimit, hdue])

def Reaches (d d' : Desk) : Prop := ∃ moves, d' = d.play moves

theorem Reaches.refl (d : Desk) : d.Reaches d := ⟨[], rfl⟩

theorem Reaches.trans {d d' d'' : Desk} (h : d.Reaches d') (h' : d'.Reaches d'') :
    d.Reaches d'' := by
  obtain ⟨front, rfl⟩ := h
  obtain ⟨back, rfl⟩ := h'
  exact ⟨front ++ back, (play_append d front back).symm⟩

theorem reaches_move (d : Desk) (m : Move) : d.Reaches (d.move m) := ⟨[m], rfl⟩

theorem reaches_checkAll (d : Desk) : d.Reaches d.checkAll := ⟨_, checkAll_eq_play d⟩

theorem reaches_elapse {d : Desk} {t : Duration} (h : d.now ≤ t) :
    d.Reaches { d with now := t } := by
  refine ⟨[.elapse ⟨t.nanos - d.now.nanos⟩], ?_⟩
  have hsum : d.now + ⟨t.nanos - d.now.nanos⟩ = t :=
    congrArg Duration.mk (Nat.add_sub_cancel' h)
  simp only [play, List.foldl_cons, List.foldl_nil, move, hsum]

theorem now_foldl {step : Desk → Visit → Desk} (h : ∀ d v, (step d v).now = d.now)
    (vs : List Visit) (d : Desk) : (vs.foldl step d).now = d.now := by
  induction vs generalizing d with
  | nil => rfl
  | cons v vs ih => exact (ih (step d v)).trans (h d v)

theorem now_checkAll (d : Desk) : d.checkAll.now = d.now :=
  now_foldl (fun d v => settle_now { d with limiter := (d.limiter.check v.key v.ticket).1 } v _)
    d.waiting { d with waiting := [] }

theorem now_yield (t : Duration) (d : Desk) (v : Visit) : (yield t d v).now = d.now := by
  unfold yield
  split
  next =>
    split_ifs
    · exact giveUp_now _ _ _
    · rfl
  next => rfl

theorem now_expire (t : Duration) (d : Desk) :
    (d.expire t).now = if d.now ≤ t then t else d.now := by
  rw [expire_eq_foldl, now_checkAll, now_foldl (now_yield t)]

theorem reaches_expire (t : Duration) (d : Desk) : d.Reaches (d.expire t) := by
  have hclock : d.Reaches { d with now := if d.now ≤ t then t else d.now } := by
    split_ifs with h
    · exact reaches_elapse h
    · exact .refl d
  have hnow : t ≤ if d.now ≤ t then t else d.now := by
    split_ifs with h
    · exact Nat.le_refl _
    · exact Nat.le_of_not_le h
  rw [expire_eq_foldl, foldl_yield t d.waiting hnow (by simp)]
  exact (hclock.trans ⟨_, rfl⟩).trans (reaches_checkAll _)

/-- As time passes, waits run out one after the other, and the clock shows no more than it
should. -/
theorem reaches_runUntil {moment : Duration} (fuel : Nat) {d : Desk} (h : d.now ≤ moment) :
    d.Reaches (runUntil due? expire moment fuel d) ∧
      (runUntil due? expire moment fuel d).now ≤ moment := by
  induction fuel generalizing d with
  | zero => exact ⟨.refl d, h⟩
  | succ fuel ih =>
      rw [runUntil]
      split
      next t _ =>
        split_ifs with ht
        · have hnow : (d.expire t).now ≤ moment := by
            rw [now_expire]
            split_ifs
            · exact ht
            · exact h
          exact ⟨(reaches_expire t d).trans (ih hnow).1, (ih hnow).2⟩
        · exact ⟨.refl d, h⟩
      next => exact ⟨.refl d, h⟩

namespace Numbered

variable {d : Desk}

theorem settle (h : d.Numbered) {v : Visit} (hnew : v.ticket ∉ d.tickets)
    (hissued : v.ticket < d.issued) (a : Answer) : (d.settle v a).Numbered := by
  have hmore : (v.ticket :: d.tickets).Nodup := List.nodup_cons.mpr ⟨hnew, h.distinct⟩
  have hbound : ∀ t ∈ v.ticket :: d.tickets, t < d.issued :=
    List.forall_mem_cons.mpr ⟨hissued, h.issued⟩
  have hadd {d' : Desk} (hperm : d'.tickets.Perm (v.ticket :: d.tickets))
      (hsame : d'.issued = d.issued) : d'.Numbered :=
    ⟨hperm.nodup_iff.mpr hmore, fun t ht => hsame ▸ hbound t (hperm.mem_iff.mp ht)⟩
  cases a with
  | granted => exact hadd List.perm_middle rfl
  | waiting =>
      refine hadd ?_ rfl
      simp only [tickets, Desk.settle, List.map_append, List.append_assoc]
      exact List.perm_middle
  | refused | impossible => exact ⟨h.distinct, h.issued⟩

theorem dismiss (h : d.Numbered) {v : Visit} (hv : v ∈ d.waiting) :
    (d.dismiss v).Numbered ∧ v.ticket ∉ (d.dismiss v).tickets ∧ v.ticket < d.issued := by
  have hperm : d.tickets.Perm (v.ticket :: (d.dismiss v).tickets) :=
    ((List.perm_cons_erase hv).map (·.ticket)).append_right _
  have hdistinct := List.nodup_cons.mp (hperm.nodup_iff.mp h.distinct)
  have hissued : ∀ t ∈ v.ticket :: (d.dismiss v).tickets, t < d.issued :=
    fun t ht => h.issued t (hperm.mem_iff.mpr ht)
  exact ⟨⟨hdistinct.2, fun t ht => hissued t (List.mem_cons_of_mem _ ht)⟩, hdistinct.1,
    hissued _ List.mem_cons_self⟩

theorem enroll (h : d.Numbered) (enter : Pool → Pool × Answer) (override : Option Nat)
    {v : Visit} (hv : v.ticket = d.issued) : (d.enroll enter override v).Numbered := by
  have hnew : v.ticket ∉ d.tickets := fun hmem => Nat.lt_irrefl _ (hv ▸ h.issued _ hmem)
  have hnext : ({ d with
      limiter := (d.limiter.ask enter v.key override).1, issued := d.issued + 1 } :
        Desk).Numbered := ⟨h.distinct, fun t ht => Nat.lt_succ_of_lt (h.issued t ht)⟩
  exact hnext.settle hnew (by simp [hv]) _

theorem consult (h : d.Numbered) {v : Visit} (hnew : v.ticket ∉ d.tickets)
    (hissued : v.ticket < d.issued) : (d.consult v).Numbered :=
  settle (d := { d with limiter := (d.limiter.check v.key v.ticket).1 }) ⟨h.distinct, h.issued⟩
    hnew hissued _

theorem giveUp (h : d.Numbered) {v : Visit} (hnew : v.ticket ∉ d.tickets)
    (hissued : v.ticket < d.issued) (wait : Duration) : (d.giveUp v wait).Numbered := by
  rw [giveUp_eq]
  split
  next =>
    exact settle (d := { d with
        limiter := (d.limiter.check v.key v.ticket).1.leave v.key v.ticket })
      ⟨h.distinct, h.issued⟩ hnew hissued _
  next => exact h.consult hnew hissued

theorem moved (h : d.Numbered) {d' : Desk} {m : Move} (hm : Moved d m d') : d'.Numbered := by
  cases hm with
  | idle => exact h
  | enrolled v override hticket => exact h.enroll _ override hticket
  | looked v hv =>
      obtain ⟨hrest, hnew, hissued⟩ := h.dismiss hv
      exact hrest.consult hnew hissued
  | gaveUp v wait hv =>
      obtain ⟨hrest, hnew, hissued⟩ := h.dismiss hv
      exact hrest.giveUp hnew hissued wait
  | aborted v hv =>
      obtain ⟨hrest, -, -⟩ := h.dismiss hv
      exact ⟨hrest.distinct, hrest.issued⟩
  | released held =>
      have hsub : (d.waiting.map (·.ticket) ++
          (d.holders.erase held).map (·.ticket)).Sublist d.tickets :=
        List.Sublist.append (.refl _) (List.erase_sublist.map _)
      exact ⟨hsub.nodup h.distinct, fun t ht => h.issued t (hsub.subset ht)⟩
  | prepared | closed | elapsed => exact ⟨h.distinct, h.issued⟩

theorem play (h : d.Numbered) (moves : List Move) : (d.play moves).Numbered := by
  induction moves generalizing d with
  | nil => exact h
  | cons m moves ih => exact ih (h.moved (d.moved m))

end Numbered

theorem numbered_opening (defaultCapacity : Nat) (named : List (String × Nat)) :
    (opening defaultCapacity named).Numbered := ⟨List.nodup_nil, fun _ h => by cases h⟩

/-- In a list where tickets are distinct, the ticket tells whom to take out. -/
theorem filter_ticket_eq_erase {α : Type} [DecidableEq α] {ticket : α → Ticket} {l : List α}
    (h : (l.map ticket).Nodup) {a : α} (ha : a ∈ l) :
    l.filter (ticket · != ticket a) = l.erase a := by
  rw [(List.Nodup.of_map ticket h).erase_eq_filter]
  refine List.filter_congr fun b hb => ?_
  have hinj : ticket b = ticket a ↔ b = a :=
    ⟨fun heq => List.inj_on_of_nodup_map h hb ha heq, fun heq => by rw [heq]⟩
  simp only [bne, beq_eq_decide, hinj]

theorem perform_eq_play {d : Desk} (h : d.Numbered) (o : Op) : d.Reaches (d.perform o) := by
  cases o with
  | acquire name key override => exact reaches_move d (.acquire name key override)
  | tryAcquire name key override => exact reaches_move d (.tryAcquire name key override)
  | acquireWithin name key override wait =>
      have hnow : (d.enterWithin name key override wait).now ≤ d.now := Nat.le_of_eq
        (congrArg Duration.nanos (settle_now { d with
          limiter := (d.limiter.request key override d.issued).1, issued := d.issued + 1 }
            ⟨name, d.issued, key, some (wait, (d.now + wait).tick)⟩ _))
      exact (reaches_move d (.acquireWithin name key override wait)).trans
        (reaches_runUntil _ hnow).1
  | release name =>
      simp only [perform, release]
      split
      next held hfind =>
        have hmem : held ∈ d.holders := List.mem_of_find?_eq_some hfind
        have hmove := reaches_move d (.release held)
        rw [move, if_pos hmem,
          ← filter_ticket_eq_erase (List.Nodup.of_append_right h.distinct) hmem] at hmove
        exact hmove.trans (reaches_checkAll _)
      next => exact .refl d
  | abort name =>
      simp only [perform, abort]
      split
      next v hfind =>
        have hmem : v ∈ d.waiting := List.mem_of_find?_eq_some hfind
        have hmove := reaches_move d (.abort v)
        rw [move, if_pos hmem, dismiss,
          ← filter_ticket_eq_erase (List.Nodup.of_append_left h.distinct) hmem] at hmove
        exact hmove.trans (reaches_checkAll _)
      next => exact .refl d
  | close => exact (reaches_move d .close).trans (reaches_checkAll _)
  | sleep time =>
      have hnow : d.now ≤ (d.now + time).tick :=
        Nat.le_trans (Nat.le_add_right _ _) (d.now + time).le_tick
      obtain ⟨hrun, hlate⟩ := reaches_runUntil (d.waiting.length + 1) hnow
      exact hrun.trans (reaches_elapse hlate)

theorem foldl_perform_eq_play {d : Desk} (h : d.Numbered) (os : List Op) :
    d.Reaches (os.foldl perform d) := by
  induction os generalizing d with
  | nil => exact .refl d
  | cons o os ih =>
      obtain ⟨moves, hmoves⟩ := perform_eq_play h o
      have hnext : (d.perform o).Numbered := hmoves ▸ h.play moves
      exact Reaches.trans ⟨moves, hmoves⟩ (ih hnext)

/-- Whatever callers ask of a desk that nobody has used is a run of moves. -/
theorem opening_reaches_foldl_perform (defaultCapacity : Nat) (named : List (String × Nat))
    (os : List Op) :
    (opening defaultCapacity named).Reaches (os.foldl perform (opening defaultCapacity named)) :=
  foldl_perform_eq_play (numbered_opening defaultCapacity named) os

end Desk

end AgentGateway.Admission
