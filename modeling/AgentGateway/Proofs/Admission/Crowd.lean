import AgentGateway.Admission.Desk
import AgentGateway.Proofs.Admission.Pool

/-!
# Callers at a limiter, one move at a time

Callers ask for slots, wait, look, give up, go away and give slots back in any order, while time
passes and the limiter may be closed. Each move is one thing that one caller does, carried out by
the functions of the limiter and its desk; a move that is not possible changes nothing. To find or
make a pool is a move of its own, because another call may come between that and the request for a
slot. What the desk does at once, such as letting everyone look after a slot has come back, is a
run of such moves (`Desk.perform_eq_play`).
-/

namespace AgentGateway.Admission

/-- What one caller can do at a limiter, and what time and the owner of the limiter can do. By
`prepare` a call finds the pool of its key, which is made if need be. A caller in line looks whether
it has been handed a slot (`look`), its wait runs out (`giveUp`), or it goes away (`abort`). A slot
is given back by `release`, also by a permit that is dropped. -/
inductive Move where
  | prepare (key : String) (override : Option Nat)
  | acquire (name key : String) (override : Option Nat)
  | tryAcquire (name key : String) (override : Option Nat)
  | acquireWithin (name key : String) (override : Option Nat) (wait : Duration)
  | look (v : Visit)
  | giveUp (v : Visit)
  | abort (v : Visit)
  | release (h : Holder)
  | close
  | elapse (span : Duration)
  deriving DecidableEq, Repr, Inhabited

namespace Move

def key? : Move → Option String
  | prepare key _ | acquire _ key _ | tryAcquire _ key _ | acquireWithin _ key _ _ => some key
  | look v | giveUp v | abort v => some v.key
  | release h => some h.key
  | close | elapse _ => none

/-- The key whose pool a move makes if there is none, and the size that its caller wants. -/
def opens? : Move → Option (String × Option Nat)
  | prepare key override | acquire _ key override | tryAcquire _ key override
  | acquireWithin _ key override _ => some (key, override)
  | look _ | giveUp _ | abort _ | release _ | close | elapse _ => none

end Move

def Limiter.prepare (l : Limiter) (key : String) (override : Option Nat) : Limiter :=
  (l.ask (fun p => (p, .waiting)) key override).1

namespace Desk

def opening (defaultCapacity : Nat) (named : List (String × Nat)) : Desk :=
  { limiter := { defaultCapacity, named } }

/-- A caller asks for a slot and says how long it will wait for it. -/
def enterWithin (d : Desk) (name key : String) (override : Option Nat) (wait : Duration) : Desk :=
  let (limiter, answer) := d.limiter.request key override d.issued
  { d with limiter, issued := d.issued + 1 }.settle
    ⟨name, d.issued, key, some (wait, (d.now + wait).tick)⟩ answer

/-- A caller asks for a slot, in one way or another. -/
def enroll (d : Desk) (enter : Pool → Pool × Answer) (override : Option Nat) (v : Visit) : Desk :=
  { d with limiter := (d.limiter.ask enter v.key override).1, issued := d.issued + 1 }.settle v
    (d.limiter.ask enter v.key override).2

def dismiss (d : Desk) (v : Visit) : Desk := { d with waiting := d.waiting.erase v }

/-- A caller that is not on the list looks whether it has been handed a slot; if it has not, it
is put on the list. -/
def consult (d : Desk) (v : Visit) : Desk :=
  { d with limiter := (d.limiter.check v.key v.ticket).1 }.settle v
    (d.limiter.check v.key v.ticket).2

/-- A caller in line looks whether it has been handed a slot. -/
def look (d : Desk) (v : Visit) : Desk := (d.dismiss v).consult v

def move (d : Desk) : Move → Desk
  | .prepare key override => { d with limiter := d.limiter.prepare key override }
  | .acquire name key override => d.acquire name key override
  | .tryAcquire name key override => d.tryAcquire name key override
  | .acquireWithin name key override wait => d.enterWithin name key override wait
  | .look v => if v ∈ d.waiting then d.look v else d
  | .giveUp v =>
    match v.limit with
    | some (wait, deadline) =>
      if v ∈ d.waiting ∧ deadline ≤ d.now then (d.dismiss v).giveUp v wait else d
    | none => d
  | .abort v =>
    if v ∈ d.waiting then { d.dismiss v with limiter := d.limiter.leave v.key v.ticket } else d
  | .release h =>
    if h ∈ d.holders then
      { d with
        holders := d.holders.erase h
        limiter := d.limiter.release h.key h.ticket }
    else d
  | .close => { d with limiter := d.limiter.close }
  | .elapse span => { d with now := d.now + span }

def play (d : Desk) (moves : List Move) : Desk := moves.foldl move d

/-- Those who wait at the pool of a key. -/
def waitingOn (d : Desk) (key : String) : List Visit := d.waiting.filter (·.key == key)

/-- Those who hold a slot of a key. -/
def heldOn (d : Desk) (key : String) : List Holder := d.holders.filter (·.key == key)

/-- Nobody in line would learn anything by looking. -/
def Quiescent (d : Desk) : Prop :=
  ∀ v ∈ d.waiting, (d.limiter.check v.key v.ticket).2 = .waiting

theorem play_append (d : Desk) (front back : List Move) :
    d.play (front ++ back) = (d.play front).play back := List.foldl_append

@[simp] theorem settle_limiter (d : Desk) (v : Visit) (a : Answer) :
    (d.settle v a).limiter = d.limiter := by
  cases a <;> rfl

@[simp] theorem settle_now (d : Desk) (v : Visit) (a : Answer) :
    (d.settle v a).now = d.now := by
  cases a <;> rfl

theorem waitingOn_settle (d : Desk) (v : Visit) (a : Answer) :
    ((d.settle v a).waitingOn v.key).map (·.ticket) =
      a.queue v.ticket ((d.waitingOn v.key).map (·.ticket)) := by
  cases a <;> simp [settle, note, waitingOn, Answer.queue]

theorem heldOn_settle (d : Desk) (v : Visit) (a : Answer) :
    ((d.settle v a).heldOn v.key).map (·.ticket) =
      a.holders v.ticket ((d.heldOn v.key).map (·.ticket)) := by
  cases a <;> simp [settle, note, heldOn, Answer.holders]

theorem waitingOn_settle_of_ne (d : Desk) (v : Visit) (a : Answer) {key : String}
    (h : key ≠ v.key) : (d.settle v a).waitingOn key = d.waitingOn key := by
  cases a <;> simp [settle, note, waitingOn, h.symm]

theorem heldOn_settle_of_ne (d : Desk) (v : Visit) (a : Answer) {key : String}
    (h : key ≠ v.key) : (d.settle v a).heldOn key = d.heldOn key := by
  cases a <;> simp [settle, note, heldOn, h.symm]

theorem filter_erase_of_neg {α : Type} [DecidableEq α] {f : α → Bool} {a : α} (h : f a = false)
    (l : List α) : (l.erase a).filter f = l.filter f := by
  induction l with
  | nil => rfl
  | cons b l ih =>
      rw [List.erase_cons]
      split
      next heq =>
        obtain rfl := beq_iff_eq.mp heq
        simp [h]
      next => simp [List.filter_cons, ih]

theorem waitingOn_perm {d : Desk} {v : Visit} (h : v ∈ d.waiting) :
    ((d.waitingOn v.key).map (·.ticket)).Perm
      (v.ticket :: ((d.dismiss v).waitingOn v.key).map (·.ticket)) := by
  have hperm := ((List.perm_cons_erase h).filter (·.key == v.key)).map (·.ticket)
  simpa [waitingOn, dismiss] using hperm

theorem heldOn_perm {d : Desk} {h : Holder} (hmem : h ∈ d.holders) :
    ((d.heldOn h.key).map (·.ticket)).Perm
      (h.ticket :: ((d.holders.erase h).filter (·.key == h.key)).map (·.ticket)) := by
  have hperm := ((List.perm_cons_erase hmem).filter (·.key == h.key)).map (·.ticket)
  simpa [heldOn] using hperm

/-- Two desks differ in what concerns one key at most. -/
structure Apart (key : String) (d d' : Desk) : Prop where
  pools : d.limiter.Touches key d'.limiter
  waiting : ∀ k, k ≠ key → d'.waitingOn k = d.waitingOn k
  holders : ∀ k, k ≠ key → d'.heldOn k = d.heldOn k

theorem Apart.refl (key : String) (d : Desk) : Apart key d d :=
  ⟨.refl key _, fun _ _ => rfl, fun _ _ => rfl⟩

theorem apart_settle {d d' : Desk} {v : Visit} (h : Apart v.key d d') (a : Answer) :
    Apart v.key d (d'.settle v a) where
  pools := by rw [settle_limiter]; exact h.pools
  waiting k hk := (waitingOn_settle_of_ne d' v a hk).trans (h.waiting k hk)
  holders k hk := (heldOn_settle_of_ne d' v a hk).trans (h.holders k hk)

theorem apart_dismiss {d : Desk} {v : Visit} {l : Limiter} (h : d.limiter.Touches v.key l) :
    Apart v.key d { d.dismiss v with limiter := l } where
  pools := h
  waiting k hk := filter_erase_of_neg (by simpa using hk.symm) d.waiting
  holders _ _ := rfl

theorem giveUp_eq (d : Desk) (v : Visit) (wait : Duration) :
    d.giveUp v wait =
      match (d.limiter.check v.key v.ticket).2 with
      | .waiting =>
        { d with
          limiter := (d.limiter.check v.key v.ticket).1.leave v.key v.ticket }.settle v
            (.refused (waitedOut v.key wait))
      | answer => { d with limiter := (d.limiter.check v.key v.ticket).1 }.settle v answer := by
  unfold giveUp
  obtain ⟨l, a⟩ := d.limiter.check v.key v.ticket
  cases a <;> rfl

/-- What a move makes of the desk. One that is not possible changes nothing. A caller with a new
ticket is enrolled, whether it would wait for a slot or not. -/
inductive Moved (d : Desk) : Move → Desk → Prop
  | idle (m : Move) : Moved d m d
  | prepared (key : String) (override : Option Nat) :
      Moved d (.prepare key override) { d with limiter := d.limiter.prepare key override }
  | enrolled {m : Move} (v : Visit) (override : Option Nat) (hticket : v.ticket = d.issued)
      (hkey : m.key? = some v.key) (hopens : m.opens? = some (v.key, override))
      {enter : Pool → Pool × Answer}
      (henter : enter = Pool.enter v.key v.ticket ∨ enter = Pool.tryEnter v.key v.ticket) :
      Moved d m (d.enroll enter override v)
  | looked (v : Visit) (hv : v ∈ d.waiting) : Moved d (.look v) (d.look v)
  | gaveUp (v : Visit) (wait : Duration) (hv : v ∈ d.waiting) :
      Moved d (.giveUp v) ((d.dismiss v).giveUp v wait)
  | aborted (v : Visit) (hv : v ∈ d.waiting) :
      Moved d (.abort v) { d.dismiss v with limiter := d.limiter.leave v.key v.ticket }
  | released (h : Holder) (hh : h ∈ d.holders) :
      Moved d (.release h) { d with
        holders := d.holders.erase h
        limiter := d.limiter.release h.key h.ticket }
  | closed : Moved d .close { d with limiter := d.limiter.close }
  | elapsed (span : Duration) : Moved d (.elapse span) { d with now := d.now + span }

theorem moved (d : Desk) (m : Move) : Moved d m (d.move m) := by
  cases m with
  | prepare key override => exact .prepared key override
  | acquire name key override =>
      exact .enrolled ⟨name, d.issued, key, none⟩ override rfl rfl rfl (.inl rfl)
  | tryAcquire name key override =>
      exact .enrolled ⟨name, d.issued, key, none⟩ override rfl rfl rfl (.inr rfl)
  | acquireWithin name key override wait =>
      exact .enrolled ⟨name, d.issued, key, some (wait, (d.now + wait).tick)⟩ override rfl rfl rfl
        (.inl rfl)
  | look v =>
      rw [move]
      split_ifs with hv
      · exact .looked v hv
      · exact .idle _
  | giveUp v =>
      rw [move]
      split
      next wait deadline _ =>
        split_ifs with hv
        · exact .gaveUp v wait hv.1
        · exact .idle _
      next => exact .idle _
  | abort v =>
      rw [move]
      split_ifs with hv
      · exact .aborted v hv
      · exact .idle _
  | release h =>
      rw [move]
      split_ifs with hh
      · exact .released h hh
      · exact .idle _
  | close => exact .closed
  | elapse span => exact .elapsed span

theorem Moved.apart {d d' : Desk} {m : Move} (hm : Moved d m d') {key : String}
    (h : m.key? = some key) : Apart key d d' := by
  cases hm with
  | idle => exact .refl key d
  | prepared k override =>
      obtain rfl := Option.some.inj h
      exact ⟨Limiter.touches_ask _ k override d.limiter, fun _ _ => rfl, fun _ _ => rfl⟩
  | enrolled v override _ hkey =>
      obtain rfl := Option.some.inj (hkey.symm.trans h)
      apply apart_settle
      exact ⟨Limiter.touches_ask _ v.key override d.limiter, fun _ _ => rfl, fun _ _ => rfl⟩
  | looked v =>
      obtain rfl := Option.some.inj h
      exact apart_settle (apart_dismiss (Limiter.touches_check _ _ _)) _
  | gaveUp v wait =>
      obtain rfl := Option.some.inj h
      have hcheck := Limiter.touches_check d.limiter v.key v.ticket
      rw [giveUp_eq]
      split
      next => exact apart_settle (apart_dismiss (hcheck.modifyPool _)) _
      next => exact apart_settle (apart_dismiss hcheck) _
  | aborted v =>
      obtain rfl := Option.some.inj h
      exact apart_dismiss ((Limiter.Touches.refl _ _).modifyPool _)
  | released held =>
      obtain rfl := Option.some.inj h
      exact ⟨(Limiter.Touches.refl _ _).modifyPool _, fun _ _ => rfl,
        fun k hk => filter_erase_of_neg (by simpa using hk.symm) d.holders⟩
  | closed | elapsed => simp [Move.key?] at h

end Desk

end AgentGateway.Admission
