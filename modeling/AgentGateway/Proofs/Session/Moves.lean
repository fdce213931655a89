import AgentGateway.Proofs.Session.Activity
import AgentGateway.Session.Desk

/-!
# A registry while time passes

Sessions come, act and go in any order, sweepers sweep at any moment, and time passes in between.
Whatever a move does to the registry is an action by a moment that the clock has reached
(`Desk.Step`). Whoever uses a session has the registry to itself when it reads the clock; a
clean-up reads the clock first and may have to wait for the registry.
-/

namespace AgentGateway.Session

open Correlation (Id)

/-- What can happen to a registry with sweepers. A clean-up goes by what the clock showed some time
ago, and so does a sweep, which may be the last one of a sweeper that was stopped meanwhile. -/
inductive Move where
  | register (name connection : String)
  | registerAs (id connection : String)
  | get (id : Id)
  | touch (id : Id)
  | unregister (id : Id)
  | cleanup (maxIdle ago : Duration)
  | list
  | clear
  | startSweeper (maxIdle period : Duration)
  | stopSweepers
  | sweep (s : Sweeper) (ago : Duration)
  | elapse (span : Duration)

namespace Desk

/-- What the clock showed some time ago. -/
def seen (d : Desk) (ago : Duration) : Duration := ⟨d.now.nanos - ago.nanos⟩

/-- Cleans up by what the clock showed some time ago. -/
def purge (d : Desk) (maxIdle ago : Duration) : Desk :=
  { ({ d with now := d.seen ago }.cleanup maxIdle).1 with now := d.now }

def opening (max : Nat) : Desk := { registry := { maxSessions := max } }

def move (d : Desk) : Move → Desk
  | .register name connection => (d.register name connection).toOption.getD d
  | .registerAs id connection => (d.registerAs id connection).toOption.getD d
  | .get id => (d.get id).1
  | .touch id => (d.touch id).1
  | .unregister id => d.unregister id
  | .cleanup maxIdle ago => d.purge maxIdle ago
  | .list => d
  | .clear => d.clear.1
  | .startSweeper maxIdle period => d.startSweeper maxIdle period
  | .stopSweepers => d.stopSweepers
  | .sweep s ago => if s ∈ d.sweepers then d.purge s.maxIdle ago else d
  | .elapse span => { d with now := d.now + span }

def play (d : Desk) (moves : List Move) : Desk := moves.foldl move d

def act? (d : Desk) : Move → Option (Duration × Action Id String)
  | .register name connection => some (d.now, .register (.generated d.issued name) connection)
  | .registerAs id connection => some (d.now, .register (.given id) connection)
  | .get id => some (d.now, .get id)
  | .touch id => some (d.now, .touch id)
  | .unregister id => some (d.now, .unregister id)
  | .cleanup maxIdle ago => some (d.seen ago, .cleanup maxIdle)
  | .list => some (d.now, .list)
  | .clear => some (d.now, .shutdown)
  | .sweep s ago => if s ∈ d.sweepers then some (d.seen ago, .cleanup s.maxIdle) else none
  | .startSweeper _ _ | .stopSweepers | .elapse _ => none

def acts (d : Desk) : List Move → List (Duration × Action Id String)
  | [] => []
  | m :: moves => (d.act? m).toList ++ acts (d.move m) moves

/-- What the registry was asked and what it answered. -/
def log (d : Desk) (moves : List Move) : List (Record Id String) := d.registry.log (d.acts moves)

inductive Step (d : Desk) (m : Move) (d' : Desk) : Prop
  | acted {moment : Duration} {a : Action Id String} (hact : d.act? m = some (moment, a))
      (hpast : moment ≤ d.now) (hclock : ∀ id, a.uses id = true → moment = d.now)
      (hregistry : d'.registry = (d.registry.perform moment a).1) (hnow : d'.now = d.now)
  | rested (hact : d.act? m = none) (hregistry : d'.registry = d.registry)
      (hnow : d.now ≤ d'.now)

theorem seen_le (d : Desk) (ago : Duration) : d.seen ago ≤ d.now := Nat.sub_le _ _

theorem step (d : Desk) (m : Move) : Step d m (d.move m) := by
  have hnow : d.now ≤ d.now := Nat.le_refl _
  cases m with
  | register name connection =>
      refine .acted rfl hnow (fun _ _ => rfl) ?_ ?_ <;>
        simp only [move, register, Registry.perform] <;>
        cases d.registry.register d.now (.generated d.issued name) connection <;> rfl
  | registerAs id connection =>
      refine .acted rfl hnow (fun _ _ => rfl) ?_ ?_ <;>
        simp only [move, registerAs, Registry.perform] <;>
        cases d.registry.register d.now (.given id) connection <;> rfl
  | get | touch | unregister | list | clear => exact .acted rfl hnow (fun _ _ => rfl) rfl rfl
  | cleanup maxIdle ago =>
      exact .acted rfl (d.seen_le ago) (fun _ huses => by cases huses) rfl rfl
  | sweep s ago =>
      by_cases hs : s ∈ d.sweepers
      · rw [move, if_pos hs]
        exact .acted (if_pos hs) (d.seen_le ago) (fun _ huses => by cases huses) rfl rfl
      · rw [move, if_neg hs]
        exact .rested (if_neg hs) rfl hnow
  | startSweeper | stopSweepers => exact .rested rfl rfl hnow
  | elapse span => exact .rested rfl rfl (Nat.le_add_right _ _)

variable {d : Desk} {m : Move}

theorem now_le_move (d : Desk) (m : Move) : d.now ≤ (d.move m).now := by
  cases d.step m with
  | acted _ _ _ _ hnow => exact Nat.le_of_eq (congrArg Duration.nanos hnow.symm)
  | rested _ _ hnow => exact hnow

theorem now_le_play (d : Desk) (moves : List Move) : d.now ≤ (d.play moves).now := by
  induction moves generalizing d with
  | nil => exact Nat.le_refl _
  | cons m moves ih => exact Nat.le_trans (d.now_le_move m) (ih (d.move m))

theorem play_append (d : Desk) (front back : List Move) :
    d.play (front ++ back) = (d.play front).play back := List.foldl_append

/-- Whatever happens, every session knows when it was last active. -/
theorem tracks_play {max : Nat} {before : List (Record Id String)}
    (h : Registry.Tracks max d.registry before d.now) (moves : List Move) :
    Registry.Tracks max (d.play moves).registry (before ++ d.log moves) (d.play moves).now := by
  induction moves generalizing d before with
  | nil => exact (List.append_nil before).symm ▸ h
  | cons m moves ih =>
      cases d.step m with
      | @acted moment a hact hpast hclock hregistry hnow =>
          have hnext := h.perform hpast hclock
          rw [← hregistry, ← hnow] at hnext
          have hlog : d.log (m :: moves) =
              d.registry.record moment a :: (d.move m).log moves := by
            rw [log, acts, hact, log, hregistry]
            rfl
          rw [hlog, List.append_cons]
          exact ih hnext
      | rested hact hregistry hnow =>
          have hlog : d.log (m :: moves) = (d.move m).log moves := by
            rw [log, acts, hact, log, hregistry]
            rfl
          rw [hlog]
          apply ih
          rw [hregistry]
          exact h.later hnow

theorem tracks_opening (max : Nat) :
    Registry.Tracks max (opening max).registry [] (opening max).now where
  toAgrees := Registry.agrees_empty max
  latest he := by cases he
  newest he := by cases he
  past x hx := by cases hx

/-! ## Sessions that are used again and again -/

/-- The moments at which a session is used, successfully or not. -/
def uses (d : Desk) (id : Id) (moves : List Move) : List Duration :=
  ((d.acts moves).filter (·.2.uses id)).map (·.1)

/-- A session is used again before a span of time has passed since the last time, as long as moves
go on; every clean-up lets it be idle for so long, and nobody removes it otherwise. -/
structure Lively (d : Desk) (id : Id) (gap last : Duration) (moves : List Move) : Prop where
  uses : (last :: d.uses id moves ++ [(d.play moves).now]).IsChain fun t u => u ≤ t + gap
  cleanups : ∀ t maxIdle, (t, .cleanup maxIdle) ∈ d.acts moves → gap ≤ maxIdle
  stays : ∀ t a, (t, a) ∈ d.acts moves → a ≠ .unregister id ∧ a ≠ .shutdown

theorem uses_of_acted {id : Id} {moment : Duration} {a : Action Id String}
    (hact : d.act? m = some (moment, a)) (moves : List Move) :
    d.uses id (m :: moves) =
      if a.uses id = true then moment :: (d.move m).uses id moves
      else (d.move m).uses id moves := by
  rw [uses, acts, hact, Option.toList_some, List.singleton_append, List.filter_cons]
  split_ifs <;> rfl

theorem uses_of_rested {id : Id} (hact : d.act? m = none) (moves : List Move) :
    d.uses id (m :: moves) = (d.move m).uses id moves := by
  rw [uses, acts, hact]
  rfl

theorem now_le_of_mem_uses {id : Id} {moves : List Move} {t : Duration}
    (ht : t ∈ d.uses id moves) : d.now ≤ t := by
  induction moves generalizing d with
  | nil => cases ht
  | cons m moves ih =>
      have hrest (hmem : t ∈ (d.move m).uses id moves) : d.now ≤ t :=
        Nat.le_trans (d.now_le_move m) (ih hmem)
      cases d.step m with
      | acted hact _ hclock =>
          rw [uses_of_acted hact] at ht
          split_ifs at ht with huses
          · rcases List.mem_cons.mp ht with rfl | ht
            · exact Nat.le_of_eq (congrArg Duration.nanos (hclock id huses).symm)
            · exact hrest ht
          · exact hrest ht
      | rested hact =>
          rw [uses_of_rested hact] at ht
          exact hrest ht

namespace Lively

variable {id : Id} {gap last moment : Duration} {a : Action Id String} {moves : List Move}

/-- The session was used not long ago, because it will be used again in time. -/
theorem now_le (h : d.Lively id gap last moves) : d.now ≤ last + gap := by
  have hchain := h.uses
  cases huses : d.uses id moves with
  | nil =>
      rw [huses] at hchain
      exact Nat.le_trans (d.now_le_play moves) (List.isChain_cons_cons.mp hchain).1
  | cons t rest =>
      rw [huses] at hchain
      have ht : d.now ≤ t := now_le_of_mem_uses (huses ▸ List.mem_cons_self)
      exact Nat.le_trans ht (List.isChain_cons_cons.mp hchain).1

/-- What is left after a move, with the last use that there has been. -/
theorem tail (h : d.Lively id gap last (m :: moves)) {latest : Duration}
    (huses : (latest :: (d.move m).uses id moves ++ [((d.move m).play moves).now]).IsChain
      fun t u => u ≤ t + gap) : (d.move m).Lively id gap latest moves where
  uses := huses
  cleanups t maxIdle hmem := h.cleanups t maxIdle (List.mem_append_right _ hmem)
  stays t b hmem := h.stays t b (List.mem_append_right _ hmem)

theorem of_used (h : d.Lively id gap last (m :: moves)) (hact : d.act? m = some (moment, a))
    (huses : a.uses id = true) : (d.move m).Lively id gap moment moves := by
  have hchain := h.uses
  rw [uses_of_acted hact, if_pos huses] at hchain
  exact h.tail (List.isChain_cons_cons.mp hchain).2

theorem of_unused (h : d.Lively id gap last (m :: moves)) (hact : d.act? m = some (moment, a))
    (huses : a.uses id = false) : (d.move m).Lively id gap last moves := by
  have hchain := h.uses
  rw [uses_of_acted hact, if_neg (by simp [huses])] at hchain
  exact h.tail hchain

theorem of_rested (h : d.Lively id gap last (m :: moves)) (hact : d.act? m = none) :
    (d.move m).Lively id gap last moves := by
  have hchain := h.uses
  rw [uses_of_rested hact] at hchain
  exact h.tail hchain

/-- A session that is used again and again is there at any time. -/
theorem contains {max : Nat} {before : List (Record Id String)}
    (htracks : Registry.Tracks max d.registry before d.now) {e : Entry Id String}
    (he : d.registry.find? id = some e) {front back : List Move}
    (h : d.Lively id gap e.lastActivity (front ++ back)) :
    (d.play front).registry.contains id = true := by
  induction front generalizing d before e with
  | nil => exact Option.isSome_iff_exists.mpr ⟨e, he⟩
  | cons m front ih =>
      have hnext := tracks_play htracks [m]
      cases d.step m with
      | @acted moment a hact hpast hclock hregistry hnow =>
          cases huses : a.uses id with
          | true =>
              have hthere : d.registry.contains id = true :=
                Option.isSome_iff_exists.mpr ⟨e, he⟩
              obtain ⟨e', he', hlast⟩ := Registry.find?_of_uses moment huses hthere
              rw [← hregistry] at he'
              exact ih hnext he' (hlast ▸ h.of_used hact huses)
          | false =>
              have hmem : (moment, a) ∈ d.acts (m :: (front ++ back)) :=
                List.mem_append_left _ (Option.mem_toList.mpr hact)
              have hstays := h.stays moment a hmem
              have hkept : (d.registry.perform moment a).1.find? id = some e := by
                refine Registry.find?_of_idle htracks.sound.ids he huses hstays.1 hstays.2 ?_
                rintro maxIdle rfl
                have hgap := h.cleanups moment maxIdle hmem
                calc moment.nanos
                    _ ≤ d.now.nanos := hpast
                    _ ≤ e.lastActivity.nanos + gap.nanos := h.now_le
                    _ ≤ e.lastActivity.nanos + maxIdle.nanos := Nat.add_le_add_left hgap _
              rw [← hregistry] at hkept
              exact ih hnext hkept (h.of_unused hact huses)
      | rested hact hregistry hnow =>
          rw [← hregistry] at he
          exact ih hnext he (h.of_rested hact)

end Lively

end Desk

end AgentGateway.Session
