import AgentGateway.Proofs.Session.Moves
import AgentGateway.Proofs.Timeline

/-!
# Sweepers

While the registry sleeps, its sweepers sweep at their ticks, but only those sweeps are carried
out that find something. A sleep is still a run of sweeps and of time that passes, and at its end
no session is left that had been idle for too long at any tick in between
(`Desk.Slept`, `Desk.slept_sleep`).
-/

namespace AgentGateway.Session

open Correlation (Id)

namespace Desk

variable {d start : Desk} {t wake : Duration}

/-- Every ticker has a period. -/
def Timed (d : Desk) : Prop := ∀ s ∈ d.sweepers, ∀ k, s.ticker = some k → 0 < k.period.nanos

theorem timed_opening (max : Nat) : (opening max).Timed := by
  intro s hs
  cases hs

theorem Timed.move (h : d.Timed) (m : Move) : (d.move m).Timed := by
  cases m with
  | register name connection =>
      simp only [Desk.move, register]
      cases d.registry.register d.now (.generated d.issued name) connection <;> exact h
  | registerAs id connection =>
      simp only [Desk.move, registerAs]
      cases d.registry.register d.now (.given id) connection <;> exact h
  | get | touch | unregister | cleanup | list | clear | elapse => exact h
  | sweep s ago =>
      rw [Desk.move]
      split_ifs <;> exact h
  | startSweeper maxIdle period =>
      intro s hs k hk
      rcases List.mem_append.mp hs with hs | hs
      · exact h s hs k hk
      · rw [List.mem_singleton.mp hs, Ticker.start?] at hk
        split_ifs at hk with hperiod
        obtain rfl := Option.some.inj hk
        apply Nat.pos_of_ne_zero
        intro hzero
        exact hperiod (.inl (congrArg Duration.mk hzero))
  | stopSweepers =>
      intro s hs k hk
      obtain ⟨s', -, rfl⟩ := List.mem_map.mp hs
      cases hk

theorem Timed.play (h : d.Timed) (moves : List Move) : (d.play moves).Timed := by
  induction moves generalizing d with
  | nil => exact h
  | cons m moves ih => exact ih (h.move m)

/-! ## Sweeps of one moment -/

/-- A sweeper sweeps if its ticker says so. -/
def heed (P : Ticker → Prop) [DecidablePred P] (d : Desk) (s : Sweeper) : Desk :=
  match s.ticker with
  | some ticker => if P ticker then (d.cleanup s.maxIdle).1 else d
  | none => d

def heeding (P : Ticker → Prop) [DecidablePred P] (d : Desk) : List Sweeper :=
  d.sweepers.filter fun s => s.ticker.any fun k => decide (P k)

theorem mem_heeding {P : Ticker → Prop} [DecidablePred P] {s : Sweeper} :
    s ∈ d.heeding P ↔ s ∈ d.sweepers ∧ ∃ k, s.ticker = some k ∧ P k := by
  rw [heeding, List.mem_filter]
  cases s.ticker <;> simp

theorem foldl_heed (P : Ticker → Prop) [DecidablePred P] (ss : List Sweeper)
    (hss : ss ⊆ d.sweepers) :
    ss.foldl (heed P) d =
      d.play ((ss.filter fun s => s.ticker.any fun k => decide (P k)).map (.sweep · .zero)) := by
  induction ss generalizing d with
  | nil => rfl
  | cons s ss ih =>
      obtain ⟨hs, hrest⟩ := List.cons_subset.mp hss
      have hskip (hsame : heed P d s = d) (hno : (s.ticker.any fun k => decide (P k)) = false) :
          (s :: ss).foldl (heed P) d = d.play
            (((s :: ss).filter fun s => s.ticker.any fun k => decide (P k)).map
              (.sweep · .zero)) := by
        rw [List.foldl_cons, hsame, List.filter_cons_of_neg (by simp [hno])]
        exact ih hrest
      cases hticker : s.ticker with
      | none => exact hskip (by simp [heed, hticker]) (by simp [hticker])
      | some k =>
          by_cases hk : P k
          · have hmove : heed P d s = d.move (.sweep s .zero) := by
              rw [move, if_pos hs]
              simp only [heed, hticker]
              exact if_pos hk
            have hsweepers : (d.move (.sweep s .zero)).sweepers = d.sweepers := by
              rw [move, if_pos hs]
              rfl
            rw [List.foldl_cons, hmove, List.filter_cons_of_pos (by simp [hticker, hk])]
            exact ih (hsweepers ▸ hrest)
          · exact hskip (by simp [heed, hticker, hk]) (by simp [hticker, hk])

/-- Sweeps leave those sessions that none of them finds idle for too long. -/
theorem play_sweeps (ss : List Sweeper) (hss : ss ⊆ d.sweepers) :
    d.play (ss.map (.sweep · .zero)) =
      { d with registry := { d.registry with
        entries := d.registry.entries.filter fun e =>
          decide (∀ s ∈ ss, d.now ≤ e.lastActivity + s.maxIdle) } } := by
  induction ss generalizing d with
  | nil => simp [play]
  | cons s ss ih =>
      obtain ⟨hs, hrest⟩ := List.cons_subset.mp hss
      have hmove : d.move (.sweep s .zero) =
          { d with registry := (d.registry.cleanup d.now s.maxIdle).1 } := if_pos hs
      have hplay : d.play ((s :: ss).map (.sweep · .zero)) =
          (d.move (.sweep s .zero)).play (ss.map (.sweep · .zero)) := rfl
      rw [hplay, hmove]
      rw [ih (d := { d with registry := (d.registry.cleanup d.now s.maxIdle).1 }) hrest]
      simp only [Registry.cleanup, List.filter_filter, List.forall_mem_cons]
      congr 2
      apply List.filter_congr
      intro e _
      rw [Bool.and_comm, ← Bool.decide_and, decide_eq_decide, Registry.idle_le_iff]

theorem sweepAt_eq (t : Duration) (d : Desk) :
    d.sweepAt t = { d with
      now := d.now.tickFrom t
      registry := { d.registry with
        entries := d.registry.entries.filter fun e => decide (∀ s ∈ d.heeding (·.next t = t),
          d.now.tickFrom t ≤ e.lastActivity + s.maxIdle) } } := by
  have hall := foldl_heed (d := { d with now := d.now.tickFrom t }) (fun k => k.next t = t)
    d.sweepers (List.Subset.refl _)
  have hsome : d.heeding (·.next t = t) ⊆ d.sweepers := List.filter_subset_self _
  exact hall.trans (play_sweeps (d := { d with now := d.now.tickFrom t }) _ hsome)

theorem move_elapse (h : d.now ≤ t) :
    d.move (.elapse ⟨t.nanos - d.now.nanos⟩) = { d with now := t } := by
  have hnow : d.now + ⟨t.nanos - d.now.nanos⟩ = t := congrArg Duration.mk (Nat.add_sub_cancel' h)
  rw [move, hnow]

theorem sweepAt_eq_play (h : d.now ≤ d.now.tickFrom t) :
    d.sweepAt t = d.play (.elapse ⟨(d.now.tickFrom t).nanos - d.now.nanos⟩ ::
      (d.heeding (·.next t = t)).map (.sweep · .zero)) := by
  rw [play, List.foldl_cons, move_elapse h]
  exact foldl_heed (d := { d with now := d.now.tickFrom t }) (fun k => k.next t = t) d.sweepers
    (List.Subset.refl _)

/-! ## The next sweep that finds something -/

/-- The first moment at which a sweeper finds a session idle for too long. -/
def stale (s : Sweeper) (e : Entry Id String) : Duration :=
  ⟨e.lastActivity.nanos + s.maxIdle.nanos + 1⟩

theorem stale_le_iff {s : Sweeper} {e : Entry Id String} :
    stale s e ≤ t ↔ ¬ t ≤ e.lastActivity + s.maxIdle :=
  Nat.not_le.symm

/-- For each sweeper and each session, the tick at which it would be found idle. -/
def dues (d : Desk) : List Duration :=
  d.sweepers.flatMap fun s =>
    match s.ticker with
    | some ticker => d.registry.entries.map fun e => ticker.nextAfter d.now (stale s e)
    | none => []

theorem due?_eq (d : Desk) : d.due? = earliest? d.dues := rfl

theorem mem_dues : t ∈ d.dues ↔ ∃ s ∈ d.sweepers, ∃ k, s.ticker = some k ∧
    ∃ e ∈ d.registry.entries, k.nextAfter d.now (stale s e) = t := by
  rw [dues, List.mem_flatMap]
  refine exists_congr fun s => and_congr_right fun _ => ?_
  cases s.ticker <;> simp

/-- A tick that finds a session idle for too long comes no earlier than the next sweep. -/
theorem due_of_stale (hd : d.Timed) {s : Sweeper} (hs : s ∈ d.sweepers) {k : Ticker}
    (hk : s.ticker = some k) {n : Nat} (hn : 1 ≤ n) (hnow : d.now < d.now.tickFrom (k.due n))
    {e : Entry Id String} (he : e ∈ d.registry.entries)
    (hstale : ¬ d.now.tickFrom (k.due n) ≤ e.lastActivity + s.maxIdle) :
    ∃ t, d.due? = some t ∧ t ≤ (k.due n).tick := by
  have hmem : k.nextAfter d.now (stale s e) ∈ d.dues := mem_dues.mpr ⟨s, hs, k, hk, e, he, rfl⟩
  have hshown := stale_le_iff.mpr hstale
  have hnext := Ticker.nextAfter_le (hd s hs k hk) hn hnow hshown
  cases hdue : d.due? with
  | none =>
      rw [earliest?_eq_none ((due?_eq d).symm.trans hdue)] at hmem
      cases hmem
  | some t => exact ⟨t, rfl, Nat.le_trans ((earliest?_spec hdue).2 _ hmem) hnext⟩

theorem due?_spec (h : d.due? = some t) : ∃ s ∈ d.sweepers, ∃ k, s.ticker = some k ∧
    ∃ e ∈ d.registry.entries, k.nextAfter d.now (stale s e) = t :=
  mem_dues.mp (earliest?_spec h).1

/-- The next sweep that finds something is a tick, to which the clock moves on. -/
theorem due?_tick (hd : d.Timed) (h : d.due? = some t) : t.tick = t ∧ d.now < d.now.tickFrom t := by
  obtain ⟨s, hs, k, hk, e, he, rfl⟩ := due?_spec h
  obtain ⟨n, -, hnext⟩ := k.exists_nextAfter d.now (stale s e)
  constructor
  · rw [hnext, Duration.tick_tick]
  · exact (Ticker.shows_nextAfter (hd s hs k hk) d.now (stale s e)).1

theorem count_sweepAt_lt (hd : d.Timed) (h : d.due? = some t) :
    (d.sweepAt t).registry.count < d.registry.count := by
  obtain ⟨s, hs, k, hk, e, he, hnext⟩ := due?_spec h
  have hshows := (Ticker.shows_nextAfter (hd s hs k hk) d.now (stale s e)).2
  have hown := k.next_nextAfter (hd s hs k hk) d.now (stale s e)
  rw [hnext] at hshows hown
  have hsweeps : s ∈ d.heeding (·.next t = t) := mem_heeding.mpr ⟨hs, k, hk, hown⟩
  rw [sweepAt_eq]
  apply List.length_filter_lt_length_iff_exists.mpr
  refine ⟨e, he, ?_⟩
  rw [decide_eq_true_eq]
  intro hfresh
  exact stale_le_iff.mp hshows (hfresh s hsweeps)

/-! ## Sleep -/

/-- At no tick since some moment a session was idle for too long that is still there. -/
def Swept (d : Desk) (since : Duration) : Prop :=
  ∀ s ∈ d.sweepers, ∀ k, s.ticker = some k → ∀ n, 1 ≤ n →
    since < d.now.tickFrom (k.due n) → d.now.tickFrom (k.due n) ≤ d.now →
    ∀ e ∈ d.registry.entries, d.now.tickFrom (k.due n) ≤ e.lastActivity + s.maxIdle

/-- What holds of a desk that has slept since it was another one. Its clock keeps its fraction of a
millisecond. -/
structure Slept (start d : Desk) : Prop where
  timed : d.Timed
  reached : ∃ moves, d = start.play moves
  fraction : ∀ t, d.now.tickFrom t = start.now.tickFrom t
  swept : d.Swept start.now

theorem slept_refl (hd : d.Timed) : Slept d d where
  timed := hd
  reached := ⟨[], rfl⟩
  fraction _ := rfl
  swept _ _ _ _ _ _ hafter hbefore := absurd hafter (Nat.not_lt.mpr hbefore)

theorem Slept.elapse (h : Slept start d) (hnow : d.now ≤ start.now.tickFrom wake)
    (hdone : ∀ t, d.due? = some t → ¬ t ≤ start.now.tickFrom wake) :
    Slept start { d with now := start.now.tickFrom wake } where
  timed := h.timed
  reached := by
    obtain ⟨moves, hmoves⟩ := h.reached
    refine ⟨moves ++ [.elapse ⟨(start.now.tickFrom wake).nanos - d.now.nanos⟩], ?_⟩
    rw [play_append, ← hmoves]
    exact (move_elapse hnow).symm
  fraction t := Duration.tickFrom_tickFrom _ _ _
  swept s hs k hk n hn hafter hbefore e he := by
    simp only [Duration.tickFrom_tickFrom] at hafter hbefore ⊢
    rw [← h.fraction] at hafter hbefore ⊢
    by_cases hpast : d.now.tickFrom (k.due n) ≤ d.now
    · exact h.swept s hs k hk n hn hafter hpast e he
    · by_contra hstale
      obtain ⟨t, hdue, hle⟩ := due_of_stale h.timed hs hk hn (Nat.not_le.mp hpast) he hstale
      apply hdone t hdue
      exact Nat.le_trans hle (Nat.le_trans (Duration.tick_le_tickFrom d.now (k.due n)) hbefore)

/-- A sweep that finds something leaves nothing to be found at its tick, and there was nothing
before it. -/
theorem Slept.sweepAt (h : Slept start d) (hdue : d.due? = some t) :
    Slept start (d.sweepAt t) := by
  obtain ⟨htick, hnow⟩ := due?_tick h.timed hdue
  constructor
  · have hreached := sweepAt_eq_play (Nat.le_of_lt hnow)
    rw [hreached]
    exact h.timed.play _
  · obtain ⟨front, hfront⟩ := h.reached
    have hback := sweepAt_eq_play (Nat.le_of_lt hnow)
    rw [hfront, ← play_append] at hback
    exact ⟨_, hfront ▸ hback⟩
  · intro u
    rw [sweepAt_eq]
    exact (Duration.tickFrom_tickFrom _ _ _).trans (h.fraction u)
  · rw [sweepAt_eq]
    intro s hs k hk n hn hafter hbefore e he
    simp only [Duration.tickFrom_tickFrom] at hafter hbefore ⊢
    obtain ⟨he, hfresh⟩ := List.mem_filter.mp he
    rw [decide_eq_true_eq] at hfresh
    by_cases hpast : d.now.tickFrom (k.due n) ≤ d.now
    · exact h.swept s hs k hk n hn hafter hpast e he
    · by_contra hstale
      -- No session is found idle before the next sweep, so this is its tick.
      obtain ⟨t', hdue', hle⟩ := due_of_stale h.timed hs hk hn (Nat.not_le.mp hpast) he hstale
      obtain rfl := Option.some.inj (hdue.symm.trans hdue')
      rw [Duration.tickFrom_le_tickFrom, htick] at hbefore
      have hsame : (k.due n).tick = t := congrArg Duration.mk (Nat.le_antisymm hbefore hle)
      have hown := Ticker.next_tick (h.timed s hs k hk) hn
      rw [hsame] at hown
      have hkept := hfresh s (mem_heeding.mpr ⟨hs, k, hk, hown⟩)
      apply hstale
      rwa [Duration.tickFrom, hsame, ← htick]

/-- With more fuel than there are sessions, nothing is left to be found by the end. -/
theorem Slept.runUntil (h : Slept start d) (hlate : d.now ≤ start.now.tickFrom wake) (fuel : Nat)
    (hfuel : d.registry.count < fuel) :
    let after := runUntil due? Desk.sweepAt (start.now.tickFrom wake) fuel d
    Slept start after ∧ after.now ≤ start.now.tickFrom wake ∧
      ∀ t, after.due? = some t → ¬ t ≤ start.now.tickFrom wake := by
  induction fuel generalizing d with
  | zero => exact absurd hfuel (Nat.not_lt_zero _)
  | succ fuel ih =>
      rw [AgentGateway.runUntil]
      cases hdue : d.due? with
      | none => exact ⟨h, hlate, fun t ht => by rw [hdue] at ht; cases ht⟩
      | some t =>
          simp only
          split_ifs with hle
          · apply ih (h.sweepAt hdue)
            · have htick := (due?_tick h.timed hdue).1
              rw [sweepAt_eq]
              show d.now.tickFrom t ≤ start.now.tickFrom wake
              rw [h.fraction]
              exact Duration.tickFrom_le_of_tick_le (htick.symm ▸ hle)
            · have hcount := count_sweepAt_lt h.timed hdue
              omega
          · refine ⟨h, hlate, fun t' ht' => ?_⟩
            obtain rfl := Option.some.inj (hdue.symm.trans ht')
            exact hle

/-- Sleep is a run of sweeps and of time that passes, and no tick in it is missed. -/
theorem slept_sleep (hd : d.Timed) (time : Duration) : Slept d (d.sleep time) := by
  have hlate : d.now ≤ d.now.tickFrom (d.now + time) :=
    calc d.now.nanos
      _ ≤ (d.now + time).nanos := Nat.le_add_right _ _
      _ ≤ (d.now + time).tick.nanos := Duration.le_tick _
      _ ≤ (d.now.tickFrom (d.now + time)).nanos := Duration.tick_le_tickFrom _ _
  obtain ⟨h, hnow, hdone⟩ := (slept_refl hd).runUntil hlate _ (Nat.lt_succ_self _)
  exact h.elapse hnow hdone

theorem jump_eq_play (d : Desk) (time : Duration) : d.jump time = d.play (.elapse time ::
    (d.heeding fun k => k.nextAfter d.now d.now ≤ d.now + time).map (.sweep · .zero)) :=
  foldl_heed (d := { d with now := d.now + time })
    (fun k => k.nextAfter d.now d.now ≤ d.now + time) d.sweepers (List.Subset.refl _)

/-! ## Activity and eviction -/

/-- What is promised of the sessions of a registry, after any moves since nobody had used it. A
session was last active when it was last registered, looked up or touched, and never at a later
moment; a list, what concerns another session, and a registration that is refused change nothing. A
clean-up removes the sessions whose last activity is too long ago, and no others; a sweep leaves
none of them, and no tick of a sweeper is missed in sleep. A session that is used again and again is
never evicted. -/
structure FollowsActivity (max : Nat) (moves : List Move) (d : Desk) : Prop where
  latest : ∀ {id e}, d.registry.find? id = some e →
    LastActive id ((opening max).log moves) e.lastActivity
  newest : ∀ {id e}, d.registry.find? id = some e → ∀ x ∈ (opening max).log moves,
    x.Activates id → x.moment ≤ e.lastActivity
  aside : ∀ {now a id}, (a = .list ∨ (∃ k, a.id? = some k ∧ id ≠ k) ∨
      ∃ cause, (d.registry.perform now a).2 = .refused cause) →
    (d.registry.perform now a).1.find? id = d.registry.find? id
  cleaned : ∀ now maxIdle, (d.registry.cleanup now maxIdle).1.entries =
      (d.registry.entries.filter fun e => decide (¬ e.lastActivity + maxIdle < now)) ∧
    (d.registry.cleanup now maxIdle).1.count + (d.registry.cleanup now maxIdle).2 =
      d.registry.count
  swept : ∀ s ∈ d.sweepers, ∀ ago, ∀ e ∈ (d.move (.sweep s ago)).registry.entries,
    d.seen ago ≤ e.lastActivity + s.maxIdle
  slept : ∀ time, Slept d (d.sleep time)
  jumped : ∀ time, ∃ later, d.jump time = d.play later
  spared : ∀ {id e gap front back}, d.registry.find? id = some e →
    d.Lively id gap e.lastActivity (front ++ back) → (d.play front).registry.contains id = true

theorem play_followsActivity (max : Nat) (moves : List Move) :
    FollowsActivity max moves ((opening max).play moves) := by
  have htracks := tracks_play (tracks_opening max) moves
  rw [List.nil_append] at htracks
  have htimed := (timed_opening max).play moves
  constructor
  · exact htracks.latest
  · exact htracks.newest
  · rintro now a id (rfl | ⟨k, hk, hne⟩ | ⟨cause, hcause⟩)
    · rfl
    · exact Registry.find?_of_other hk hne
    · rw [Registry.perform_of_refused hcause]
  · intro now maxIdle
    exact ⟨Registry.entries_cleanup _ now maxIdle, Registry.count_cleanup _ now maxIdle⟩
  · intro s hs ago e he
    rw [move, if_pos hs] at he
    have hkept := (List.mem_filter.mp he).2
    rw [decide_eq_true_eq] at hkept
    exact (Registry.idle_le_iff _ _ e).mp hkept
  · intro time
    exact slept_sleep htimed time
  · intro time
    exact ⟨_, jump_eq_play _ time⟩
  · intro id e gap front back he h
    exact h.contains htracks he

/-- A session that has been idle for exactly as long as it may stays, and a list is no activity. -/
example :
    ((opening 2).play [.registerAs "first" "one", .registerAs "second" "two", .elapse ⟨5⟩,
      .touch (.given "second"), .list, .elapse ⟨5⟩, .cleanup ⟨5⟩ .zero]).registry.entries =
      [⟨.given "second", "two", ⟨0⟩, ⟨5⟩⟩] := by
  decide

end Desk

end AgentGateway.Session
