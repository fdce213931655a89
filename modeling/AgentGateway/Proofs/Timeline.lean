import AgentGateway.Timeline
import Mathlib.Data.List.Induction

/-!
# Ticks

When the ticks of a ticker go off, and which of them comes next. The clock keeps its fraction of a
millisecond from timer to timer, and a timer goes off once the clock shows the moment for which it
is set. The tick that comes next after a moment is the first one at which the clock shows it
(`Ticker.shows_nextAfter`, `Ticker.nextAfter_le`).
-/

namespace AgentGateway

namespace Duration

theorem tick_mono {a b : Duration} (h : a ≤ b) : a.tick ≤ b.tick := by
  simp only [le_def, tick, ofMillis, ceilMillis, nanosPerMilli] at h ⊢
  omega

theorem tick_tick (d : Duration) : d.tick.tick = d.tick := by
  simp only [tick, ofMillis, ceilMillis, nanosPerMilli, mk.injEq]
  omega

theorem tickFrom_tickFrom (now t d : Duration) : (now.tickFrom t).tickFrom d = now.tickFrom d := by
  simp only [tickFrom, tick, ofMillis, ceilMillis, nanosPerMilli, mk.injEq]
  omega

theorem tick_le_tickFrom (now t : Duration) : t.tick ≤ now.tickFrom t := Nat.le_add_right _ _

/-- Timers that are set for whole milliseconds go off in the order of the moments for which they
are set. -/
theorem tickFrom_le_tickFrom (now t d : Duration) :
    now.tickFrom t ≤ now.tickFrom d ↔ t.tick ≤ d.tick :=
  Nat.add_le_add_iff_right

/-- A timer that goes off at a whole millisecond by a moment is one that the clock then shows. -/
theorem tickFrom_le_of_tick_le {now t d : Duration} (h : t.tick ≤ now.tickFrom d) :
    now.tickFrom t ≤ now.tickFrom d := by
  have hfraction : now.nanos % nanosPerMilli < nanosPerMilli := Nat.mod_lt _ (by decide)
  rw [tickFrom_le_tickFrom]
  simp only [le_def, tickFrom, tick, ofMillis, nanosPerMilli] at h hfraction ⊢
  have hmillis : t.ceilMillis ≤ d.ceilMillis := by omega
  exact Nat.mul_le_mul_right _ hmillis

/-- When the clock will have moved by the time that a timer goes off. -/
theorem lt_tickFrom_iff {now t : Duration} :
    now < now.tickFrom t ↔ (⟨now.nanos + 1⟩ : Duration).tick ≤ t.tick := by
  simp only [lt_def, le_def, tickFrom, tick, ofMillis]
  generalize t.ceilMillis = millis
  simp only [ceilMillis, nanosPerMilli]
  omega

/-- When the clock will show a moment by the time that a timer goes off. -/
theorem le_tickFrom_iff {now t moment : Duration} : moment ≤ now.tickFrom t ↔
    (⟨moment.nanos - now.nanos % nanosPerMilli⟩ : Duration).tick ≤ t.tick := by
  simp only [le_def, tickFrom, tick, ofMillis]
  generalize t.ceilMillis = millis
  simp only [ceilMillis, nanosPerMilli]
  omega

end Duration

/-! ## The earliest moment -/

theorem earliest?_concat (moments : List Duration) (t : Duration) :
    earliest? (moments ++ [t]) = some (match earliest? moments with
      | some b => b.min t
      | none => t) := by
  rw [earliest?, List.foldl_append]
  rfl

theorem earliest?_eq_none {moments : List Duration} (h : earliest? moments = none) :
    moments = [] := by
  induction moments using List.reverseRecOn with
  | nil => rfl
  | append_singleton moments t _ =>
      rw [earliest?_concat] at h
      cases h

theorem earliest?_spec {moments : List Duration} {t : Duration} (h : earliest? moments = some t) :
    t ∈ moments ∧ ∀ u ∈ moments, t ≤ u := by
  induction moments using List.reverseRecOn generalizing t with
  | nil => cases h
  | append_singleton moments last ih =>
      rw [earliest?_concat] at h
      cases hfront : earliest? moments with
      | none =>
          rw [hfront] at h
          obtain rfl := Option.some.inj h
          rw [earliest?_eq_none hfront]
          simp [Duration.le_def]
      | some b =>
          rw [hfront] at h
          obtain rfl := Option.some.inj h
          obtain ⟨hmem, hle⟩ := ih hfront
          simp only [Duration.min, List.mem_append, List.mem_singleton]
          split_ifs with hb
          · refine ⟨.inl hmem, ?_⟩
            rintro u (hu | rfl)
            · exact hle u hu
            · exact hb
          · have hlast : last ≤ b := Nat.le_of_not_le hb
            refine ⟨.inr rfl, ?_⟩
            rintro u (hu | rfl)
            · exact Nat.le_trans hlast (hle u hu)
            · exact Nat.le_refl _

namespace Ticker

variable {k : Ticker} {n : Nat} {now moment : Duration}

def due (k : Ticker) (n : Nat) : Duration := ⟨k.start.nanos + n * k.period.nanos⟩

theorem periods_le_iff {period : Nat} (hperiod : 0 < period) (span n : Nat) :
    (span + (period - 1)) / period ≤ n ↔ span ≤ n * period := by
  rw [← Nat.lt_succ_iff, Nat.div_lt_iff_lt_mul hperiod, Nat.succ_mul]
  omega

theorem exists_next (k : Ticker) (moment : Duration) :
    ∃ n, 1 ≤ n ∧ k.next moment = (k.due n).tick :=
  ⟨_, Nat.le_max_left _ _, rfl⟩

theorem tick_le_next (hk : 0 < k.period.nanos) (moment : Duration) :
    moment.tick ≤ k.next moment := by
  rw [next]
  generalize hspan : moment.tick.nanos - (Duration.nanosPerMilli - 1) - k.start.nanos = span
  have hcover : span ≤ max 1 ((span + (k.period.nanos - 1)) / k.period.nanos) * k.period.nanos := by
    rw [← periods_le_iff hk]
    exact Nat.le_max_right _ _
  generalize max 1 ((span + (k.period.nanos - 1)) / k.period.nanos) * k.period.nanos = passed
    at hcover ⊢
  simp only [Duration.le_def, Duration.tick, Duration.ofMillis, Duration.ceilMillis,
    Duration.nanosPerMilli] at hspan ⊢
  omega

theorem next_le (hk : 0 < k.period.nanos) (hn : 1 ≤ n) (h : moment.tick ≤ (k.due n).tick) :
    k.next moment ≤ (k.due n).tick := by
  apply Duration.tick_mono
  apply Nat.add_le_add_left
  apply Nat.mul_le_mul_right
  apply Nat.max_le.mpr
  refine ⟨hn, (periods_le_iff hk _ _).mpr ?_⟩
  simp only [Duration.le_def, Duration.tick, Duration.ofMillis, Duration.ceilMillis,
    Duration.nanosPerMilli, due] at h ⊢
  generalize n * k.period.nanos = passed at h ⊢
  omega

/-- At the tick that comes next after a moment, the clock has moved and shows the moment. -/
theorem shows_nextAfter (hk : 0 < k.period.nanos) (now moment : Duration) :
    now < now.tickFrom (k.nextAfter now moment) ∧
      moment ≤ now.tickFrom (k.nextAfter now moment) := by
  unfold nextAfter
  split_ifs with hmoment
  · have hmoves := Duration.lt_tickFrom_iff.mpr
      (Nat.le_trans (tick_le_next hk ⟨now.nanos + 1⟩) (Duration.le_tick _))
    exact ⟨hmoves, Nat.le_trans hmoment (Nat.le_of_lt hmoves)⟩
  · have hshows := Duration.le_tickFrom_iff.mpr (Nat.le_trans
      (tick_le_next hk ⟨moment.nanos - now.nanos % Duration.nanosPerMilli⟩) (Duration.le_tick _))
    exact ⟨Nat.lt_of_lt_of_le (Nat.not_le.mp hmoment) hshows, hshows⟩

theorem nextAfter_le (hk : 0 < k.period.nanos) (hn : 1 ≤ n) (hnow : now < now.tickFrom (k.due n))
    (hmoment : moment ≤ now.tickFrom (k.due n)) : k.nextAfter now moment ≤ (k.due n).tick := by
  apply next_le hk hn
  split_ifs
  · exact Duration.lt_tickFrom_iff.mp hnow
  · exact Duration.le_tickFrom_iff.mp hmoment

theorem exists_nextAfter (k : Ticker) (now moment : Duration) :
    ∃ n, 1 ≤ n ∧ k.nextAfter now moment = (k.due n).tick := k.exists_next _

theorem next_tick (hk : 0 < k.period.nanos) (hn : 1 ≤ n) :
    k.next (k.due n).tick = (k.due n).tick := by
  have hat : (k.due n).tick.tick = (k.due n).tick := Duration.tick_tick _
  have hle := next_le hk hn (Nat.le_of_eq (congrArg Duration.nanos hat))
  have hge := tick_le_next hk (k.due n).tick
  rw [hat] at hge
  exact congrArg Duration.mk (Nat.le_antisymm hle hge)

theorem next_nextAfter (k : Ticker) (hk : 0 < k.period.nanos) (now moment : Duration) :
    k.next (k.nextAfter now moment) = k.nextAfter now moment := by
  obtain ⟨n, hn, hnext⟩ := k.exists_nextAfter now moment
  rw [hnext, next_tick hk hn]

end Ticker

end AgentGateway
