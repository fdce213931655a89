import AgentGateway.Proofs.Session.History

/-!
# Last activity

A session is active when it is registered, and when it is looked up or touched while it is there.
After an action a session that was active with it was last active at that moment, and one that was
not is what it was before, if it is still there. So as long as no moment is earlier than the one
before, every session knows when it was last active (`Registry.Tracks.perform`), and it is removed
for being idle only if it has not been used since.
-/

namespace AgentGateway.Session

variable {ι γ : Type} [DecidableEq ι]

namespace Action

def id? : Action ι γ → Option ι
  | register id _ | get id | touch id | unregister id => some id
  | cleanup _ | list | shutdown => none

/-- Whether an action uses the session of an identifier, successfully or not. -/
def uses (id : ι) : Action ι γ → Bool
  | register k _ | get k | touch k => decide (k = id)
  | unregister _ | cleanup _ | list | shutdown => false

end Action

/-- The session of an identifier was used successfully. -/
inductive Record.Activates (id : ι) : Record ι γ → Prop
  | registered (moment : Duration) (connection : γ) :
      Activates id ⟨moment, .register id connection, .done⟩
  | got (moment : Duration) (connection : γ) :
      Activates id ⟨moment, .get id, .found (some connection)⟩
  | touched (moment : Duration) : Activates id ⟨moment, .touch id, .known true⟩

theorem Record.Activates.uses {x : Record ι γ} {id : ι} (h : x.Activates id) :
    x.action.uses id = true := by
  cases h <;> exact decide_eq_true rfl

/-- The moment at which a session was used successfully for the last time. -/
inductive LastActive (id : ι) : List (Record ι γ) → Duration → Prop
  | active {log : List (Record ι γ)} {x : Record ι γ} (h : x.Activates id) :
      LastActive id (log ++ [x]) x.moment
  | passive {log : List (Record ι γ)} {x : Record ι γ} {moment : Duration}
      (h : LastActive id log moment) (hx : ¬ x.Activates id) : LastActive id (log ++ [x]) moment

namespace Registry

variable {r : Registry ι γ} {now : Duration} {a : Action ι γ} {id : ι}

theorem find?_of_activates (h : (r.record now a).Activates id) :
    ∃ e, (r.perform now a).1.find? id = some e ∧ e.lastActivity = now := by
  generalize hx : r.record now a = x at h
  have haction : a = x.action := by rw [← hx]; rfl
  have hanswer : (r.perform now a).2 = x.answer := by rw [← hx]; rfl
  cases h with
  | registered moment connection =>
      subst haction
      simp only [perform_register] at hanswer ⊢
      split_ifs at hanswer ⊢
      exact ⟨_, (find?_seat r now id connection id).trans (if_pos rfl), rfl⟩
  | got moment connection =>
      subst haction
      obtain ⟨e, he, -⟩ := Option.map_eq_some_iff.mp (Answer.found.inj hanswer)
      have hfind := find?_touch r now id id
      rw [if_pos rfl, he] at hfind
      exact ⟨_, hfind, rfl⟩
  | touched moment =>
      subst haction
      have hthere : r.contains id = true := by
        have hknown := Answer.known.inj hanswer
        unfold touch at hknown
        split at hknown
        · assumption
        · cases hknown
      obtain ⟨e, he⟩ := Option.isSome_iff_exists.mp hthere
      have hfind := find?_touch r now id id
      rw [if_pos rfl, he] at hfind
      exact ⟨_, hfind, rfl⟩

/-- A session that was not active is what it was, if it is still there. -/
theorem find?_of_not_activates (hids : (r.entries.map (·.id)).Nodup)
    (h : ¬ (r.record now a).Activates id) {e : Entry ι γ}
    (he : (r.perform now a).1.find? id = some e) : r.find? id = some e := by
  cases a with
  | register k connection =>
      rw [record] at h
      simp only [perform_register] at h he
      split_ifs at h he
      · exact he
      · rw [find?_seat] at he
        split_ifs at he with hk
        · subst hk
          exact absurd (.registered now connection) h
        · exact he
  | get k =>
      have hfind := (find?_touch r now k id).symm.trans he
      split_ifs at hfind with hk
      · subst hk
        obtain ⟨e', he', -⟩ := Option.map_eq_some_iff.mp hfind
        have hanswer : r.record now (.get id) = ⟨now, .get id, .found (some e'.connection)⟩ := by
          rw [record, perform, get, he', Option.map_some]
        rw [hanswer] at h
        exact absurd (.got now e'.connection) h
      · exact hfind
  | touch k =>
      have hfind := (find?_touch r now k id).symm.trans he
      split_ifs at hfind with hk
      · subst hk
        obtain ⟨e', he', -⟩ := Option.map_eq_some_iff.mp hfind
        have hanswer : r.record now (.touch id) = ⟨now, .touch id, .known true⟩ := by
          rw [record, perform, touch, contains, he', Option.isSome_some, if_pos rfl]
        rw [hanswer] at h
        exact absurd (.touched now) h
      · exact hfind
  | unregister k =>
      have hfind := (find?_unregister r k id).symm.trans he
      split_ifs at hfind
      exact hfind
  | cleanup maxIdle =>
      have hfind := (find?_cleanup hids now maxIdle id).symm.trans he
      exact (Option.filter_eq_some_iff.mp hfind).1
  | list => exact he
  | shutdown => cases he

theorem find?_of_other {k : ι} (hk : a.id? = some k) (hne : id ≠ k) :
    (r.perform now a).1.find? id = r.find? id := by
  cases a with
  | register j connection =>
      obtain rfl := Option.some.inj hk
      rw [perform_register]
      split_ifs
      · rfl
      · exact (find?_seat r now j connection id).trans (if_neg hne)
  | get j | touch j =>
      obtain rfl := Option.some.inj hk
      exact (find?_touch r now j id).trans (if_neg hne)
  | unregister j =>
      obtain rfl := Option.some.inj hk
      exact (find?_unregister r j id).trans (if_neg hne)
  | cleanup | list | shutdown => cases hk

theorem perform_of_refused {cause : Failure} (h : (r.perform now a).2 = .refused cause) :
    (r.perform now a).1 = r := by
  cases a with
  | register k connection =>
      rw [perform_register] at h ⊢
      split_ifs at h ⊢
      rfl
  | get | touch | unregister | cleanup | list | shutdown => cases h

omit [DecidableEq ι] in
theorem idle_le_iff (now maxIdle : Duration) (e : Entry ι γ) :
    Entry.idle now e ≤ maxIdle ↔ now ≤ e.lastActivity + maxIdle :=
  Nat.sub_le_iff_le_add'

omit [DecidableEq ι] in
/-- Those are removed whose last activity is too long ago, and the others stay in their order. -/
theorem entries_cleanup (r : Registry ι γ) (now maxIdle : Duration) :
    (r.cleanup now maxIdle).1.entries =
      r.entries.filter fun e => decide (¬ e.lastActivity + maxIdle < now) := by
  apply List.filter_congr
  intro e _
  rw [decide_eq_decide, idle_le_iff]
  exact Nat.not_lt.symm

/-- A session that is used, if it is there, is there afterwards, and was last active just now. -/
theorem find?_of_uses (now : Duration) (h : a.uses id = true) (hthere : r.contains id = true) :
    ∃ e, (r.perform now a).1.find? id = some e ∧ e.lastActivity = now := by
  apply find?_of_activates
  obtain ⟨e, he⟩ := Option.isSome_iff_exists.mp hthere
  cases a with
  | register k connection =>
      obtain rfl := of_decide_eq_true h
      rw [record, perform_register, if_neg (by simp [hthere])]
      exact .registered now connection
  | get k =>
      obtain rfl := of_decide_eq_true h
      rw [record, perform, get, he, Option.map_some]
      exact .got now e.connection
  | touch k =>
      obtain rfl := of_decide_eq_true h
      rw [record, perform, touch, if_pos hthere]
      exact .touched now
  | unregister | cleanup | list | shutdown => cases h

/-- A session stays as it is when it is neither used nor removed. -/
theorem find?_of_idle {e : Entry ι γ} (hids : (r.entries.map (·.id)).Nodup)
    (he : r.find? id = some e) (huses : a.uses id = false) (hunregister : a ≠ .unregister id)
    (hshutdown : a ≠ .shutdown)
    (hcleanup : ∀ maxIdle, a = .cleanup maxIdle → now ≤ e.lastActivity + maxIdle) :
    (r.perform now a).1.find? id = some e := by
  cases a with
  | register k connection | get k | touch k =>
      have hne : id ≠ k := Ne.symm (of_decide_eq_false huses)
      exact (find?_of_other rfl hne).trans he
  | unregister k =>
      have hne : id ≠ k := by
        rintro rfl
        exact hunregister rfl
      exact (find?_of_other rfl hne).trans he
  | cleanup maxIdle =>
      have hstays := (idle_le_iff now maxIdle e).mpr (hcleanup maxIdle rfl)
      refine (find?_cleanup hids now maxIdle id).trans ?_
      rw [he, Option.filter_some, if_pos (decide_eq_true hstays)]
  | list => exact he
  | shutdown => exact absurd rfl hshutdown

/-- Every session knows when it was last active, by a log that ends no later than now. -/
structure Tracks (max : Nat) (r : Registry ι γ) (log : List (Record ι γ)) (now : Duration) :
    Prop extends Agrees max r log where
  latest : ∀ {id e}, r.find? id = some e → LastActive id log e.lastActivity
  newest : ∀ {id e}, r.find? id = some e → ∀ x ∈ log, x.Activates id → x.moment ≤ e.lastActivity
  past : ∀ x ∈ log, x.moment ≤ now

variable {max : Nat} {log : List (Record ι γ)}

/-- Whoever uses a session reads the clock as it stands; a clean-up may have read it before. -/
theorem Tracks.perform (h : Tracks max r log now) {moment : Duration} (hpast : moment ≤ now)
    (hclock : ∀ id, a.uses id = true → moment = now) :
    Tracks max (r.perform moment a).1 (log ++ [r.record moment a]) now where
  toAgrees := h.toAgrees.perform moment a
  latest {id e} he := by
    by_cases hactive : (r.record moment a).Activates id
    · obtain ⟨e', he', hlast⟩ := find?_of_activates hactive
      obtain rfl := Option.some.inj (he.symm.trans he')
      rw [hlast]
      exact .active hactive
    · exact .passive (h.latest (find?_of_not_activates h.sound.ids hactive he)) hactive
  newest {id e} he x hx hactivates := by
    by_cases hactive : (r.record moment a).Activates id
    · obtain ⟨e', he', hlast⟩ := find?_of_activates hactive
      obtain rfl := Option.some.inj (he.symm.trans he')
      rw [hlast, hclock id hactive.uses]
      rcases List.mem_append.mp hx with hx | hx
      · exact h.past x hx
      · rw [List.mem_singleton.mp hx]
        exact hpast
    · have hbefore := find?_of_not_activates h.sound.ids hactive he
      rcases List.mem_append.mp hx with hx | hx
      · exact h.newest hbefore x hx hactivates
      · rw [List.mem_singleton.mp hx] at hactivates
        exact absurd hactivates hactive
  past x hx := by
    rcases List.mem_append.mp hx with hx | hx
    · exact h.past x hx
    · rw [List.mem_singleton.mp hx]
      exact hpast

theorem Tracks.later (h : Tracks max r log now) {later : Duration} (hlater : now ≤ later) :
    Tracks max r log later where
  toAgrees := h.toAgrees
  latest := h.latest
  newest := h.newest
  past x hx := Nat.le_trans (h.past x hx) hlater

end Registry

end AgentGateway.Session
