import AgentGateway.Proofs.Session.History

/-!
# A bounded map of sessions

After any run a registry is a map with a bound: it never has more sessions than it may, it turns a
connection away only if that would need one more, and then nothing changes. What it tells is what
its log tells, one identifier at a time.
-/

namespace AgentGateway.Session

variable {ι γ : Type} [DecidableEq ι]

/-- Entries agree except for one identifier, which has a new connection now. -/
structure Registry.Placed (r r' : Registry ι γ) (now : Duration) (id : ι) (connection : γ) :
    Prop where
  placed : r'.find? id = some ⟨id, connection, now, now⟩
  others : ∀ k, k ≠ id → r'.find? k = r.find? k

/-- What is promised of a registry of some size, given the log of all that was done to it. Each
identifier has at most one entry, and its connection, the moment of its registration and its last
activity are those that the log tells of. A registration is refused, and changes nothing, exactly if
it needs a place and there is none left; a session that is there is replaced, which needs no place.
The connection that is got is the latest one that was not removed since, and each session is listed
once. A clean-up removes as many sessions as it says, namely those that have been idle for too long.
-/
structure BoundedMap (max : Nat) (log : List (Record ι γ)) (r : Registry ι γ) : Prop where
  bounded : r.count ≤ max
  single : (r.entries.map (·.id)).Nodup
  stands : ∀ id, (r.find? id).map Entry.standing = standing log id
  refused : ∀ now id connection, (∃ cause, (r.perform now (.register id connection)).2 =
    .refused cause) ↔ r.contains id = false ∧ r.count = max
  untouched : ∀ now id connection cause, (r.perform now (.register id connection)).2 =
    .refused cause →
      cause = .capacityExceeded ("session limit of " ++ toString max ++ " reached") ∧
        (r.perform now (.register id connection)).1 = r
  replaced : ∀ now id connection, r.contains id = true →
    (r.perform now (.register id connection)).2 = .done ∧
      (r.perform now (.register id connection)).1.count = r.count ∧
      r.Placed (r.perform now (.register id connection)).1 now id connection
  added : ∀ now id connection, r.contains id = false → r.count < max →
    (r.perform now (.register id connection)).2 = .done ∧
      (r.perform now (.register id connection)).1.count = r.count + 1 ∧
      r.Placed (r.perform now (.register id connection)).1 now id connection
  got : ∀ now id connection,
    (r.perform now (.get id)).2 = .found (some connection) ↔ Latest log id connection
  listed : ∀ now, ((r.list now).map (·.id)).Nodup ∧
    ∀ info : Info ι, info ∈ r.list now ↔ ∃ s, standing log info.id = some s ∧
      info.connectedAt = s.connectedAt ∧ info.idleSeconds = (s.idle now).seconds
  cleaned : ∀ now maxIdle, ∃ n, (r.perform now (.cleanup maxIdle)).2 = .number n ∧
    (r.perform now (.cleanup maxIdle)).1.count + n = r.count ∧
    ∀ id, (r.perform now (.cleanup maxIdle)).1.find? id =
      (r.find? id).filter fun e => decide (e.standing.idle now ≤ maxIdle)
  cleared : ∀ now, (r.perform now .shutdown).2 = .number r.count ∧
    (r.perform now .shutdown).1.entries = []

namespace Registry

variable {max : Nat} {log : List (Record ι γ)} {r : Registry ι γ}

/-- A connection that is registered takes the place of its identifier and no other. -/
theorem placed_seat (r : Registry ι γ) (now : Duration) (id : ι) (connection : γ) :
    r.Placed (r.seat now id connection) now id connection := by
  constructor
  · rw [find?_seat, if_pos rfl]
  · intro k hk
    rw [find?_seat, if_neg hk]

theorem Agrees.mem_list (h : Agrees max r log) (now : Duration) (info : Info ι) :
    info ∈ r.list now ↔ ∃ s, standing log info.id = some s ∧
      info.connectedAt = s.connectedAt ∧ info.idleSeconds = (s.idle now).seconds := by
  rw [← h.stands, list, List.mem_map]
  constructor
  · rintro ⟨e, he, rfl⟩
    refine ⟨e.standing, ?_, rfl, rfl⟩
    rw [(find?_eq_some_iff h.sound.ids).mpr ⟨he, rfl⟩, Option.map_some]
  · rintro ⟨s, hs, hconnected, hidle⟩
    obtain ⟨e, hfind, rfl⟩ := Option.map_eq_some_iff.mp hs
    obtain ⟨he, hid⟩ := (find?_eq_some_iff h.sound.ids).mp hfind
    refine ⟨e, he, ?_⟩
    obtain ⟨id, connectedAt, idleSeconds⟩ := info
    simp only at hid hconnected hidle
    rw [hid, hconnected, hidle]
    rfl

theorem Agrees.boundedMap (h : Agrees max r log) : BoundedMap max log r := by
  have hbounded : r.count ≤ max := h.size ▸ h.sound.bounded
  have hregister := perform_register r
  rw [h.size] at hregister
  -- A registry is full exactly if it has as many sessions as it may have.
  have hfull (id : ι) : (r.contains id = false ∧ max ≤ r.count) ↔
      r.contains id = false ∧ r.count = max := by
    constructor
    · rintro ⟨hno, hle⟩
      exact ⟨hno, Nat.le_antisymm hbounded hle⟩
    · rintro ⟨hno, heq⟩
      exact ⟨hno, Nat.le_of_eq heq.symm⟩
  constructor
  case bounded => exact hbounded
  case single => exact h.sound.ids
  case stands => exact h.stands
  case refused =>
    intro now id connection
    rw [hregister, ← hfull]
    split_ifs with hno <;> simp [hno]
  case untouched =>
    intro now id connection cause
    rw [hregister]
    split_ifs with hno
    · rintro ⟨⟩
      exact ⟨rfl, rfl⟩
    · rintro ⟨⟩
  case replaced =>
    intro now id connection hthere
    have hcount := count_seat h.sound.ids now id connection
    rw [if_pos hthere] at hcount
    rw [hregister, if_neg (by simp [hthere])]
    exact ⟨rfl, hcount, placed_seat r now id connection⟩
  case added =>
    intro now id connection hno hroom
    have hcount := count_seat h.sound.ids now id connection
    rw [if_neg (by simp [hno])] at hcount
    rw [hregister, if_neg (by omega)]
    exact ⟨rfl, hcount, placed_seat r now id connection⟩
  case got =>
    intro now id connection
    rw [latest_iff, ← h.stands, Option.map_map]
    exact ⟨Answer.found.inj, congrArg Answer.found⟩
  case listed =>
    intro now
    constructor
    · rw [list, List.map_map]
      exact h.sound.ids
    · exact h.mem_list now
  case cleaned =>
    intro now maxIdle
    exact ⟨_, rfl, count_cleanup r now maxIdle, find?_cleanup h.sound.ids now maxIdle⟩
  case cleared =>
    intro now
    exact ⟨rfl, rfl⟩

/-- Whatever is done to a registry, it is the bounded map that its log tells of. -/
theorem run_boundedMap (max : Nat) (acts : List (Duration × Action ι γ)) :
    BoundedMap max (({ maxSessions := max } : Registry ι γ).log acts)
      (({ maxSessions := max } : Registry ι γ).run acts) := by
  have hrun := (agrees_empty (ι := ι) (γ := γ) max).run acts
  rw [List.nil_append] at hrun
  exact hrun.boundedMap

end Registry

end AgentGateway.Session
