import AgentGateway.Session.Registry
import Mathlib.Data.List.Nodup

/-!
# The entry of one identifier

What each operation of a registry makes of the entry of each identifier, and of the number of
entries. An operation that names an identifier leaves the entries of all others as they are
(`Registry.find?_touch`, `Registry.find?_unregister`, `Registry.find?_seat`); an idle entry goes
whatever its identifier (`Registry.find?_cleanup`).
-/

namespace AgentGateway.Session.Registry

variable {ι γ : Type} [DecidableEq ι] {r : Registry ι γ} {id : ι}

/-- Each identifier has at most one entry, and there are no more entries than there may be. -/
structure Sound (r : Registry ι γ) : Prop where
  ids : (r.entries.map (·.id)).Nodup
  bounded : r.count ≤ r.maxSessions

omit [DecidableEq ι] in
theorem sound_empty (max : Nat) : ({ maxSessions := max } : Registry ι γ).Sound where
  ids := List.nodup_nil
  bounded := Nat.zero_le max

theorem contains_iff : r.contains id = true ↔ ∃ e ∈ r.entries, e.id = id := by
  simp [contains, find?, List.find?_isSome]

theorem contains_eq_false_iff : r.contains id = false ↔ ∀ e ∈ r.entries, e.id ≠ id := by
  simp [contains, find?]

theorem id_of_find? {e : Entry ι γ} (h : r.find? id = some e) : e.id = id := by
  simpa using List.find?_some h

theorem find?_eq_some_iff (h : (r.entries.map (·.id)).Nodup) {e : Entry ι γ} :
    r.find? id = some e ↔ e ∈ r.entries ∧ e.id = id := by
  constructor
  · intro hfind
    exact ⟨List.mem_of_find?_eq_some hfind, id_of_find? hfind⟩
  · rintro ⟨he, rfl⟩
    obtain ⟨f, hfind⟩ : ∃ f, r.find? e.id = some f :=
      Option.isSome_iff_exists.mp (contains_iff.mpr ⟨e, he, rfl⟩)
    have hf := List.mem_of_find?_eq_some hfind
    rw [hfind, List.inj_on_of_nodup_map h hf he (id_of_find? hfind)]

/-! ## Operations that name an identifier -/

theorem find?_unregister (r : Registry ι γ) (id k : ι) :
    (r.unregister id).find? k = if k = id then none else r.find? k := by
  unfold unregister find?
  rw [List.find?_filter]
  split_ifs with hk
  · apply List.find?_eq_none.mpr
    intro e _
    simp [hk]
  · congr 1
    funext e
    by_cases he : e.id = k <;> simp [he, hk]

theorem find?_touch (r : Registry ι γ) (now : Duration) (id k : ι) :
    (r.touch now id).1.find? k =
      if k = id then (r.find? k).map fun e => { e with lastActivity := now } else r.find? k := by
  unfold touch
  split
  next =>
    -- Whichever entries are noted as active, all keep their identifiers.
    have hid (e : Entry ι γ) :
        (if e.id = id then { e with lastActivity := now } else e).id = e.id := by
      split <;> rfl
    unfold find?
    rw [List.find?_map]
    simp only [Function.comp_def, hid]
    cases hfind : r.entries.find? fun e => decide (e.id = k) with
    | none => simp
    | some e =>
        have he : e.id = k := id_of_find? hfind
        by_cases hk : k = id <;> simp [he, hk]
  next hno =>
    have hnone : r.find? id = none := by simpa [contains] using hno
    split_ifs with hk
    · rw [hk, hnone, Option.map_none]
    · rfl

theorem contains_unregister (r : Registry ι γ) (id k : ι) :
    (r.unregister id).contains k = (decide (k ≠ id) && r.contains k) := by
  rw [contains, find?_unregister]
  by_cases hk : k = id <;> simp [hk, contains]

theorem contains_touch (r : Registry ι γ) (now : Duration) (id k : ι) :
    (r.touch now id).1.contains k = r.contains k := by
  rw [contains, find?_touch]
  by_cases hk : k = id <;> simp [hk, contains]

/-- Nothing is registered because something else is removed. -/
theorem contains_of_filter {p : Entry ι γ → Bool} {k : ι}
    (h : ({ r with entries := r.entries.filter p } : Registry ι γ).contains k = true) :
    r.contains k = true := by
  obtain ⟨e, he, hid⟩ := contains_iff.mp h
  exact contains_iff.mpr ⟨e, List.mem_of_mem_filter he, hid⟩

theorem count_touch (r : Registry ι γ) (now : Duration) (id : ι) :
    (r.touch now id).1.count = r.count := by
  unfold touch
  split
  · exact List.length_map _
  · rfl

theorem Sound.touch (h : r.Sound) (now : Duration) (id : ι) : (r.touch now id).1.Sound := by
  constructor
  · have hsame : (r.touch now id).1.entries.map (·.id) = r.entries.map (·.id) := by
      unfold Registry.touch
      split
      · rw [List.map_map]
        apply List.map_congr_left
        intro e _
        rw [Function.comp_apply]
        split <;> rfl
      · rfl
    rw [hsame]
    exact h.ids
  · have hmax : (r.touch now id).1.maxSessions = r.maxSessions := by
      unfold Registry.touch
      split <;> rfl
    rw [count_touch, hmax]
    exact h.bounded

omit [DecidableEq ι] in
theorem Sound.filter (h : r.Sound) (p : Entry ι γ → Bool) :
    ({ r with entries := r.entries.filter p } : Registry ι γ).Sound where
  ids := h.ids.sublist (List.filter_sublist.map _)
  bounded := Nat.le_trans (List.length_filter_le p r.entries) h.bounded

/-! ## Registration -/

/-- A connection takes the place of the one with its identifier, or a new place. -/
def seat (r : Registry ι γ) (now : Duration) (id : ι) (connection : γ) : Registry ι γ :=
  { r with entries := (r.unregister id).entries ++ [⟨id, connection, now, now⟩] }

theorem register_eq (r : Registry ι γ) (now : Duration) (id : ι) (connection : γ) :
    r.register now id connection =
      if r.contains id = false ∧ r.maxSessions ≤ r.count then .error (limitReached r.maxSessions)
      else .ok (r.seat now id connection) := by
  unfold register
  simp only [Bool.not_eq_true']
  split <;> rfl

theorem find?_seat (r : Registry ι γ) (now : Duration) (id : ι) (connection : γ) (k : ι) :
    (r.seat now id connection).find? k =
      if k = id then some ⟨id, connection, now, now⟩ else r.find? k := by
  have hrest := find?_unregister r id k
  unfold find? at hrest ⊢
  rw [seat, List.find?_append, hrest]
  split_ifs with hk
  · simp [hk]
  · simp [Ne.symm hk]

theorem unregister_of_not_contains (h : r.contains id = false) : r.unregister id = r := by
  have hkeep : r.entries.filter (fun e => decide (e.id ≠ id)) = r.entries := by
    apply List.filter_eq_self.mpr
    intro e he
    simpa using contains_eq_false_iff.mp h e he
  rw [unregister, hkeep]

/-- Of the entries, one has an identifier that is registered. -/
theorem count_unregister (hids : (r.entries.map (·.id)).Nodup) (h : r.contains id = true) :
    (r.unregister id).count + 1 = r.count := by
  have hone : r.entries.countP (fun e => decide (e.id = id)) = 1 := by
    obtain ⟨e, he, rfl⟩ := contains_iff.mp h
    have hmem : e.id ∈ r.entries.map (·.id) := List.mem_map_of_mem he
    have hcount := List.count_eq_one_of_mem hids hmem
    rw [List.count, List.countP_map] at hcount
    exact hcount
  have hall := List.length_eq_countP_add_countP (l := r.entries) fun e => decide (e.id = id)
  have hrest : (r.unregister id).count = r.entries.countP fun e => !decide (e.id = id) := by
    simp [count, unregister, List.countP_eq_length_filter]
  simp only [decide_eq_true_eq, decide_not] at hall
  rw [hrest, count]
  omega

theorem count_seat (hids : (r.entries.map (·.id)).Nodup) (now : Duration) (id : ι)
    (connection : γ) :
    (r.seat now id connection).count = if r.contains id then r.count else r.count + 1 := by
  have happend : (r.seat now id connection).count = (r.unregister id).count + 1 := by
    simp [count, seat]
  rw [happend]
  split_ifs with h
  · exact count_unregister hids h
  · rw [unregister_of_not_contains (by simpa using h)]

theorem Sound.seat (h : r.Sound) (now : Duration) (connection : γ)
    (hroom : r.contains id = true ∨ r.count < r.maxSessions) :
    (r.seat now id connection).Sound := by
  constructor
  · rw [Registry.seat, List.map_append, List.nodup_append]
    refine ⟨(h.filter _).ids, List.nodup_singleton _, ?_⟩
    intro k hk l hl
    obtain ⟨e, he, rfl⟩ := List.mem_map.mp hk
    rw [List.mem_singleton.mp hl]
    simpa using (List.mem_filter.mp he).2
  · have hcount := count_seat h.ids now id connection
    have hbounded := h.bounded
    show (r.seat now id connection).count ≤ r.maxSessions
    split_ifs at hcount with hthere
    · omega
    · have := hroom.resolve_left hthere
      omega

/-! ## Cleaning up -/

theorem find?_cleanup (hids : (r.entries.map (·.id)).Nodup) (now maxIdle : Duration) (k : ι) :
    (r.cleanup now maxIdle).1.find? k =
      (r.find? k).filter fun e => decide (Entry.idle now e ≤ maxIdle) := by
  have hkept : ((r.cleanup now maxIdle).1.entries.map (·.id)).Nodup :=
    hids.sublist (List.filter_sublist.map _)
  ext e
  rw [find?_eq_some_iff hkept, Option.filter_eq_some_iff, find?_eq_some_iff hids]
  simp only [cleanup, List.mem_filter]
  tauto

omit [DecidableEq ι] in
theorem count_cleanup (r : Registry ι γ) (now maxIdle : Duration) :
    (r.cleanup now maxIdle).1.count + (r.cleanup now maxIdle).2 = r.count := by
  have hle := List.length_filter_le (fun e : Entry ι γ => decide (Entry.idle now e ≤ maxIdle))
    r.entries
  simp only [cleanup, count]
  omega

end AgentGateway.Session.Registry
