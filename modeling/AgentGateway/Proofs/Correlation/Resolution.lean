import AgentGateway.Proofs.Correlation.Settlement
import Mathlib.Data.List.Induction

/-!
# Exactly one outcome

Over a whole run of an engine every registration gets one outcome at most: the one that the first
entry after it gives which settles it. `Engine.exactlyOnce` gathers what a log says about the
engine; it holds for every run, in whatever order things are done and at whatever moments.
-/

namespace AgentGateway.Correlation

variable {α : Type}

namespace Engine

theorem run_wellFormed {e : Engine α} (he : e.WellFormed) (acts : List (Duration × Action α)) :
    (e.run acts).WellFormed := by
  induction acts generalizing e with
  | nil => exact he
  | cons a acts ih => exact ih (perform_wellFormed he a.1 a.2)

@[simp] theorem perform_defaultTimeout {e : Engine α} (he : e.WellFormed) (now : Duration)
    (a : Action α) : (e.perform now a).1.defaultTimeout = e.defaultTimeout := by
  rw [perform_eq he]
  rfl

theorem run_defaultTimeout {e : Engine α} (he : e.WellFormed) (acts : List (Duration × Action α)) :
    (e.run acts).defaultTimeout = e.defaultTimeout := by
  induction acts generalizing e with
  | nil => rfl
  | cons a acts ih =>
      exact (ih (perform_wellFormed he a.1 a.2)).trans (perform_defaultTimeout he a.1 a.2)

theorem perform_issued {e : Engine α} (he : e.WellFormed) (now : Duration) (a : Action α) :
    (e.perform now a).1.issued =
      e.issued + ((e.entry now a).made? e.defaultTimeout).toList.length := by
  rw [perform_eq he]
  rfl

theorem le_run_issued {e : Engine α} (he : e.WellFormed) (acts : List (Duration × Action α)) :
    e.issued ≤ (e.run acts).issued := by
  induction acts generalizing e with
  | nil => exact Nat.le_refl _
  | cons a acts ih =>
      have hp := perform_issued he a.1 a.2
      have hr := ih (perform_wellFormed he a.1 a.2)
      simp only [run]
      omega

theorem outcomes_nodup {e : Engine α} (he : e.WellFormed) : (e.outcomes.map (·.1)).Nodup :=
  (List.nodup_append.mp (he.tickets.nodup_iff.mpr List.nodup_range)).2.1

theorem outcome?_eq_some_iff {e : Engine α} (he : e.WellFormed) {t : Nat} {o : Outcome α} :
    e.outcome? t = some o ↔ (t, o) ∈ e.outcomes := by
  have hnd := outcomes_nodup he
  constructor
  · intro h
    obtain ⟨l, r, heq, -⟩ := List.lookup_eq_some_iff.mp h
    simp [heq]
  · intro h
    obtain ⟨l, r, heq⟩ := List.append_of_mem h
    refine List.lookup_eq_some_iff.mpr ⟨l, r, heq, fun q hq => ?_⟩
    rw [heq, List.map_append, List.map_cons] at hnd
    have hne := (List.nodup_append.mp hnd).2.2 q.1 (List.mem_map_of_mem hq) t (by simp)
    simpa using Ne.symm hne

theorem outcome?_of_mem {e : Engine α} (he : e.WellFormed) {p : Pending} (hp : p ∈ e.entries) :
    e.outcome? p.ticket = none := by
  cases h : e.outcome? p.ticket with
  | none => rfl
  | some o =>
      have hd := (List.nodup_append.mp (he.tickets.nodup_iff.mpr List.nodup_range)).2.2
      exact absurd rfl (hd p.ticket (List.mem_map_of_mem hp) p.ticket
        (List.mem_map_of_mem ((outcome?_eq_some_iff he).mp h)))

theorem mem_perform {e : Engine α} (he : e.WellFormed) {now : Duration} {a : Action α}
    {p : Pending} : p ∈ (e.perform now a).1.entries ↔
      (p ∈ e.entries ∧ (e.entry now a).verdict? p = none) ∨
        (e.entry now a).made? e.defaultTimeout = some p := by
  rw [perform_eq he]
  simp [closeIf, takeIn, mem_settle]

theorem outcome?_perform {e : Engine α} (he : e.WellFormed) {now : Duration} {a : Action α}
    {t : Nat} {o : Outcome α} : (e.perform now a).1.outcome? t = some o ↔
      (∃ p ∈ e.entries, p.ticket = t ∧ (e.entry now a).verdict? p = some o) ∨
        e.outcome? t = some o := by
  rw [outcome?_eq_some_iff (perform_wellFormed he now a), outcome?_eq_some_iff he, perform_eq he]
  exact mem_settle_outcomes

theorem outcome?_run_of_some {e : Engine α} (he : e.WellFormed) {t : Nat} {o : Outcome α}
    (h : e.outcome? t = some o) (acts : List (Duration × Action α)) :
    (e.run acts).outcome? t = some o := by
  induction acts generalizing e with
  | nil => exact h
  | cons a acts ih => exact ih (perform_wellFormed he a.1 a.2) ((outcome?_perform he).mpr (.inr h))

/-- The outcome of a pending registration is the one that the first entry to settle it gives. -/
theorem outcome?_run {e : Engine α} (he : e.WellFormed) {p : Pending} (hp : p ∈ e.entries)
    (acts : List (Duration × Action α)) :
    (e.run acts).outcome? p.ticket = firstVerdict? (e.log acts) p := by
  induction acts generalizing e with
  | nil => exact outcome?_of_mem he hp
  | cons a acts ih =>
      have hw := perform_wellFormed he a.1 a.2
      cases h : (e.entry a.1 a.2).verdict? p with
      | none =>
          have hfirst : firstVerdict? (e.log (a :: acts)) p =
              firstVerdict? ((e.perform a.1 a.2).1.log acts) p := by
            simp only [firstVerdict?, log, List.findSome?_cons, h]
          exact (ih hw ((mem_perform he).mpr (.inl ⟨hp, h⟩))).trans hfirst.symm
      | some o =>
          have hfirst : firstVerdict? (e.log (a :: acts)) p = some o := by
            simp only [firstVerdict?, log, List.findSome?_cons, h]
          rw [hfirst]
          exact outcome?_run_of_some hw ((outcome?_perform he).mpr (.inl ⟨p, hp, rfl, h⟩)) acts

theorem log_eq_append {e : Engine α} {acts : List (Duration × Action α)}
    {before after : List (Entry α)} {x : Entry α} (h : e.log acts = before ++ x :: after) :
    ∃ first now a rest, acts = first ++ (now, a) :: rest ∧ before = e.log first ∧
      x = (e.run first).entry now a ∧ after = ((e.run first).perform now a).1.log rest := by
  induction before generalizing e acts with
  | nil =>
      cases acts with
      | nil => simp [log] at h
      | cons a acts =>
          simp only [log, List.nil_append, List.cons.injEq] at h
          exact ⟨[], a.1, a.2, acts, rfl, rfl, h.1.symm, h.2.symm⟩
  | cons y before ih =>
      cases acts with
      | nil => simp [log] at h
      | cons a acts =>
          simp only [log, List.cons_append, List.cons.injEq] at h
          obtain ⟨first, now, b, rest, rfl, rfl, hx, hafter⟩ := ih h.2
          exact ⟨a :: first, now, b, rest, rfl, by simp [log, h.1], hx, hafter⟩

theorem latest?_concat_of_made {standard : Duration} {log : List (Entry α)} {x : Entry α}
    {p : Pending} (h : x.made? standard = some p) :
    latest? standard (log ++ [x]) p.id = some p := by
  simp [latest?, made, List.filterMap_append, h]

theorem latest?_concat_of_not_made {standard : Duration} {log : List (Entry α)} {x : Entry α}
    {id : Id} (h : ∀ p, x.made? standard = some p → p.id ≠ id) :
    latest? standard (log ++ [x]) id = latest? standard log id := by
  cases hm : x.made? standard with
  | none => simp [latest?, made, List.filterMap_append, hm]
  | some p => simp [latest?, made, List.filterMap_append, hm, h p hm]

theorem outcome?_perform_eq_none {e : Engine α} (he : e.WellFormed) {now : Duration} {a : Action α}
    {t : Nat} : (e.perform now a).1.outcome? t = none ↔
      (∀ p ∈ e.entries, p.ticket = t → (e.entry now a).verdict? p = none) ∧
        e.outcome? t = none := by
  simp only [Option.eq_none_iff_forall_not_mem, Option.mem_def, outcome?_perform he]
  grind

/-- An identifier has an entry exactly while its latest registration is without outcome. -/
theorem find?_run (timeout : Duration) (acts : List (Duration × Action α)) (id : Id)
    (p : Pending) :
    ((fresh timeout : Engine α).run acts).find? id = some p ↔
      latest? timeout ((fresh timeout : Engine α).log acts) id = some p ∧
        ((fresh timeout : Engine α).run acts).outcome? p.ticket = none := by
  have hnew : (fresh timeout : Engine α).WellFormed := wellFormed_fresh timeout
  induction acts using List.reverseRecOn with
  | nil => simp [run, log, latest?, made, find?, fresh]
  | append_singleton acts a ih =>
      have he := run_wellFormed hnew acts
      have hw := perform_wellFormed he a.1 a.2
      have hd : ((fresh timeout : Engine α).run acts).defaultTimeout = timeout :=
        run_defaultTimeout hnew acts
      rw [run_append, log_append]
      generalize hx : (fresh timeout : Engine α).run acts = e at *
      have hlog : e.log [a] = [e.entry a.1 a.2] := rfl
      have hrun : e.run [a] = (e.perform a.1 a.2).1 := rfl
      rw [hlog, hrun, find?_eq_some_iff hw.ids, mem_perform he, hd]
      rw [find?_eq_some_iff he.ids] at ih
      by_cases hm : ∃ q, (e.entry a.1 a.2).made? timeout = some q ∧ q.id = id
      · obtain ⟨q, hq, rfl⟩ := hm
        have hq' : (e.entry a.1 a.2).made? e.defaultTimeout = some q := by rw [hd]; exact hq
        obtain ⟨-, -, -, hall⟩ := made?_entry he hq
        rw [latest?_concat_of_made hq, hq, Option.some.injEq]
        constructor
        · rintro ⟨⟨hp, hv⟩ | rfl, hid⟩
          · exact absurd hv (hall p hp hid)
          · exact ⟨rfl, outcome?_of_mem hw ((mem_perform he).mpr (.inr hq'))⟩
        · rintro ⟨rfl, -⟩
          exact ⟨.inr rfl, rfl⟩
      · rw [latest?_concat_of_not_made fun q hq hid => hm ⟨q, hq, hid⟩]
        constructor
        · rintro ⟨⟨hp, hv⟩ | hmade, hid⟩
          · have hpost := outcome?_of_mem hw ((mem_perform he).mpr (.inl ⟨hp, hv⟩))
            exact ⟨(ih.mp ⟨hp, hid⟩).1, hpost⟩
          · exact absurd ⟨p, hmade, hid⟩ hm
        · rintro ⟨hl, ho⟩
          obtain ⟨hv, ho⟩ := (outcome?_perform_eq_none he).mp ho
          obtain ⟨hp, hid⟩ := ih.mpr ⟨hl, ho⟩
          exact ⟨.inl ⟨hp, hv p hp rfl⟩, hid⟩

end Engine

/-! ## Exactly one outcome -/

/-- What a log says about an engine: a registration gets the outcome that the first entry after it
gives that settles it, gets it once, and keeps it. `timeout` is the time for which the engine waits
by itself. An identifier has an entry exactly while its latest registration has no outcome, and a
reply is delivered exactly if that is so and it is not overdue. A refused registration changes
nothing. After a shutdown nothing is pending, no registration is made and no reply is delivered. -/
structure ExactlyOnce (timeout : Duration) (log : List (Entry α)) (e : Engine α) : Prop where
  onePending : (e.entries.map (·.id)).Nodup
  pending_iff : ∀ id p, e.find? id = some p ↔
    latest? timeout log id = some p ∧ e.outcome? p.ticket = none
  first : ∀ before x after p, log = before ++ x :: after → x.made? timeout = some p →
    e.outcome? p.ticket = firstVerdict? after p
  once : (e.outcomes.map (·.1)).Nodup
  kept : ∀ now a ticket o, e.outcome? ticket = some o →
    (e.perform now a).1.outcome? ticket = some o
  delivered_iff : ∀ now id o, (e.resolve now id o).2 = true ↔
    ∃ p, latest? timeout log id = some p ∧ e.outcome? p.ticket = none ∧ p.isOverdue now = false
  refused : ∀ now id wait cause, (e.register now id wait).2 = .refused cause →
    (e.register now id wait).1 = e
  shut : (∃ x ∈ log, x.action = .shutdown) → e.entries = [] ∧
    (∀ now id wait, (e.register now id wait).2 = .refused isShutDown) ∧
    ∀ now id o, (e.resolve now id o).2 = false

namespace Engine

theorem resolve_snd {e : Engine α} (he : e.WellFormed) {now : Duration} {id : Id} {o : Outcome α} :
    (e.resolve now id o).2 = true ↔ ∃ p ∈ e.entries, p.id = id ∧ p.isOverdue now = false := by
  rw [resolve_eq he.ids]
  split
  next h => simpa using h
  next h => simpa using h

theorem register_refused {e : Engine α} (he : e.WellFormed) {now : Duration} {id : Id}
    {timeout : Option Duration} {cause : Failure}
    (h : (e.register now id timeout).2 = .refused cause) : (e.register now id timeout).1 = e := by
  rw [register_eq he.ids] at h ⊢
  split at h
  next hc => rw [if_pos hc]
  next hc =>
    split at h
    next hp => rw [if_neg hc, if_pos hp]
    next =>
      rw [insert_eq] at h
      split at h <;> simp at h

theorem perform_closed {e : Engine α} (he : e.WellFormed) {now : Duration} {a : Action α}
    (h : e.closed = true ∨ a.closes = true) : (e.perform now a).1.closed = true := by
  rw [perform_eq he]
  simpa [closeIf, takeIn, settle] using h

theorem run_closed {e : Engine α} (he : e.WellFormed) (h : e.closed = true)
    (acts : List (Duration × Action α)) : (e.run acts).closed = true := by
  induction acts generalizing e with
  | nil => exact h
  | cons a acts ih => exact ih (perform_wellFormed he a.1 a.2) (perform_closed he (.inl h))

theorem closed_of_mem_log {e : Engine α} (he : e.WellFormed) {acts : List (Duration × Action α)}
    {x : Entry α} (hx : x ∈ e.log acts) (hc : x.action.closes = true) :
    (e.run acts).closed = true := by
  obtain ⟨before, after, hlog⟩ := List.append_of_mem hx
  obtain ⟨first, now, a, rest, rfl, -, rfl, -⟩ := log_eq_append hlog
  have hf := run_wellFormed he first
  rw [run_append]
  exact run_closed (perform_wellFormed hf now a) (perform_closed hf (.inr hc)) rest

theorem exactlyOnce (timeout : Duration) (acts : List (Duration × Action α)) :
    ExactlyOnce timeout ((fresh timeout : Engine α).log acts)
      ((fresh timeout : Engine α).run acts) where
  onePending := (run_wellFormed (wellFormed_fresh timeout) acts).ids
  pending_iff := find?_run timeout acts
  first before x after p hlog hx := by
    obtain ⟨first, now, a, rest, rfl, -, rfl, rfl⟩ := log_eq_append hlog
    have he := run_wellFormed (wellFormed_fresh (α := α) timeout) first
    have hd := run_defaultTimeout (wellFormed_fresh (α := α) timeout) first
    have hmem : p ∈ (((fresh timeout : Engine α).run first).perform now a).1.entries :=
      (mem_perform he).mpr (.inr (by rw [hd]; exact hx))
    rw [run_append]
    exact outcome?_run (perform_wellFormed he now a) hmem rest
  once := outcomes_nodup (run_wellFormed (wellFormed_fresh timeout) acts)
  kept now a ticket o h :=
    (outcome?_perform (run_wellFormed (wellFormed_fresh timeout) acts)).mpr (.inr h)
  delivered_iff now id o := by
    have he := run_wellFormed (wellFormed_fresh (α := α) timeout) acts
    rw [resolve_snd he]
    constructor
    · rintro ⟨p, hp, hid, ho⟩
      obtain ⟨hl, hn⟩ := (find?_run timeout acts id p).mp ((find?_eq_some_iff he.ids).mpr ⟨hp, hid⟩)
      exact ⟨p, hl, hn, ho⟩
    · rintro ⟨p, hl, hn, ho⟩
      obtain ⟨hp, hid⟩ := (find?_eq_some_iff he.ids).mp ((find?_run timeout acts id p).mpr ⟨hl, hn⟩)
      exact ⟨p, hp, hid, ho⟩
  refused now id wait cause h := register_refused (run_wellFormed (wellFormed_fresh timeout) acts) h
  shut := by
    rintro ⟨x, hx, ha⟩
    have he := run_wellFormed (wellFormed_fresh (α := α) timeout) acts
    have hc := closed_of_mem_log (wellFormed_fresh timeout) hx (by rw [ha]; rfl)
    have hnone := he.empty hc
    refine ⟨hnone, fun now id wait => ?_, fun now id o => ?_⟩
    · rw [register_eq he.ids, if_pos hc]
    · rw [← Bool.not_eq_true, resolve_snd he]
      simp [hnone]

end Engine

end AgentGateway.Correlation
