import AgentGateway.Proofs.Correlation.History
import Mathlib.Data.List.Nodup

/-!
# What one action does to an engine

Every action is the same three things in turn: it settles some of the pending registrations, takes
in at most one new registration, and may end the work of the engine. `Engine.perform_eq` says so
for all actions at once, in terms of the entry that the action makes in the log. What an action
preserves is then shown of these three things and not of the actions one by one.
-/

namespace AgentGateway.Correlation

variable {α : Type}

namespace Engine

/-- Takes out the entries to which `f` gives an outcome, and tells their parties. -/
def settle (e : Engine α) (f : Pending → Option (Outcome α)) : Engine α :=
  { e with
    entries := e.entries.filter fun p => (f p).isNone
    outcomes := (e.entries.filterMap fun p => (f p).map fun o => (p.ticket, o)).reverse ++
      e.outcomes }

theorem settle_congr {e : Engine α} {f g : Pending → Option (Outcome α)}
    (h : ∀ p ∈ e.entries, f p = g p) : e.settle f = e.settle g := by
  have hf : e.entries.filter (fun p => (f p).isNone) = e.entries.filter fun p => (g p).isNone :=
    List.filter_congr fun p hp => by rw [h p hp]
  have hm : (e.entries.filterMap fun p => (f p).map fun o => (p.ticket, o)) =
      e.entries.filterMap fun p => (g p).map fun o => (p.ticket, o) :=
    List.filterMap_congr fun p hp => by rw [h p hp]
  simp only [settle, hf, hm]

theorem settle_none {e : Engine α} {f : Pending → Option (Outcome α)}
    (h : ∀ p ∈ e.entries, f p = none) : e.settle f = e := by
  rw [settle_congr (g := fun _ => none) h]
  simp [settle]

/-- Overdue or not, the entry of an identifier is the only one that has it. -/
theorem find?_eq_some_iff {e : Engine α} (he : (e.entries.map (·.id)).Nodup) {id : Id}
    {p : Pending} : e.find? id = some p ↔ p ∈ e.entries ∧ p.id = id := by
  constructor
  · intro h
    exact ⟨List.mem_of_find?_eq_some h, by simpa using List.find?_some h⟩
  · rintro ⟨hp, rfl⟩
    cases hf : e.find? p.id with
    | none => simpa using List.find?_eq_none.mp hf p hp
    | some q =>
        have hq : q.id = p.id := by simpa using List.find?_some hf
        rw [List.inj_on_of_nodup_map he (List.mem_of_find?_eq_some hf) hp hq]

theorem find?_eq_none_iff {e : Engine α} {id : Id} :
    e.find? id = none ↔ ∀ p ∈ e.entries, p.id ≠ id := by
  simp [find?]

theorem filterMap_id {β : Type} {l : List Pending} (hl : (l.map (·.id)).Nodup) {p : Pending}
    (hp : p ∈ l) (g : Pending → β) :
    (l.filterMap fun q => if q.id = p.id then some (g q) else none) = [g p] := by
  induction l with
  | nil => simp at hp
  | cons q l ih =>
      rw [List.map_cons, List.nodup_cons] at hl
      rcases List.mem_cons.mp hp with rfl | hp
      · have rest : (l.filterMap fun q => if q.id = p.id then some (g q) else none) = [] := by
          rw [List.filterMap_eq_nil_iff]
          intro q hq
          have hne : q.id ≠ p.id := fun h => hl.1 (h ▸ List.mem_map_of_mem hq)
          simp [hne]
        simp [rest]
      · have hne : q.id ≠ p.id := fun h => hl.1 (h ▸ List.mem_map_of_mem hp)
        simpa [hne] using ih hl.2 hp

theorem remove_deliver {e : Engine α} (he : (e.entries.map (·.id)).Nodup) {p : Pending}
    (hp : p ∈ e.entries) (o : Outcome α) :
    (e.remove p.id).deliver p o = e.settle fun q => if q.id = p.id then some o else none := by
  have hf : (e.entries.filterMap fun q =>
      (if q.id = p.id then some o else none).map fun o => (q.ticket, o)) = [(p.ticket, o)] := by
    rw [← filterMap_id he hp fun q => (q.ticket, o)]
    congr 1
    funext q
    split <;> rfl
  have hr : e.entries.filter (·.id != p.id) = e.entries.filter fun q =>
      (if q.id = p.id then some o else none : Option (Outcome α)).isNone := by
    congr 1
    funext q
    by_cases h : q.id = p.id <;> simp [h]
  simp only [remove, deliver, settle, hf, hr, List.reverse_singleton, List.singleton_append]

theorem foldl_deliver (e : Engine α) (l : List Pending) (o : Pending → Outcome α) :
    l.foldl (fun e p => e.deliver p (o p)) e =
      { e with outcomes := (l.map fun p => (p.ticket, o p)).reverse ++ e.outcomes } := by
  induction l generalizing e with
  | nil => rfl
  | cons p l ih => rw [List.foldl_cons, ih]; simp [deliver]

theorem foldl_expire (e : Engine α) (l : List Pending) :
    l.foldl expire e =
      { e with
        entries := e.entries.filter fun p => l.all fun q => p.id != q.id
        outcomes := (l.map fun p => (p.ticket, .error (overdue p.id))).reverse ++ e.outcomes } := by
  induction l generalizing e with
  | nil => simp
  | cons q l ih => simp [ih, expire, remove, deliver, List.filter_filter, Bool.and_comm]

/-- What happens to an entry that is looked at: it expires if it is overdue. -/
def expiry? (now : Duration) (p : Pending) : Option (Outcome α) :=
  if p.isOverdue now then some (.error (overdue p.id)) else none

theorem sweep_eq {e : Engine α} (he : (e.entries.map (·.id)).Nodup) (now : Duration) :
    (e.sweep now).1 = e.settle (expiry? now) := by
  have hr : e.entries.filter (fun p => (e.entries.filter (·.isOverdue now)).all (p.id != ·.id)) =
      e.entries.filter fun p => (expiry? now p : Option (Outcome α)).isNone := by
    refine List.filter_congr fun p hp => ?_
    by_cases h : p.isOverdue now = true
    · have hm : p ∈ e.entries.filter (·.isOverdue now) := List.mem_filter.mpr ⟨hp, h⟩
      have hall : (e.entries.filter (·.isOverdue now)).all (p.id != ·.id) = false := by
        rw [List.all_eq_false]
        exact ⟨p, hm, by simp⟩
      simp [hall, expiry?, h]
    · have hall : (e.entries.filter (·.isOverdue now)).all (p.id != ·.id) = true := by
        rw [List.all_eq_true]
        intro q hq
        obtain ⟨hq, ho⟩ := List.mem_filter.mp hq
        have hne : p.id ≠ q.id := fun hid => h (List.inj_on_of_nodup_map he hp hq hid ▸ ho)
        simpa using hne
      simp [hall, expiry?, h]
  have hm : (e.entries.filter (·.isOverdue now)).map
      (fun p => ((p.ticket, .error (overdue p.id)) : Nat × Outcome α)) =
      e.entries.filterMap fun p => (expiry? now p).map fun o => (p.ticket, o) := by
    rw [← List.filterMap_eq_map', List.filterMap_filter]
    congr 1
    funext p
    unfold expiry?
    split <;> rfl
  simp only [sweep, foldl_expire, settle, hr, hm]

/-- Ends the work of an engine, if an action does so. -/
def closeIf (e : Engine α) (closes : Bool) : Engine α := { e with closed := e.closed || closes }

@[simp] theorem closeIf_false (e : Engine α) : e.closeIf false = e := by simp [closeIf]

theorem shutdown_eq (e : Engine α) :
    e.shutdown.1 = (e.settle fun p => some (.error (shutDownBefore p.id))).closeIf true := by
  simp [shutdown, settle, foldl_deliver, closeIf]

theorem drop_eq (e : Engine α) :
    e.drop = (e.settle fun _ => some (.error engineGone)).closeIf true := by
  simp [drop, settle, foldl_deliver, closeIf]

/-- Looking an identifier up settles its entry if it is overdue. -/
def lookUp (e : Engine α) (now : Duration) (id : Id) : Engine α :=
  e.settle fun p => if p.id = id then expiry? now p else none

theorem expire_eq {e : Engine α} (he : (e.entries.map (·.id)).Nodup) {now : Duration}
    {p : Pending} (hp : p ∈ e.entries) (ho : p.isOverdue now = true) :
    e.expire p = e.lookUp now p.id := by
  rw [expire, remove_deliver he hp]
  refine settle_congr fun q hq => ?_
  by_cases hid : q.id = p.id
  · obtain rfl := List.inj_on_of_nodup_map he hq hp hid
    simp [expiry?, ho]
  · simp [hid]

theorem lookUp_of_find?_eq_none {e : Engine α} {now : Duration} {id : Id}
    (h : e.find? id = none) : e.lookUp now id = e := by
  refine settle_none fun p hp => ?_
  simp [find?_eq_none_iff.mp h p hp]

theorem lookUp_of_not_overdue {e : Engine α} (he : (e.entries.map (·.id)).Nodup) {now : Duration}
    {p : Pending} (hp : p ∈ e.entries) (ho : p.isOverdue now = false) :
    e.lookUp now p.id = e := by
  refine settle_none fun q hq => ?_
  by_cases hid : q.id = p.id
  · obtain rfl := List.inj_on_of_nodup_map he hq hp hid
    simp [expiry?, ho]
  · simp [hid]

theorem resolve_eq {e : Engine α} (he : (e.entries.map (·.id)).Nodup) (now : Duration) (id : Id)
    (o : Outcome α) :
    e.resolve now id o =
      if ∃ p ∈ e.entries, p.id = id ∧ p.isOverdue now = false then
        (e.settle fun p => if p.id = id then some o else none, true)
      else (e.lookUp now id, false) := by
  unfold resolve
  split
  next h =>
    have hno : ¬ ∃ p ∈ e.entries, p.id = id ∧ p.isOverdue now = false :=
      fun ⟨p, hp, hid, _⟩ => find?_eq_none_iff.mp h p hp hid
    rw [if_neg hno, lookUp_of_find?_eq_none h]
  next p h =>
    obtain ⟨hp, rfl⟩ := (find?_eq_some_iff he).mp h
    split
    next ho =>
      have hno : ¬ ∃ q ∈ e.entries, q.id = p.id ∧ q.isOverdue now = false := by
        rintro ⟨q, hq, hid, hq'⟩
        obtain rfl := List.inj_on_of_nodup_map he hq hp hid
        simp [ho] at hq'
      rw [if_neg hno, expire_eq he hp ho]
    next ho =>
      rw [if_pos ⟨p, hp, rfl, by simpa using ho⟩, remove_deliver he hp]

/-- A reply that is delivered settles its entry, and any other looks it up. -/
theorem resolve_fst {e : Engine α} (he : (e.entries.map (·.id)).Nodup) (now : Duration) (id : Id)
    (o : Outcome α) : (e.resolve now id o).1 = e.settle fun p =>
      if p.id = id then (if (e.resolve now id o).2 then some o else expiry? now p) else none := by
  rw [resolve_eq he]
  split <;> rfl

theorem register_eq {e : Engine α} (he : (e.entries.map (·.id)).Nodup) (now : Duration) (id : Id)
    (timeout : Option Duration) :
    e.register now id timeout =
      if e.closed then (e, .refused isShutDown)
      else if ∃ p ∈ e.entries, p.id = id ∧ p.isOverdue now = false then
        (e, .refused (alreadyPending id))
      else (e.lookUp now id).insert now id (timeout.getD e.defaultTimeout) := by
  unfold register
  split
  next => rfl
  next =>
    split
    next p h =>
      obtain ⟨hp, rfl⟩ := (find?_eq_some_iff he).mp h
      split
      next ho =>
        have hno : ¬ ∃ q ∈ e.entries, q.id = p.id ∧ q.isOverdue now = false := by
          rintro ⟨q, hq, hid, hq'⟩
          obtain rfl := List.inj_on_of_nodup_map he hq hp hid
          simp [ho] at hq'
        rw [if_neg hno, expire_eq he hp ho]
      next ho => rw [if_pos ⟨p, hp, rfl, by simpa using ho⟩]
    next h =>
      have hno : ¬ ∃ p ∈ e.entries, p.id = id ∧ p.isOverdue now = false :=
        fun ⟨p, hp, hid, _⟩ => find?_eq_none_iff.mp h p hp hid
      rw [if_neg hno, lookUp_of_find?_eq_none h]

def takeIn (e : Engine α) (p? : Option Pending) : Engine α :=
  { e with entries := e.entries ++ p?.toList, issued := e.issued + p?.toList.length }

@[simp] theorem takeIn_none (e : Engine α) : e.takeIn none = e := by simp [takeIn]

theorem insert_eq (e : Engine α) (now : Duration) (id : Id) (timeout : Duration) :
    e.insert now id timeout =
      if Ticker.Showable (now + timeout) then
        (e.takeIn (some ⟨id, e.issued, now + timeout⟩), .registered e.issued)
      else (e, .impossible) := rfl

/-- A registration is made only by an open engine in which no entry stands in the way. -/
theorem register_registered {e : Engine α} (he : (e.entries.map (·.id)).Nodup) {now : Duration}
    {id : Id} {timeout : Option Duration} {ticket : Nat}
    (h : (e.register now id timeout).2 = .registered ticket) :
    e.closed = false ∧ ticket = e.issued ∧
      ∀ p ∈ e.entries, p.id = id → p.isOverdue now = true := by
  rw [register_eq he] at h
  split at h
  next => simp at h
  next hc =>
    split at h
    next => simp at h
    next hno =>
      refine ⟨by simpa using hc, ?_, fun p hp hid => ?_⟩
      · rw [insert_eq] at h
        split at h
        · simpa [lookUp, settle] using h.symm
        · simp at h
      · by_contra ho
        exact hno ⟨p, hp, hid, by simpa using ho⟩

theorem register_fst {e : Engine α} (he : e.WellFormed) (now : Duration) (id : Id)
    (timeout : Option Duration) :
    (e.register now id timeout).1 = (e.lookUp now id).takeIn
      ((e.register now id timeout).2.pending? id (now + timeout.getD e.defaultTimeout)) := by
  rw [register_eq he.ids]
  split
  next hc =>
    have hnone : e.lookUp now id = e := settle_none fun p hp => by simp [he.empty hc] at hp
    simp [Registration.pending?, hnone]
  next =>
    split
    next hp =>
      obtain ⟨p, hp, rfl, ho⟩ := hp
      simp [Registration.pending?, lookUp_of_not_overdue he.ids hp ho]
    next =>
      rw [insert_eq]
      split <;> simp [Registration.pending?, lookUp, settle]

theorem perform_reply (e : Engine α) (now : Duration) (id : Id) (o : Outcome α) :
    e.perform now (.reply id o) =
      ((e.resolve now id o).1, .delivery (e.resolve now id o).2) := by
  cases o <;> rfl

theorem resolve_eq_perform (e : Engine α) (now : Duration) (id : Id) (o : Outcome α) :
    (e.resolve now id o).1 = (e.perform now (.reply id o)).1 := by
  rw [perform_reply]

theorem entry_reply (e : Engine α) (now : Duration) (id : Id) (o : Outcome α) :
    e.entry now (.reply id o) =
      ⟨now, .reply id o, .delivery (e.resolve now id o).2⟩ := by
  rw [entry, perform_reply]

theorem reply_inj {id id' : Id} {o o' : Outcome α} :
    Action.reply id o = .reply id' o' ↔ id = id' ∧ o = o' := by
  cases o <;> cases o' <;> simp [Action.reply]

theorem closes_reply (id : Id) (o : Outcome α) : (Action.reply id o).closes = false := by
  cases o <;> rfl

theorem verdict?_reply (now : Duration) (id : Id) (o : Outcome α) (made : Bool) (p : Pending) :
    (⟨now, .reply id o, .delivery made⟩ : Entry α).verdict? p =
      if p.id = id then (if made then some o else expiry? now p) else none := by
  cases o <;> cases made <;> by_cases hid : p.id = id <;>
    simp [Action.reply, Entry.verdict?, Entry.looksAt, expiry?, hid]

theorem verdict?_registration (now : Duration) (a : Action α) (id : Id)
    (timeout : Option Duration)
    (ha : a = .register id timeout ∨ ∃ name, a = .registerNew name timeout)
    (r : Registration) (p : Pending) :
    (⟨now, a, .registration id r⟩ : Entry α).verdict? p =
      if p.id = id then expiry? now p else none := by
  obtain rfl | ⟨name, rfl⟩ := ha <;>
    by_cases hid : p.id = id <;> simp [Entry.verdict?, Entry.looksAt, expiry?, hid]

theorem made?_registration (now : Duration) (a : Action α) (id : Id)
    (timeout : Option Duration) (standard : Duration)
    (ha : a = .register id timeout ∨ ∃ name, a = .registerNew name timeout) (r : Registration) :
    (⟨now, a, .registration id r⟩ : Entry α).made? standard =
      r.pending? id (now + timeout.getD standard) := by
  obtain rfl | ⟨name, rfl⟩ := ha <;> cases r <;> rfl

/-- An action settles what its entry in the log settles, takes in what its entry registers, and
ends the work of the engine if it is a shutdown or the end. -/
theorem perform_eq {e : Engine α} (he : e.WellFormed) (now : Duration) (a : Action α) :
    (e.perform now a).1 = ((e.settle (e.entry now a).verdict?).takeIn
      ((e.entry now a).made? e.defaultTimeout)).closeIf a.closes := by
  have delivery : ∀ (id : Id) (o : Outcome α), a = .reply id o →
      (e.perform now a).1 = ((e.settle (e.entry now a).verdict?).takeIn
        ((e.entry now a).made? e.defaultTimeout)).closeIf a.closes := by
    rintro id o rfl
    have hm : (e.entry now (.reply id o)).made? e.defaultTimeout = none := by
      cases o <;> rfl
    rw [hm, takeIn_none, closes_reply, closeIf_false, entry_reply, perform_reply]
    dsimp only
    rw [resolve_fst he.ids]
    exact settle_congr fun p _ => (verdict?_reply now id o _ p).symm
  cases a with
  | register id timeout =>
      have hv := verdict?_registration now (.register id timeout : Action α) id timeout (.inl rfl)
      have hm := made?_registration now (.register id timeout : Action α) id timeout
        e.defaultTimeout (.inl rfl)
      simp only [entry, perform, Action.closes, closeIf_false, register_fst he, hm]
      rw [lookUp, settle_congr fun p _ => (hv (e.register now id timeout).2 p).symm]
  | registerNew name timeout =>
      have hv := verdict?_registration now (.registerNew name timeout : Action α)
        (.generated e.issued name) timeout (.inr ⟨name, rfl⟩)
      have hm := made?_registration now (.registerNew name timeout : Action α)
        (.generated e.issued name) timeout e.defaultTimeout (.inr ⟨name, rfl⟩)
      simp only [entry, perform, registerNew, Action.closes, closeIf_false, register_fst he, hm]
      rw [lookUp, settle_congr fun p _ =>
        (hv (e.register now (.generated e.issued name) timeout).2 p).symm]
  | complete id value => exact delivery id (.ok value) rfl
  | fail id cause => exact delivery id (.error cause) rfl
  | sweep =>
      simp only [entry, perform, Action.closes, closeIf_false, Entry.made?, takeIn_none,
        sweep_eq he.ids]
      exact settle_congr fun p _ => by simp [Entry.verdict?, Entry.looksAt, expiry?]
  | shutdown =>
      simp only [entry, perform, Action.closes, Entry.made?, takeIn_none, shutdown_eq]
      rfl
  | drop =>
      simp only [entry, perform, Action.closes, Entry.made?, takeIn_none, drop_eq]
      rfl

/-! ## What an action preserves -/

/-- An outcome is given because a registration is overdue, because the engine ends its work, or
because it is the reply. -/
theorem verdict?_cases {x : Entry α} {p : Pending} {o : Outcome α} (h : x.verdict? p = some o) :
    (o = .error (overdue p.id) ∧ p.isOverdue x.moment = true) ∨
      (o = .error (shutDownBefore p.id) ∧ x.action = .shutdown) ∨
      (o = .error engineGone ∧ x.action = .drop) ∨ x.action = .reply p.id o := by
  unfold Entry.verdict? at h
  split at h
  next id value ha _ =>
    split at h
    next hid =>
      obtain rfl := Option.some.inj h
      exact .inr (.inr (.inr (hid ▸ ha)))
    next => cases h
  next id cause ha _ =>
    split at h
    next hid =>
      obtain rfl := Option.some.inj h
      exact .inr (.inr (.inr (hid ▸ ha)))
    next => cases h
  next ha => exact .inr (.inl ⟨(Option.some.inj h).symm, ha⟩)
  next ha => exact .inr (.inr (.inl ⟨(Option.some.inj h).symm, ha⟩))
  next =>
    split at h
    next ho => exact .inl ⟨(Option.some.inj h).symm, ho.2⟩
    next => cases h

theorem mem_settle {e : Engine α} {f : Pending → Option (Outcome α)} {p : Pending} :
    p ∈ (e.settle f).entries ↔ p ∈ e.entries ∧ f p = none := by
  simp [settle]

theorem mem_settle_outcomes {e : Engine α} {f : Pending → Option (Outcome α)} {t : Nat}
    {o : Outcome α} : (t, o) ∈ (e.settle f).outcomes ↔
      (∃ p ∈ e.entries, p.ticket = t ∧ f p = some o) ∨ (t, o) ∈ e.outcomes := by
  simp only [settle, List.mem_append, List.mem_reverse, List.mem_filterMap, Option.map_eq_some_iff,
    Prod.mk.injEq]
  constructor
  · rintro (⟨p, hp, o', ho, rfl, rfl⟩ | h)
    · exact .inl ⟨p, hp, rfl, ho⟩
    · exact .inr h
  · rintro (⟨p, hp, rfl, ho⟩ | h)
    · exact .inl ⟨p, hp, o, ho, rfl, rfl⟩
    · exact .inr h

theorem perm_filterMap {l : List Pending} (f : Pending → Option (Outcome α)) :
    ((l.filter fun p => (f p).isNone).map (·.ticket) ++
      (l.filterMap fun p => (f p).map fun o => (p.ticket, o)).map (·.1)).Perm
      (l.map (·.ticket)) := by
  induction l with
  | nil => exact List.Perm.refl _
  | cons p l ih =>
      cases h : f p with
      | none => simpa [h] using ih
      | some o => simpa [h] using List.perm_middle.trans (ih.cons p.ticket)

theorem settle_wellFormed {e : Engine α} (he : e.WellFormed) (f : Pending → Option (Outcome α)) :
    (e.settle f).WellFormed where
  ids := he.ids.sublist (List.filter_sublist.map _)
  tickets := by
    have hm : ((e.settle f).entries.map (·.ticket) ++ (e.settle f).outcomes.map (·.1)).Perm
        (e.entries.map (·.ticket) ++ e.outcomes.map (·.1)) := by
      simp only [settle, List.map_append, List.map_reverse]
      rw [← List.append_assoc]
      refine List.Perm.append_right _ ?_
      exact ((List.reverse_perm _).append_left _).trans (perm_filterMap f)
    exact hm.trans he.tickets
  empty hc := by simp [settle, he.empty hc]

/-- A registration that is made finds an open engine, takes the next ticket, and is the only one
of its identifier that is left. -/
theorem made?_entry {e : Engine α} (he : e.WellFormed) {now : Duration} {a : Action α}
    {standard : Duration} {p : Pending} (h : (e.entry now a).made? standard = some p) :
    e.closed = false ∧ a.closes = false ∧ p.ticket = e.issued ∧
      ∀ q ∈ e.entries, q.id = p.id → (e.entry now a).verdict? q ≠ none := by
  have main : ∀ (id : Id) (timeout : Option Duration),
      (a = .register id timeout ∨ ∃ name, a = .registerNew name timeout) →
      e.entry now a = ⟨now, a, .registration id (e.register now id timeout).2⟩ →
      e.closed = false ∧ a.closes = false ∧ p.ticket = e.issued ∧
        ∀ q ∈ e.entries, q.id = p.id → (e.entry now a).verdict? q ≠ none := by
    intro id timeout ha hx
    rw [hx, made?_registration now a id timeout standard ha] at h
    cases hr : (e.register now id timeout).2 with
    | refused => simp [hr, Registration.pending?] at h
    | impossible => simp [hr, Registration.pending?] at h
    | registered ticket =>
        simp only [hr, Registration.pending?, Option.some.injEq] at h
        subst h
        obtain ⟨hc, ht, hall⟩ := register_registered he.ids hr
        refine ⟨hc, ?_, ht, fun q hq hid => ?_⟩
        · obtain rfl | ⟨name, rfl⟩ := ha <;> rfl
        · rw [hx, verdict?_registration now a id timeout ha, if_pos hid]
          simp [expiry?, hall q hq hid]
  cases a with
  | register id timeout => exact main id timeout (.inl rfl) rfl
  | registerNew name timeout => exact main _ timeout (.inr ⟨name, rfl⟩) rfl
  | complete | fail | sweep | shutdown | drop => simp [entry, Entry.made?, perform] at h

theorem perform_wellFormed {e : Engine α} (he : e.WellFormed) (now : Duration) (a : Action α) :
    (e.perform now a).1.WellFormed := by
  rw [perform_eq he]
  have hs := settle_wellFormed he (e.entry now a).verdict?
  cases hm : (e.entry now a).made? e.defaultTimeout with
  | none =>
      refine ⟨by simpa [closeIf] using hs.ids, by simpa [closeIf] using hs.tickets, fun hc => ?_⟩
      simp only [takeIn_none, closeIf, Bool.or_eq_true] at hc ⊢
      obtain hc | hc := hc
      · exact hs.empty hc
      · have hall : ∀ p, (e.entry now a).verdict? p ≠ none := by
          cases a <;> simp [Action.closes] at hc <;> simp [entry, perform, Entry.verdict?]
        simp [settle, hall, Option.isNone_iff_eq_none]
  | some p =>
      obtain ⟨hc, ha, ht, hid⟩ := made?_entry he hm
      rw [ha, closeIf_false]
      refine ⟨?_, ?_, fun h => ?_⟩
      · simp only [takeIn, Option.toList_some, List.map_append, List.map_cons, List.map_nil]
        refine List.nodup_append.mpr ⟨hs.ids, List.nodup_singleton _, ?_⟩
        intro i hi j hj hij
        obtain ⟨q, hq, rfl⟩ := List.mem_map.mp hi
        rw [List.mem_singleton.mp hj] at hij
        exact hid q (mem_settle.mp hq).1 hij (mem_settle.mp hq).2
      · have hp := (hs.tickets.append_right [e.issued])
        simp only [takeIn, Option.toList_some, List.map_append, List.map_cons, List.map_nil, ht,
          List.length_singleton]
        rw [List.range_succ]
        refine List.Perm.trans ?_ hp
        simp only [List.append_assoc]
        exact List.Perm.append_left _ List.perm_append_comm
      · simp [takeIn, settle, hc] at h

end Engine

end AgentGateway.Correlation
