import AgentGateway.Proofs.Correlation.Resolution

/-!
# Everything goes by one deadline

A registration, a reply and a sweep each compare the clock with the moment at which an entry
expires, and each does so by itself. They draw one line: before that moment an entry stands in the
way of a registration, takes its reply, and is passed over by a sweep; from that moment on it
gives way, refuses its reply, and is swept, and whichever of these happens first tells its party
that the reply was overdue.

A registration that finds its place free still comes to nothing if the clock cannot show the
moment at which it would expire.
-/

namespace AgentGateway.Correlation

variable {α : Type}

namespace Pending

variable {p : Pending} {now : Duration}

theorem isOverdue_iff : p.isOverdue now = true ↔ p.expiresAt ≤ now := by
  simp [isOverdue]

theorem not_overdue_iff : p.isOverdue now = false ↔ now < p.expiresAt := by
  simp [isOverdue, Duration.le_def, Duration.lt_def]

end Pending

/-- The actions that look for the entry of an identifier. -/
def Action.Seeks (id : Id) : Action α → Prop
  | .register sought _ | .complete sought _ | .fail sought _ => sought = id
  | .sweep => True
  | .registerNew .. | .shutdown | .drop => False

/-- The entry of a log that made a registration, which asked for a time to wait or left it open. -/
structure Entry.Makes (x : Entry α) (p : Pending) (wait : Option Duration) : Prop where
  action : x.action = .register p.id wait ∨ ∃ name, x.action = .registerNew name wait
  answer : x.answer = .registration p.id (.registered p.ticket)

theorem Registration.pending?_eq_some {id : Id} {expiresAt : Duration} {r : Registration}
    {p : Pending} (h : r.pending? id expiresAt = some p) :
    p.id = id ∧ r = .registered p.ticket ∧ p.expiresAt = expiresAt := by
  cases r with
  | registered ticket =>
      obtain rfl := Option.some.inj h
      exact ⟨rfl, rfl, rfl⟩
  | refused => cases h
  | impossible => cases h

namespace Engine

variable {e : Engine α} {p : Pending} {now : Duration}

theorem closed_of_mem (he : e.WellFormed) (hp : p ∈ e.entries) : e.closed = false := by
  cases hc : e.closed with
  | false => rfl
  | true => simp [he.empty hc] at hp

theorem eq_of_id (he : e.WellFormed) (hp : p ∈ e.entries) {q : Pending} (hq : q ∈ e.entries)
    (hid : q.id = p.id) : q = p :=
  List.inj_on_of_nodup_map he.ids hq hp hid

theorem makes_of_made {a : Action α} {standard : Duration}
    (h : (e.entry now a).made? standard = some p) :
    ∃ wait, (e.entry now a).Makes p wait ∧ p.expiresAt = now + wait.getD standard := by
  cases a with
  | register id wait =>
      have hm := made?_registration now (.register id wait : Action α) id wait standard (.inl rfl)
      obtain ⟨rfl, hr, ht⟩ := Registration.pending?_eq_some ((hm _).symm.trans h)
      exact ⟨wait, ⟨.inl rfl, congrArg (Answer.registration p.id) hr⟩, ht⟩
  | registerNew name wait =>
      have hm := made?_registration now (.registerNew name wait : Action α)
        (.generated e.issued name) wait standard (.inr ⟨name, rfl⟩)
      obtain ⟨hid, hr, ht⟩ := Registration.pending?_eq_some ((hm _).symm.trans h)
      refine ⟨wait, ⟨.inr ⟨name, rfl⟩, ?_⟩, ht⟩
      rw [hid]
      exact congrArg (Answer.registration (.generated e.issued name)) hr
  | complete | fail | sweep | shutdown | drop => cases h

/-! ## Before the deadline -/

/-- What is answered about an entry of which the deadline is still to come. -/
structure InTime (e : Engine α) (p : Pending) (now : Duration) : Prop where
  register : ∀ wait, e.register now p.id wait =
    (e, .refused (.conflict ("correlation id '" ++ p.id.text ++ "' is already pending")))
  complete : ∀ value, (e.complete now p.id value).2 = true ∧
    (e.complete now p.id value).1.outcome? p.ticket = some (.ok value)
  fail : ∀ cause, (e.fail now p.id cause).2 = true ∧
    (e.fail now p.id cause).1.outcome? p.ticket = some (.error cause)
  sweep : p ∈ (e.sweep now).1.entries ∧ (e.sweep now).1.outcome? p.ticket = none

/-- A reply to a registration that is not overdue is its outcome. -/
theorem outcome?_resolve (he : e.WellFormed) (hp : p ∈ e.entries) (htime : now < p.expiresAt)
    (o : Outcome α) : (e.resolve now p.id o).1.outcome? p.ticket = some o := by
  have hmade : (e.resolve now p.id o).2 = true :=
    (resolve_snd he).mpr ⟨p, hp, rfl, Pending.not_overdue_iff.mpr htime⟩
  rw [resolve_eq_perform, outcome?_perform he]
  refine .inl ⟨p, hp, rfl, ?_⟩
  rw [entry_reply, verdict?_reply, if_pos rfl, hmade, if_pos rfl]

theorem verdict?_sweep (e : Engine α) (now : Duration) (p : Pending) :
    (e.entry now .sweep).verdict? p = expiry? now p := by
  simp [entry, Entry.verdict?, Entry.looksAt, expiry?]

theorem inTime (he : e.WellFormed) (hp : p ∈ e.entries) (htime : now < p.expiresAt) :
    e.InTime p now := by
  have ho := Pending.not_overdue_iff.mpr htime
  have hmade : ∀ o, (e.resolve now p.id o).2 = true :=
    fun o => (resolve_snd he).mpr ⟨p, hp, rfl, ho⟩
  have hstays : p ∈ (e.perform now .sweep).1.entries := by
    apply (mem_perform he).mpr
    exact .inl ⟨hp, by rw [verdict?_sweep, expiry?, ho]; rfl⟩
  constructor
  case register =>
    intro wait
    rw [register_eq he.ids, closed_of_mem he hp, if_neg Bool.false_ne_true, if_pos ⟨p, hp, rfl, ho⟩,
      alreadyPending]
  case complete =>
    intro value
    exact ⟨hmade _, outcome?_resolve he hp htime _⟩
  case fail =>
    intro cause
    exact ⟨hmade _, outcome?_resolve he hp htime _⟩
  case sweep =>
    exact ⟨hstays, outcome?_of_mem (perform_wellFormed he now .sweep) hstays⟩

/-! ## From the deadline on -/

/-- What is answered about an entry of which the deadline has come. A registration takes the place
of the entry, with the next ticket and its own deadline; without a moment that the clock can show,
the entry is gone and no other is made. Whichever comes first, the party is told that the reply was
overdue, and keeps this. -/
structure Lapsed (e : Engine α) (p : Pending) (now : Duration) : Prop where
  register : ∀ wait, Ticker.Showable (now + wait.getD e.defaultTimeout) →
    (e.register now p.id wait).2 = .registered e.issued ∧
      (e.register now p.id wait).1.find? p.id =
        some ⟨p.id, e.issued, now + wait.getD e.defaultTimeout⟩ ∧
      (e.register now p.id wait).1.outcome? e.issued = none
  unshowable : ∀ wait, ¬ Ticker.Showable (now + wait.getD e.defaultTimeout) →
    (e.register now p.id wait).2 = .impossible ∧ (e.register now p.id wait).1.find? p.id = none
  complete : ∀ value, (e.complete now p.id value).2 = false ∧
    (e.complete now p.id value).1.find? p.id = none
  fail : ∀ cause, (e.fail now p.id cause).2 = false ∧ (e.fail now p.id cause).1.find? p.id = none
  sweep : (e.sweep now).1.find? p.id = none
  told : ∀ a : Action α, a.Seeks p.id → ∀ acts,
    ((e.perform now a).1.run acts).outcome? p.ticket =
      some (.error (.correlationTimeout ("no reply for '" ++ p.id.text ++ "' before expiry")))

theorem resolve_snd_of_overdue (he : e.WellFormed) (hp : p ∈ e.entries)
    (ho : p.isOverdue now = true) (o : Outcome α) : (e.resolve now p.id o).2 = false := by
  rw [← Bool.not_eq_true, resolve_snd he]
  rintro ⟨q, hq, hid, hq'⟩
  rw [eq_of_id he hp hq hid, ho] at hq'
  cases hq'

theorem register_eq_of_overdue (he : e.WellFormed) (hp : p ∈ e.entries)
    (ho : p.isOverdue now = true) (wait : Option Duration) :
    e.register now p.id wait =
      (e.lookUp now p.id).insert now p.id (wait.getD e.defaultTimeout) := by
  have hno : ¬ ∃ q ∈ e.entries, q.id = p.id ∧ q.isOverdue now = false := by
    rintro ⟨q, hq, hid, hq'⟩
    rw [eq_of_id he hp hq hid, ho] at hq'
    cases hq'
  rw [register_eq he.ids, closed_of_mem he hp, if_neg Bool.false_ne_true, if_neg hno]

theorem verdict?_of_overdue (he : e.WellFormed) (hp : p ∈ e.entries)
    (ho : p.isOverdue now = true) {a : Action α} (ha : a.Seeks p.id) :
    (e.entry now a).verdict? p = some (.error (overdue p.id)) := by
  have hexp : (expiry? now p : Option (Outcome α)) = some (.error (overdue p.id)) := by
    rw [expiry?, if_pos ho]
  have reply : ∀ o : Outcome α,
      (e.entry now (.reply p.id o)).verdict? p = some (.error (overdue p.id)) := by
    intro o
    rw [entry_reply, verdict?_reply, if_pos rfl, resolve_snd_of_overdue he hp ho,
      if_neg Bool.false_ne_true, hexp]
  cases a with
  | register id wait =>
      obtain rfl : id = p.id := ha
      exact (verdict?_registration now _ p.id wait (.inl rfl) _ p).trans (by rw [if_pos rfl, hexp])
  | complete id value =>
      obtain rfl : id = p.id := ha
      exact reply (.ok value)
  | fail id cause =>
      obtain rfl : id = p.id := ha
      exact reply (.error cause)
  | sweep => exact (verdict?_sweep e now p).trans hexp
  | registerNew | shutdown | drop => exact ha.elim

/-- An entry that is settled is gone, and unless another is made its identifier is free. -/
theorem find?_perform_eq_none (he : e.WellFormed) (hp : p ∈ e.entries) {a : Action α}
    {o : Outcome α} (hv : (e.entry now a).verdict? p = some o)
    (hm : (e.entry now a).made? e.defaultTimeout = none) :
    (e.perform now a).1.find? p.id = none := by
  rw [find?_eq_none_iff]
  intro q hq hid
  obtain ⟨hq, hnone⟩ | hmade := (mem_perform he).mp hq
  · rw [eq_of_id he hp hq hid, hv] at hnone
    cases hnone
  · rw [hm] at hmade
    cases hmade

theorem find?_perform_of_made (he : e.WellFormed) {a : Action α}
    (hm : (e.entry now a).made? e.defaultTimeout = some p) :
    (e.perform now a).1.find? p.id = some p :=
  (find?_eq_some_iff (perform_wellFormed he now a).ids).mpr ⟨(mem_perform he).mpr (.inr hm), rfl⟩

theorem lapsed (he : e.WellFormed) (hp : p ∈ e.entries) (htime : p.expiresAt ≤ now) :
    e.Lapsed p now := by
  have ho := Pending.isOverdue_iff.mpr htime
  have hreg := register_eq_of_overdue he hp ho
  have hv : ∀ a : Action α, a.Seeks p.id →
      (e.entry now a).verdict? p = some (.error (overdue p.id)) :=
    fun _ => verdict?_of_overdue he hp ho
  have hmade : ∀ wait, (e.entry now (.register p.id wait)).made? e.defaultTimeout =
      (e.register now p.id wait).2.pending? p.id (now + wait.getD e.defaultTimeout) :=
    fun wait => made?_registration now _ p.id wait _ (.inl rfl) _
  constructor
  case register =>
    intro wait hshow
    have hr : (e.register now p.id wait).2 = .registered e.issued := by
      rw [hreg, insert_eq, if_pos hshow]
      rfl
    have hm := hmade wait
    rw [hr] at hm
    have hfind := find?_perform_of_made he hm
    have hmem := (mem_perform he).mpr (.inr hm)
    exact ⟨hr, hfind, outcome?_of_mem (perform_wellFormed he now _) hmem⟩
  case unshowable =>
    intro wait hshow
    have hr : (e.register now p.id wait).2 = .impossible := by
      rw [hreg, insert_eq, if_neg hshow]
    have hm := hmade wait
    rw [hr] at hm
    exact ⟨hr, find?_perform_eq_none he hp (hv (.register p.id wait) rfl) hm⟩
  case complete =>
    intro value
    exact ⟨resolve_snd_of_overdue he hp ho _,
      find?_perform_eq_none he hp (hv (.complete p.id value) rfl) rfl⟩
  case fail =>
    intro cause
    exact ⟨resolve_snd_of_overdue he hp ho _,
      find?_perform_eq_none he hp (hv (.fail p.id cause) rfl) rfl⟩
  case sweep =>
    exact find?_perform_eq_none he hp (hv .sweep trivial) rfl
  case told =>
    intro a ha acts
    apply outcome?_run_of_some (perform_wellFormed he now a)
    exact (outcome?_perform he).mpr (.inl ⟨p, hp, rfl, hv a ha⟩)

/-! ## A sweep -/

/-- A sweep takes out what is overdue, counts it, and leaves the rest. -/
structure Swept (e : Engine α) (now : Duration) : Prop where
  entries : (e.sweep now).1.entries = e.entries.filter fun p => now < p.expiresAt
  number : (e.sweep now).2 = (e.entries.filter fun p => p.expiresAt ≤ now).length
  rest : ∀ p ∈ (e.sweep now).1.entries, now < p.expiresAt

theorem swept (he : e.WellFormed) (now : Duration) : e.Swept now := by
  have hentries : (e.sweep now).1.entries = e.entries.filter fun p => now < p.expiresAt := by
    rw [sweep_eq he.ids]
    refine List.filter_congr fun p _ => ?_
    cases ho : p.isOverdue now with
    | true =>
        have hlate : ¬ now < p.expiresAt := fun h => by
          rw [Pending.not_overdue_iff.mpr h] at ho
          cases ho
        simp [expiry?, ho, hlate]
    | false => simp [expiry?, ho, Pending.not_overdue_iff.mp ho]
  refine ⟨hentries, rfl, ?_⟩
  intro p hp
  rw [hentries] at hp
  simpa using (List.mem_filter.mp hp).2

/-! ## Every engine -/

/-- What a log says about the deadlines of an engine. `timeout` is the time for which the engine
waits by itself, and it stays the same. A deadline is the moment of the registration and the time
for which it waits. -/
structure OneDeadline (timeout : Duration) (log : List (Entry α)) (e : Engine α) : Prop where
  standard : e.defaultTimeout = timeout
  tickets : (made timeout log).map (·.ticket) = List.range e.issued
  deadline : ∀ p ∈ e.entries, ∃ x ∈ log, ∃ wait, x.Makes p wait ∧
    p.expiresAt = x.moment + wait.getD timeout
  inTime : ∀ p ∈ e.entries, ∀ now, now < p.expiresAt → e.InTime p now
  lapsed : ∀ p ∈ e.entries, ∀ now, p.expiresAt ≤ now → e.Lapsed p now
  swept : ∀ now, e.Swept now

theorem map_ticket_made (timeout : Duration) (acts : List (Duration × Action α)) :
    (made timeout ((fresh timeout : Engine α).log acts)).map (·.ticket) =
      List.range ((fresh timeout : Engine α).run acts).issued := by
  have hnew : (fresh timeout : Engine α).WellFormed := wellFormed_fresh timeout
  induction acts using List.reverseRecOn with
  | nil => rfl
  | append_singleton acts a ih =>
      have he := run_wellFormed hnew acts
      have hd : ((fresh timeout : Engine α).run acts).defaultTimeout = timeout :=
        run_defaultTimeout hnew acts
      rw [log_append, run_append]
      generalize (fresh timeout : Engine α).run acts = e at *
      have hlog : e.log [a] = [e.entry a.1 a.2] := rfl
      have hrun : e.run [a] = (e.perform a.1 a.2).1 := rfl
      rw [hlog, hrun, perform_issued he, hd, made, List.filterMap_append, List.map_append, ← made,
        ih]
      cases hm : (e.entry a.1 a.2).made? timeout with
      | none => simp [hm]
      | some q =>
          obtain ⟨-, -, ht, -⟩ := made?_entry he hm
          simp [hm, ht, List.range_succ]

/-- In every engine a registration, a reply and a sweep go by the same deadline. -/
theorem oneDeadline (timeout : Duration) (acts : List (Duration × Action α)) :
    OneDeadline timeout ((fresh timeout : Engine α).log acts)
      ((fresh timeout : Engine α).run acts) where
  standard := run_defaultTimeout (wellFormed_fresh timeout) acts
  tickets := map_ticket_made timeout acts
  deadline p hp := by
    have he := run_wellFormed (wellFormed_fresh (α := α) timeout) acts
    obtain ⟨hlatest, -⟩ :=
      (find?_run timeout acts p.id p).mp ((find?_eq_some_iff he.ids).mpr ⟨hp, rfl⟩)
    have hmem := List.mem_reverse.mp (List.mem_of_find?_eq_some hlatest)
    obtain ⟨x, hx, hmade⟩ := List.mem_filterMap.mp hmem
    obtain ⟨before, after, hlog⟩ := List.append_of_mem hx
    obtain ⟨_, now, a, _, -, -, rfl, -⟩ := log_eq_append hlog
    exact ⟨_, hx, makes_of_made hmade⟩
  inTime _ hp _ htime := Engine.inTime (run_wellFormed (wellFormed_fresh timeout) acts) hp htime
  lapsed _ hp _ htime := Engine.lapsed (run_wellFormed (wellFormed_fresh timeout) acts) hp htime
  swept now := Engine.swept (run_wellFormed (wellFormed_fresh timeout) acts) now

/-- An engine in which the time to wait was no time at all: its entry is overdue at once, and yet
its identifier cannot be registered for as long as a span lasts. -/
theorem register_overdue_unshowable :
    let e := (fresh (.ofSeconds 1) : Engine Unit).run
      [(.zero, .register (.given "x") (some .zero))]
    e.find? (.given "x") = some ⟨.given "x", 0, .zero⟩ ∧
      (e.register .zero (.given "x") (some (.ofSeconds maxWord64))).2 = .impossible ∧
      (e.register .zero (.given "x") (some (.ofSeconds maxWord64))).1.find? (.given "x") = none := by
  decide +kernel

end Engine

end AgentGateway.Correlation
