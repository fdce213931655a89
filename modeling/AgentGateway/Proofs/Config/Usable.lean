import AgentGateway.Config.Load
import AgentGateway.Correlation.Desk
import AgentGateway.Proofs.Admission.Conservation
import AgentGateway.Proofs.Correlation.Deadlines

/-!
# What an accepted configuration is good for

A configuration that is accepted has no flaw, and that makes all limits and times positive. So
the first request for a key makes a pool of the size that is configured and gets one of its slots,
and a registration that asks for no time of its own is taken in and awaits its reply.

The check looks at lower bounds only. A pool has an upper bound of its own, and so has the clock;
accepted values may lie above them, and then the request and the registration come to nothing.
`Usable` says on which side of the bounds what happens.
-/

namespace AgentGateway

open Admission (Limiter Ticket)
open Correlation (Engine Pending)

/-! ## Limits and times -/

namespace Config

variable {c : Config}

theorem validate_ok_iff {valid : Config} : c.validate = .ok valid ↔ valid = c ∧ c.flaws = [] := by
  unfold validate
  cases c.flaws <;> simp [eq_comm]

theorem flaws_of_parse {text : List Char} (h : parse text = .ok c) : c.flaws = [] := by
  unfold parse at h
  split at h
  next => cases h
  next =>
    split at h
    next => cases h
    next =>
      split at h
      next => cases h
      next read _ valid hvalid =>
        obtain ⟨rfl, hflaws⟩ := validate_ok_iff.mp hvalid
        cases h
        exact hflaws

structure Positive (c : Config) : Prop where
  defaultLimit : 1 ≤ c.concurrency.defaultLimit
  limits : ∀ l ∈ c.concurrency.limits, 1 ≤ l.2
  timeout : 1 ≤ c.correlation.defaultTimeoutSeconds

theorem positive_of_flaws (h : c.flaws = []) : c.Positive := by
  simp only [flaws, List.append_eq_nil_iff, List.map_eq_nil_iff, List.filter_eq_nil_iff] at h
  obtain ⟨⟨⟨⟨⟨⟨⟨-, hdefault⟩, hlimits⟩, -⟩, -⟩, htimes⟩, -⟩, -⟩ := h
  refine ⟨?_, fun l hl => ?_, ?_⟩
  · by_contra hzero
    simp [show c.concurrency.defaultLimit = 0 by omega] at hdefault
  · have hne : l.2 ≠ 0 := by simpa using hlimits l hl
    omega
  · by_contra hzero
    simp [show c.correlation.defaultTimeoutSeconds = 0 by omega] at htimes

/-- The number of slots that a key is to have. -/
def capacity (c : Config) (key : String) : Nat :=
  (Limiter.ofConfig c.concurrency).configuredCapacity key

theorem capacity_eq (c : Config) (key : String) :
    c.capacity key = (c.concurrency.limits.lookup key).getD (max c.concurrency.defaultLimit 1) :=
  rfl

theorem mem_of_lookup {limits : List (String × Nat)} {key : String} {n : Nat}
    (h : limits.lookup key = some n) : (key, n) ∈ limits := by
  obtain ⟨before, after, rfl, -⟩ := List.lookup_eq_some_iff.mp h
  exact List.mem_append_right _ List.mem_cons_self

/-- What holds of all limits holds of the number of slots of every key. -/
theorem Positive.capacity (h : c.Positive) (P : Nat → Prop)
    (hdefault : P c.concurrency.defaultLimit) (hlimits : ∀ l ∈ c.concurrency.limits, P l.2)
    (key : String) : P (c.capacity key) := by
  rw [capacity_eq]
  cases hlookup : c.concurrency.limits.lookup key with
  | none => rwa [Option.getD_none, Nat.max_eq_left h.defaultLimit]
  | some n => exact hlimits (key, n) (mem_of_lookup hlookup)

end Config

/-! ## The first request for a key -/

namespace Admission

variable {l : Limiter} {key : String}

/-- A request makes the pool of its key and gets one of the `n` slots. -/
structure Opens (l : Limiter) (key : String) (t : Ticket) (n : Nat) : Prop where
  granted : (l.request key none t).2 = .granted
  pool : (l.request key none t).1.pool? key =
    some { capacity := n, free := n - 1, held := [t] }

theorem opens_of_absent (hopen : l.closed = false) (hnone : l.pool? key = none) (t : Ticket)
    (hsize : l.sizeFor key none ≤ Limiter.maxCapacity) : Opens l key t (l.sizeFor key none) := by
  have hpos : 0 < l.sizeFor key none := Nat.le_max_right _ 1
  have henter : (Pool.ofCapacity (l.sizeFor key none)).enter key t =
      ({ capacity := l.sizeFor key none, free := l.sizeFor key none - 1, held := [t] },
        .granted) := by
    simp [Pool.enter, Pool.ofCapacity, hpos]
  have hrequest : l.request key none t = (l.addPool key
      { capacity := l.sizeFor key none, free := l.sizeFor key none - 1, held := [t] },
        .granted) := by
    simp [Limiter.request, Limiter.ask, hnone, hopen, henter, Nat.not_lt.mpr hsize]
  constructor
  · rw [hrequest]
  · rw [hrequest, Limiter.pool?_addPool, hnone, if_pos rfl, Option.none_or]

theorem request_impossible (hopen : l.closed = false) (hnone : l.pool? key = none) (t : Ticket)
    (hsize : Limiter.maxCapacity < l.sizeFor key none) :
    l.request key none t = (l, .impossible) := by
  simp [Limiter.request, Limiter.ask, hnone, hopen, hsize]

theorem Desk.sizeFor_play (d : Desk) (moves : List Move) :
    (d.play moves).limiter.sizeFor = d.limiter.sizeFor := by
  induction moves generalizing d with
  | nil => rfl
  | cons m moves ih => exact (ih (d.move m)).trans (d.moved m).grows.sizes

end Admission

/-! ## A registration without a time of its own -/

namespace Correlation.Engine

variable {α : Type} {e : Engine α} {now : Duration} {id : Id}

/-- A registration is taken in and awaits its reply until it expires. -/
structure Awaits (e : Engine α) (now : Duration) (id : Id) (expiresAt : Duration) : Prop where
  registered : (e.register now id none).2 = .registered e.issued
  found : (e.register now id none).1.find? id = some ⟨id, e.issued, expiresAt⟩
  pending : (e.register now id none).1.outcome? e.issued = none
  ahead : now < expiresAt

/-- An open engine takes a registration in unless an entry stands in its way or the clock cannot
show when it expires. -/
theorem register_snd (he : e.WellFormed) (hopen : e.closed = false)
    (hfree : ∀ p ∈ e.entries, p.id = id → p.isOverdue now = true) :
    (e.register now id none).2 =
      if Ticker.Showable (now + e.defaultTimeout) then .registered e.issued else .impossible := by
  have hno : ¬ ∃ p ∈ e.entries, p.id = id ∧ p.isOverdue now = false := by
    rintro ⟨p, hp, hid, hdue⟩
    rw [hfree p hp hid] at hdue
    cases hdue
  rw [register_eq he.ids, hopen, if_neg Bool.false_ne_true, if_neg hno, insert_eq,
    Option.getD_none]
  split <;> rfl

theorem awaits_of_showable (he : e.WellFormed) (hopen : e.closed = false)
    (hfree : ∀ p ∈ e.entries, p.id = id → p.isOverdue now = true)
    (hpos : .zero < e.defaultTimeout) (hshow : Ticker.Showable (now + e.defaultTimeout)) :
    e.Awaits now id (now + e.defaultTimeout) := by
  have hregistered : (e.register now id none).2 = .registered e.issued := by
    rw [register_snd he hopen hfree, if_pos hshow]
  have hmade : (e.entry now (.register id none)).made? e.defaultTimeout =
      some ⟨id, e.issued, now + e.defaultTimeout⟩ := by
    simp [entry, perform, Entry.made?, hregistered, Registration.pending?]
  have hfound := find?_perform_of_made he hmade
  have hmem := List.mem_of_find?_eq_some hfound
  refine ⟨hregistered, hfound, outcome?_of_mem (perform_wellFormed he now _) hmem, ?_⟩
  exact Nat.lt_add_of_pos_right hpos

end Correlation.Engine

namespace Config

variable {c : Config}

/-- What is promised of the limiter and the engine that are built from a configuration. The first
request for a key, whatever has been done at the limiter before, gets a slot of a pool of the size
that is configured, if there can be one of that size, which is so for every key if no limit is too
large. A registration, whatever has been done to the engine before, awaits its reply for the time
that is configured, if the clock can show when that ends. -/
structure Usable (c : Config) : Prop where
  slots : ∀ key, 1 ≤ c.capacity key
  opens : ∀ (moves : List Admission.Move) (key : String) (t : Ticket),
    let l := (({ limiter := Limiter.ofConfig c.concurrency } : Admission.Desk).play moves).limiter
    l.closed = false → l.pool? key = none →
      (c.capacity key ≤ Limiter.maxCapacity → Admission.Opens l key t (c.capacity key)) ∧
      (Limiter.maxCapacity < c.capacity key → l.request key none t = (l, .impossible))
  fits : c.concurrency.defaultLimit ≤ Limiter.maxCapacity →
    (∀ l ∈ c.concurrency.limits, l.2 ≤ Limiter.maxCapacity) →
      ∀ key, c.capacity key ≤ Limiter.maxCapacity
  awaits : ∀ (α : Type) (acts : List (Duration × Correlation.Action α)) (now : Duration)
      (id : Correlation.Id),
    let e := (Correlation.Desk.ofConfig c.correlation : Correlation.Desk α).engine.run acts
    e.closed = false → (∀ p ∈ e.entries, p.id = id → p.isOverdue now = true) →
      (Ticker.Showable (now + c.correlation.defaultTimeout) →
        e.Awaits now id (now + c.correlation.defaultTimeout)) ∧
      (¬ Ticker.Showable (now + c.correlation.defaultTimeout) →
        (e.register now id none).2 = .impossible)

theorem Positive.usable (h : c.Positive) : c.Usable where
  slots := h.capacity (1 ≤ ·) h.defaultLimit h.limits
  fits := h.capacity (· ≤ Limiter.maxCapacity)
  opens moves key t := by
    intro l hopen hnone
    have hsize : l.sizeFor key none = c.capacity key := by
      have hsizes : l.sizeFor = (Limiter.ofConfig c.concurrency).sizeFor :=
        Admission.Desk.sizeFor_play _ moves
      rw [hsizes]
      exact Nat.max_eq_left (h.capacity (1 ≤ ·) h.defaultLimit h.limits key)
    rw [← hsize]
    exact ⟨Admission.opens_of_absent hopen hnone t, Admission.request_impossible hopen hnone t⟩
  awaits α acts now id := by
    intro e hopen hfree
    have hfresh : (Engine.fresh c.correlation.defaultTimeout : Engine α).WellFormed :=
      Engine.wellFormed_fresh _
    have he : e.WellFormed := Engine.run_wellFormed hfresh acts
    have htime : e.defaultTimeout = c.correlation.defaultTimeout :=
      Engine.run_defaultTimeout hfresh acts
    have hpos : .zero < c.correlation.defaultTimeout :=
      Nat.mul_pos h.timeout (by decide)
    rw [← htime] at hpos ⊢
    refine ⟨Engine.awaits_of_showable he hopen hfree hpos, fun hshow => ?_⟩
    rw [Engine.register_snd he hopen hfree, if_neg hshow]

/-- Whatever text a configuration is accepted from, it can be used as far as pools and clock
reach. -/
theorem parse_usable {text : List Char} (h : parse text = .ok c) : c.Usable :=
  (positive_of_flaws (flaws_of_parse h)).usable

theorem parse_eq_ok {text : List Char} (h : (parse text).toOption = some c) :
    parse text = .ok c := by
  cases hparse : parse text with
  | error => simp [hparse, Except.toOption] at h
  | ok read => simpa [hparse, Except.toOption] using h

/-- Without a word about limits there are four slots for every key. -/
theorem shortest_usable : ∃ c, parse "agent.binary = \"a\"".toList = .ok c ∧ c.Usable ∧
    Admission.Opens (Limiter.ofConfig c.concurrency) "key" 0 4 := by
  have hparse : parse "agent.binary = \"a\"".toList = .ok { agent := { binary := "a" } } :=
    parse_eq_ok (by decide +kernel)
  have husable := parse_usable hparse
  exact ⟨_, hparse, husable, (husable.opens [] "key" 0 rfl rfl).1 (by decide)⟩

/-- The largest limit and the longest time that a text can hold are accepted, but there is no pool
of that size, and one second after the start of the clock no reply can be awaited for that time. -/
theorem largest_not_usable :
    ∃ c, parse ("agent.binary = \"a\"\nconcurrency.default_limit = 9223372036854775807\n" ++
        "correlation.default_timeout_seconds = 9223372036854775807").toList = .ok c ∧
      ((Limiter.ofConfig c.concurrency).request "key" none 0).2 = .impossible ∧
      ((Correlation.Desk.ofConfig c.correlation : Correlation.Desk Unit).engine.register
        (.ofSeconds 1) (.given "id") none).2 = .impossible :=
  ⟨{ agent := { binary := "a" }
     concurrency := { defaultLimit := maxSigned64 }
     correlation := { defaultTimeoutSeconds := maxSigned64 } },
    parse_eq_ok (by decide +kernel), by decide, by decide⟩

end Config

end AgentGateway
