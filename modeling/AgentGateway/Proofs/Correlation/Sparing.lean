import AgentGateway.Proofs.Correlation.Resolution

/-!
# What an action leaves alone

A registration and a reply are about one identifier. What an engine awaits under all others stays
as it is, entry by entry, and so does what their parties have been told (`Engine.Spares`). A
generated identifier is new as long as nobody has registered one that was not generated yet.
-/

namespace AgentGateway.Correlation

variable {α : Type}

def Action.claims (e : Engine α) : Action α → Option Id
  | register id _ => some id
  | registerNew name _ => some (.generated e.issued name)
  | _ => none

namespace Engine

/-- Whether the identifier is one that the engine need not generate any more. -/
def Issued (e : Engine α) : Id → Prop
  | .given _ => True
  | .generated number _ => number < e.issued

instance (e : Engine α) : DecidablePred e.Issued
  | .given _ => inferInstanceAs (Decidable True)
  | .generated number _ => inferInstanceAs (Decidable (number < e.issued))

variable {e : Engine α} {now : Duration} {a : Action α} {p : Pending}

theorem claims_of_made (h : (e.entry now a).made? e.defaultTimeout = some p) :
    a.claims e = some p.id := by
  have main : ∀ (id : Id) (timeout : Option Duration),
      (a = .register id timeout ∨ ∃ name, a = .registerNew name timeout) →
      e.entry now a = ⟨now, a, .registration id (e.register now id timeout).2⟩ → p.id = id := by
    intro id timeout ha hx
    rw [hx, made?_registration now a id timeout _ ha] at h
    cases hr : (e.register now id timeout).2 with
    | registered ticket =>
        rw [hr] at h
        exact (congrArg Pending.id (Option.some.inj h)).symm
    | refused cause => simp [hr, Registration.pending?] at h
    | impossible => simp [hr, Registration.pending?] at h
  cases a with
  | register id timeout => exact (congrArg some (main id timeout (.inl rfl) rfl)).symm
  | registerNew name timeout =>
      exact (congrArg some (main _ timeout (.inr ⟨name, rfl⟩) rfl)).symm
  | complete | fail | sweep | shutdown | drop => simp [entry, Entry.made?, perform] at h

theorem Issued.perform (he : e.WellFormed) {id : Id} (h : e.Issued id) (now : Duration)
    (a : Action α) : (e.perform now a).1.Issued id := by
  cases id with
  | given text => trivial
  | generated number name =>
      show number < (e.perform now a).1.issued
      have hissued := perform_issued he now a
      exact Nat.lt_of_lt_of_le h (hissued ▸ Nat.le_add_right _ _)

/-- A registration that is made has its identifier from then on. -/
theorem issued_of_made (he : e.WellFormed) (h : (e.entry now a).made? e.defaultTimeout = some p)
    (hid : e.Issued p.id ∨ ∃ name, p.id = .generated e.issued name) :
    (e.perform now a).1.Issued p.id := by
  obtain hid | ⟨name, hid⟩ := hid
  · exact hid.perform he now a
  · rw [hid]
    show e.issued < (e.perform now a).1.issued
    have hissued := perform_issued he now a
    rw [h, Option.toList_some, List.length_singleton] at hissued
    omega

theorem issued_of_registered (he : e.WellFormed) {name : String} {timeout : Option Duration}
    {ticket : Nat} (h : (e.registerNew now name timeout).2.2 = .registered ticket) :
    (e.registerNew now name timeout).1.Issued (.generated e.issued name) := by
  have hentry : e.entry now (.registerNew name timeout) = ⟨now, .registerNew name timeout,
      .registration (.generated e.issued name) (.registered ticket)⟩ :=
    congrArg (fun r => (⟨now, .registerNew name timeout, .registration _ r⟩ : Entry α)) h
  have hmade : (e.entry now (.registerNew name timeout)).made? e.defaultTimeout =
      some ⟨.generated e.issued name, ticket, now + timeout.getD e.defaultTimeout⟩ := by
    rw [hentry, made?_registration now _ _ timeout _ (.inr ⟨name, rfl⟩)]
    rfl
  exact issued_of_made he hmade (.inr ⟨name, rfl⟩)

/-- A generated identifier is refused only by an engine that has been shut down. -/
theorem registerNew_refused (he : e.WellFormed) (hnew : ∀ p ∈ e.entries, e.Issued p.id)
    {name : String} {timeout : Option Duration} {cause : Failure}
    (h : (e.registerNew now name timeout).2.2 = .refused cause) :
    e.closed = true ∧ cause = isShutDown ∧ (e.registerNew now name timeout).1 = e := by
  have hfree : e.find? (.generated e.issued name) = none := by
    refine find?_eq_none_iff.mpr fun p hp hid => ?_
    have hlt : e.Issued (.generated e.issued name) := hid ▸ hnew p hp
    exact Nat.lt_irrefl e.issued hlt
  have hsame : (e.registerNew now name timeout).1 = e := register_refused he h
  refine ⟨?_, ?_, hsame⟩
  · by_contra hopen
    change (e.register now _ timeout).2 = _ at h
    rw [register, if_neg hopen, hfree] at h
    simp only [insert] at h
    split_ifs at h
  · change (e.register now _ timeout).2 = _ at h
    unfold register at h
    split_ifs at h with hclosed
    · exact (Registration.refused.inj h).symm
    · rw [hfree] at h
      simp only [insert] at h
      split_ifs at h

/-- Nothing is awaited under an identifier after a reply to it. -/
theorem find?_resolve (e : Engine α) (now : Duration) (id : Id) (o : Outcome α) :
    (e.resolve now id o).1.find? id = none := by
  unfold resolve
  split
  next h => exact h
  next p h =>
    have hid : p.id = id := by simpa using List.find?_some h
    split <;> simp [find?_eq_none_iff, expire, remove, deliver, hid]

/-- Nothing changes but what is awaited under one identifier. -/
structure Spares (id : Id) (e e' : Engine α) : Prop where
  entries : ∀ p, p.id ≠ id → (p ∈ e'.entries ↔ p ∈ e.entries)
  outcomes : ∀ p ∈ e.entries, p.id ≠ id → e'.outcome? p.ticket = e.outcome? p.ticket
  closed : e'.closed = e.closed

theorem Spares.refl (id : Id) (e : Engine α) : Spares id e e :=
  ⟨fun _ _ => .rfl, fun _ _ _ => rfl, rfl⟩

/-- An action that settles nothing of another identifier spares all the others. -/
theorem spares_perform (he : e.WellFormed) {id : Id} (hcloses : a.closes = false)
    (hclaims : ∀ id' ∈ a.claims e, id' = id)
    (hverdict : ∀ p : Pending, p.id ≠ id → (e.entry now a).verdict? p = none) :
    Spares id e (e.perform now a).1 where
  entries p hp := by
    rw [mem_perform he]
    refine ⟨fun h => ?_, fun h => .inl ⟨h, hverdict p hp⟩⟩
    obtain ⟨h, -⟩ | hmade := h
    · exact h
    · exact absurd (hclaims p.id (claims_of_made hmade)) hp
  outcomes p hp hid := by
    have hstays := (mem_perform he).mpr (.inl ⟨hp, hverdict p hid⟩)
    rw [outcome?_of_mem he hp, outcome?_of_mem (perform_wellFormed he now a) hstays]
  closed := by
    rw [perform_eq he, hcloses, closeIf_false]
    rfl

theorem spares_registerNew (he : e.WellFormed) (now : Duration) (name : String)
    (timeout : Option Duration) :
    Spares (.generated e.issued name) e (e.registerNew now name timeout).1 :=
  spares_perform (a := .registerNew name timeout) he rfl
    (fun _ h => (Option.some.inj h).symm)
    fun p hp => (verdict?_registration now _ _ timeout (.inr ⟨name, rfl⟩) _ p).trans (if_neg hp)

theorem spares_resolve (he : e.WellFormed) (now : Duration) (id : Id) (o : Outcome α) :
    Spares id e (e.resolve now id o).1 := by
  rw [resolve_eq_perform]
  refine spares_perform he (closes_reply id o)
    (by cases o <;> simp [Action.reply, Action.claims]) ?_
  intro p hp
  rw [entry_reply, verdict?_reply, if_neg hp]

end Engine

end AgentGateway.Correlation
