import AgentGateway.Proofs.Bus.Ledger

/-!
# Replies go to those who asked

However submitters, worker, handlers, listener, sweeper and cancellation interleave, a submission
has its body handled at most once, leads to at most one reply, and gets at most one outcome: the
result that the handler gave for its own body, or a failure that says that no reply came in time
or that something was shut down.

The invariant `Traffic.Sound` joins the ledger of what is under way to what the engine knows: the
entry under the ticket of a submission is the submission's own, and an outcome under that ticket
is one that the record of the bus explains.
-/

namespace AgentGateway.Bus

open Correlation (Action Engine Entry Id Outcome Pending Registration overdue
  shutDownBefore)

variable {β α : Type}

/-! ## What the engine knows of the submissions -/

/-- Each submission has a ticket and an identifier of its own; an entry with its ticket is its
entry, and an outcome of its ticket is one that `ok` allows. -/
structure Known (e : Engine α) (submitted : List (Submitted β))
    (ok : Submitted β → Outcome α → Prop) : Prop where
  wellFormed : e.WellFormed
  named : ∀ s ∈ submitted, ∃ name, s.pending.id = .generated s.pending.ticket name
  issued : ∀ s ∈ submitted, s.pending.ticket < e.issued
  tickets : (submitted.map (·.pending.ticket)).Nodup
  entries : ∀ s ∈ submitted, ∀ p ∈ e.entries, p.ticket = s.pending.ticket → p = s.pending
  outcomes : ∀ s ∈ submitted, ∀ o, e.outcome? s.pending.ticket = some o → ok s o

namespace Known

variable {e : Engine α} {submitted : List (Submitted β)} {ok ok' : Submitted β → Outcome α → Prop}

theorem mono (h : Known e submitted ok) (hok : ∀ s ∈ submitted, ∀ o, ok s o → ok' s o) :
    Known e submitted ok' :=
  { h with outcomes := fun s hs o ho => hok s hs o (h.outcomes s hs o ho) }

/-- Generated identifiers with different tickets differ. -/
theorem ids_nodup (h : Known e submitted ok) : (submitted.map (·.pending.id)).Nodup := by
  have hpairs := List.pairwise_map.mp h.tickets
  refine List.pairwise_map.mpr (hpairs.imp_of_mem fun {s s'} hs hs' hne hid => hne ?_)
  obtain ⟨name, hname⟩ := h.named s hs
  obtain ⟨name', hname'⟩ := h.named s' hs'
  rw [hname, hname'] at hid
  exact (Id.generated.inj hid).1

theorem eq_of_id (h : Known e submitted ok) {s s' : Submitted β} (hs : s ∈ submitted)
    (hs' : s' ∈ submitted) (hid : s.pending.id = s'.pending.id) : s = s' :=
  List.inj_on_of_nodup_map h.ids_nodup hs hs' hid

/-- An action is harmless if whatever it settles it settles in an allowed way. -/
theorem perform (h : Known e submitted ok) (now : Duration) (a : Action α)
    (hok : ∀ s ∈ submitted, ∀ o, (e.entry now a).verdict? s.pending = some o → ok s o) :
    Known (e.perform now a).1 submitted ok where
  wellFormed := Engine.perform_wellFormed h.wellFormed now a
  named := h.named
  issued s hs := by
    have hlt := h.issued s hs
    have hissued := Engine.perform_issued h.wellFormed now a
    omega
  tickets := h.tickets
  entries s hs p hp ht := by
    obtain ⟨hp, -⟩ | hmade := (Engine.mem_perform h.wellFormed).mp hp
    · exact h.entries s hs p hp ht
    · obtain ⟨-, -, hticket, -⟩ := Engine.made?_entry h.wellFormed hmade
      have hlt := h.issued s hs
      omega
  outcomes s hs o ho := by
    obtain ⟨p, hp, ht, hv⟩ | ho := (Engine.outcome?_perform h.wellFormed).mp ho
    · obtain rfl := h.entries s hs p hp ht
      exact hok s hs o hv
    · exact h.outcomes s hs o ho

/-- A submission that is pending under a ticket of its own joins the others. -/
theorem concat (h : Known e submitted ok) {s : Submitted β} (hmem : s.pending ∈ e.entries)
    (hname : ∃ name, s.pending.id = .generated s.pending.ticket name)
    (hlt : s.pending.ticket < e.issued)
    (hne : ∀ x ∈ submitted, x.pending.ticket ≠ s.pending.ticket) :
    Known e (submitted ++ [s]) ok where
  wellFormed := h.wellFormed
  named := List.forall_mem_append.mpr ⟨h.named, List.forall_mem_singleton.mpr hname⟩
  issued := List.forall_mem_append.mpr ⟨h.issued, List.forall_mem_singleton.mpr hlt⟩
  tickets := by
    rw [List.map_append, List.nodup_append]
    refine ⟨h.tickets, List.nodup_singleton _, ?_⟩
    intro i hi j hj
    obtain ⟨x, hx, rfl⟩ := List.mem_map.mp hi
    rw [List.mem_singleton.mp hj]
    exact hne x hx
  entries := by
    refine List.forall_mem_append.mpr ⟨h.entries, List.forall_mem_singleton.mpr ?_⟩
    intro p hp ht
    have hnd := (List.nodup_append.mp (h.wellFormed.tickets.nodup_iff.mpr List.nodup_range)).1
    exact List.inj_on_of_nodup_map hnd hp hmem ht
  outcomes := by
    refine List.forall_mem_append.mpr ⟨h.outcomes, List.forall_mem_singleton.mpr ?_⟩
    intro o ho
    rw [Engine.outcome?_of_mem h.wellFormed hmem] at ho
    cases ho

theorem register (h : Known e submitted ok) {now : Duration} {name : String}
    {timeout : Option Duration} {id : Id} {ticket : Nat}
    (hr : (e.registerNew now name timeout).2 = (id, .registered ticket)) (body : β)
    (hok : ∀ s ∈ submitted, ok s (.error (overdue s.pending.id))) :
    Known (e.registerNew now name timeout).1
      (submitted ++ [⟨⟨id, ticket, now + timeout.getD e.defaultTimeout⟩, body⟩]) ok := by
  have hold : Known (e.registerNew now name timeout).1 submitted ok := by
    refine h.perform now (.registerNew name timeout) fun s hs o hv => ?_
    obtain ⟨rfl, -⟩ | ⟨-, ha⟩ | ⟨-, ha⟩ | ha := Engine.verdict?_cases hv
    · exact hok s hs
    · cases ha
    · cases ha
    · cases o <;> cases ha
  have hmade : (e.entry now (.registerNew name timeout)).made? e.defaultTimeout =
      some ⟨id, ticket, now + timeout.getD e.defaultTimeout⟩ := by
    simp [Engine.entry, Engine.perform, Entry.made?, hr, Registration.pending?]
  obtain ⟨-, -, hticket, -⟩ := Engine.made?_entry h.wellFormed hmade
  have hticket : ticket = e.issued := hticket
  have hid : id = .generated e.issued name := (congrArg Prod.fst hr).symm
  have hissued := Engine.perform_issued h.wellFormed now (.registerNew name timeout)
  rw [hmade] at hissued
  refine hold.concat ?_ ⟨name, by rw [hid, hticket]⟩ ?_ fun s hs => ?_
  · exact (Engine.mem_perform h.wellFormed (a := .registerNew name timeout)).mpr (.inr hmade)
  · show ticket < (e.perform now (.registerNew name timeout)).1.issued
    rw [hissued, hticket]
    exact Nat.lt_succ_self _
  · have hlt := h.issued s hs
    show s.pending.ticket ≠ ticket
    omega

end Known

/-! ## What may become of a submission -/

def Move.isApart : Move β α → Bool
  | .submit .. | .deliver | .endWorker | .engine _ => false
  | _ => true

namespace Traffic

/-- Whether the record explains an outcome: the handler gave it for the body that was submitted,
or no reply came in time, or something was shut down before. -/
def Explains (t : Traffic β α) (s : Submitted β) (o : Outcome α) : Prop :=
  (∃ a ∈ t.answered, a.byHandler = true ∧ a.job.id = s.pending.id ∧ a.job.body = s.body ∧
    a.result = o) ∨
  o = .error (overdue s.pending.id) ∨ o = .error stopped ∨ o = .error notRunning ∨
  o = .error (shutDownBefore s.pending.id)

/-- The record is true, and the engine agrees with it. -/
structure Sound (t : Traffic β α) : Prop where
  ledger : t.Ledger
  known : Known t.gateway.engine t.submitted t.Explains

variable {t t' : Traffic β α}

structure Frame (t t' : Traffic β α) : Prop where
  engine : t'.gateway.engine = t.gateway.engine
  submitted : t'.submitted = t.submitted
  answered : t.answered ⊆ t'.answered

theorem Frame.refl (t : Traffic β α) : Frame t t := ⟨rfl, rfl, List.Subset.refl _⟩

theorem frame_step (t : Traffic β α) {m : Move β α} (hm : m.isApart = true) :
    Frame t (t.step m) := by
  have hconclude : ∀ (a : Answered β α) (w : Worker β α) (sent : Bool),
      Frame t (t.conclude a w sent) :=
    fun a w sent => ⟨rfl, rfl, List.subset_append_left _ _⟩
  have hsame : ∀ {t' : Traffic β α}, t'.gateway.engine = t.gateway.engine →
      t'.submitted = t.submitted → t'.answered = t.answered → Frame t t' :=
    fun he hs ha => ⟨he, hs, by rw [ha]; exact List.Subset.refl _⟩
  cases m with
  | submit | deliver | endWorker | engine => cases hm
  | fire | drop | elapse => exact hsame rfl rfl rfl
  | take =>
    show Frame t (t.take)
    unfold take
    split <;> exact hsame rfl rfl rfl
  | finish number result =>
    show Frame t (t.finish number result)
    unfold finish
    split
    next => exact hconclude _ _ _
    next => exact .refl t
  | crash number =>
    show Frame t (t.crash number)
    unfold crash
    split <;> exact hsame rfl rfl rfl
  | notice =>
    show Frame t (t.notice)
    unfold notice
    split <;> exact hsame rfl rfl rfl
  | giveUp number =>
    show Frame t (t.giveUp number)
    unfold giveUp
    split
    next =>
      split
      next => exact hconclude _ _ _
      next => exact .refl t
    next => exact .refl t
  | stopListening =>
    show Frame t (t.stopListening)
    unfold stopListening
    split <;> exact hsame rfl rfl rfl
  | close =>
    show Frame t (t.close)
    unfold close
    split <;> exact hsame rfl rfl rfl

theorem Explains.mono (h : t.answered ⊆ t'.answered) {s : Submitted β} {o : Outcome α}
    (he : t.Explains s o) : t'.Explains s o := by
  obtain ⟨a, ha, hrest⟩ | he := he
  · exact .inl ⟨a, h ha, hrest⟩
  · exact .inr he

theorem explains_overdue (t : Traffic β α) (s : Submitted β) :
    t.Explains s (.error (overdue s.pending.id)) := .inr (.inl rfl)

theorem explains_notRunning (t : Traffic β α) (s : Submitted β) :
    t.Explains s (.error notRunning) := .inr (.inr (.inr (.inl rfl)))

theorem reply_ne_of_leaves {a : Action α} (h : t.leaves a = true) {s : Submitted β}
    (hs : s ∈ t.submitted) (o : Outcome α) : a ≠ .reply s.pending.id o := by
  rintro rfl
  have hnot : (!t.submitted.any (·.pending.id == s.pending.id)) = true := by
    cases o <;> exact h
  rw [Bool.not_eq_true', List.any_eq_false] at hnot
  exact hnot s hs (beq_self_eq_true _)

theorem explains_verdict {e : Engine α} {now : Duration} {a : Action α} {s : Submitted β}
    {o : Outcome α} (hdrop : a ≠ .drop) (hreply : a = .reply s.pending.id o → t.Explains s o)
    (hv : (e.entry now a).verdict? s.pending = some o) : t.Explains s o := by
  obtain ⟨rfl, -⟩ | ⟨rfl, -⟩ | ⟨-, ha⟩ | ha := Engine.verdict?_cases hv
  · exact t.explains_overdue s
  · exact .inr (.inr (.inr (.inr rfl)))
  · exact absurd ha hdrop
  · exact hreply ha

namespace Sound

theorem opening {e : Engine α} (he : e.WellFormed) (capacity : Nat) (now : Duration) :
    (Traffic.opening e capacity now : Traffic β α).Sound where
  ledger := .opening e capacity now
  known := ⟨he, by simp [Traffic.opening], by simp [Traffic.opening], List.nodup_nil,
    by simp [Traffic.opening], by simp [Traffic.opening]⟩

theorem submitted_of_invoked (h : t.Sound) {j : Job β} (hj : j ∈ t.invoked) :
    ∃ s ∈ t.submitted, s.pending.id = j.id ∧ s.body = j.body := by
  have hkey : j.key ∈ t.submitted.map (·.key) :=
    h.ledger.requests.mem_iff.mpr (.inl (List.mem_map_of_mem hj))
  obtain ⟨s, hs, heq⟩ := List.mem_map.mp hkey
  exact ⟨s, hs, congrArg Prod.fst heq, congrArg Prod.snd heq⟩

/-- A reply on its way carries the result for the body that was submitted under its identifier,
whichever submission that is. -/
theorem explains_reply (h : t.Sound) {r : Reply α} (hr : r ∈ t.replies.contents)
    {s : Submitted β} (hs : s ∈ t.submitted) (hid : r.id = s.pending.id) :
    t.Explains s r.result := by
  have hmem : r ∈ t.answered.map (·.reply) := h.ledger.replies.mem_iff.mpr (.inr (.inl hr))
  obtain ⟨a, ha, rfl⟩ := List.mem_map.mp hmem
  have hj : a.job ∈ t.invoked := h.ledger.jobs.mem_iff.mpr (.inl (List.mem_map_of_mem ha))
  obtain ⟨s', hs', hid', hbody⟩ := h.submitted_of_invoked hj
  have hjob : a.job.id = s.pending.id := hid
  obtain rfl := h.known.eq_of_id hs' hs (hid'.trans hjob)
  cases hby : a.byHandler with
  | true => exact .inl ⟨a, ha, hby, hjob, hbody.symm, rfl⟩
  | false =>
    have hstopped : a.reply.result = .error stopped := h.ledger.gaveUp a ha hby
    exact .inr (.inr (.inl hstopped))

theorem apart (h : t.Sound) (hf : Frame t t') (hl : t'.Ledger) : t'.Sound where
  ledger := hl
  known := by
    rw [hf.engine, hf.submitted]
    exact h.known.mono fun s _ o => Explains.mono hf.answered

/-- Registering anew leaves the earlier submissions alone. -/
theorem registerNew (h : t.Sound) (name : String) (timeout : Option Duration) :
    Known (t.gateway.engine.registerNew t.now name timeout).1 t.submitted t.Explains :=
  h.known.perform t.now (.registerNew name timeout) fun s _ o =>
    explains_verdict (by simp) fun ha => by cases o <;> cases ha

theorem refuse {e : Engine α} (h : Known e t.submitted t.Explains) (id : Id) :
    Known (e.fail t.now id notRunning).1 t.submitted t.Explains :=
  h.perform t.now (.fail id notRunning) fun s _ o =>
    explains_verdict (by simp) fun ha => by
      obtain ⟨-, rfl⟩ := Engine.reply_inj.mp (show Action.reply id (.error notRunning) = _ from ha)
      exact t.explains_notRunning s

theorem submit (h : t.Sound) (name : String) (body : β) (timeout : Option Duration) :
    (t.submit name body timeout).Sound := by
  refine ⟨h.ledger.submit name body timeout, ?_⟩
  obtain heq | ⟨id, ticket, requests, hr, -, -, heq⟩ | ⟨id, -, -, heq⟩ | heq :=
    t.submit_cases name body timeout
  · rw [heq]
    exact h.known
  · rw [heq]
    exact h.known.register hr body fun s _ => t.explains_overdue s
  · rw [heq]
    exact refuse (h.registerNew name timeout) id
  · rw [heq]
    exact h.registerNew name timeout

theorem deliver (h : t.Sound) : t.deliver.Sound := by
  refine ⟨h.ledger.deliver, ?_⟩
  unfold Traffic.deliver
  split
  next gateway hg =>
    obtain ⟨-, reply, replies, hr, rfl⟩ := Gateway.deliver?_eq_some hg
    have hmem : reply ∈ t.replies.contents := by
      rw [Traffic.replies, Channel.contents_receive? hr]
      exact List.mem_cons_self
    show Known (t.gateway.engine.resolve t.now reply.id reply.result).1 t.submitted t.Explains
    rw [Engine.resolve_eq_perform]
    refine h.known.perform t.now (.reply reply.id reply.result) fun s hs o =>
      explains_verdict ?_ ?_
    · intro ha
      have hcloses := Engine.closes_reply reply.id reply.result
      rw [ha] at hcloses
      cases hcloses
    · intro ha
      obtain ⟨hid, rfl⟩ := Engine.reply_inj.mp ha
      exact h.explains_reply hmem hs hid
  next => exact h.known

theorem endWorker (h : t.Sound) : t.endWorker.Sound := by
  refine ⟨h.ledger.endWorker, ?_⟩
  unfold Traffic.endWorker
  split
  next gateway refused hg =>
    obtain ⟨worker, -, -, rfl⟩ := Gateway.endWorker?_eq_some hg
    have hfails : ∀ (ids : List Id) (e : Engine α), Known e t.submitted t.Explains →
        Known (ids.foldl (fun e id => (e.fail t.now id notRunning).1) e) t.submitted
          t.Explains := by
      intro ids
      induction ids with
      | nil => exact fun e he => he
      | cons id ids ih =>
        intro e he
        exact ih _ (refuse he id)
    exact hfails refused _ h.known
  next => exact h.known

theorem act (h : t.Sound) (a : Action α) : (t.act a).Sound := by
  refine ⟨h.ledger.act a, ?_⟩
  unfold Traffic.act
  split
  next hleaves =>
    refine h.known.perform t.now a fun s hs o => explains_verdict ?_ fun ha => ?_
    · rintro rfl
      cases hleaves
    · exact absurd ha (reply_ne_of_leaves hleaves hs o)
  next => exact h.known

theorem step (h : t.Sound) (m : Move β α) : (t.step m).Sound := by
  cases hm : m.isApart with
  | true => exact h.apart (frame_step t hm) (h.ledger.step m)
  | false =>
    cases m with
    | submit name body timeout => exact h.submit name body timeout
    | deliver => exact h.deliver
    | endWorker => exact h.endWorker
    | engine a => exact h.act a
    | take | finish | crash | fire | notice | giveUp | stopListening | close | drop | elapse =>
      cases hm

end Sound

theorem run_sound (h : t.Sound) (moves : List (Move β α)) : (t.run moves).Sound := by
  induction moves generalizing t with
  | nil => exact h
  | cons m moves ih => exact ih (h.step m)

/-! ## Outcomes stay -/

theorem foldl_fail (now : Duration) (ids : List Id) (e : Engine α) :
    ids.foldl (fun e id => (e.fail now id notRunning).1) e =
      e.run (ids.map fun id => (now, .fail id notRunning)) := by
  induction ids generalizing e with
  | nil => rfl
  | cons id ids ih => exact ih (e.fail now id notRunning).1

/-- Whatever happens on the bus, the engine is used in no other ways than its own. -/
theorem engine_step (t : Traffic β α) (m : Move β α) :
    ∃ acts, (t.step m).gateway.engine = t.gateway.engine.run acts := by
  cases hm : m.isApart with
  | true => exact ⟨[], (frame_step t hm).engine⟩
  | false =>
    cases m with
    | submit name body timeout =>
      show ∃ acts, (t.submit name body timeout).gateway.engine = t.gateway.engine.run acts
      obtain heq | ⟨id, ticket, requests, -, -, -, heq⟩ | ⟨id, -, -, heq⟩ | heq :=
        t.submit_cases name body timeout
      · rw [heq]
        exact ⟨[], rfl⟩
      · rw [heq]
        exact ⟨[(t.now, .registerNew name timeout)], rfl⟩
      · rw [heq]
        exact ⟨[(t.now, .registerNew name timeout), (t.now, .fail id notRunning)], rfl⟩
      · rw [heq]
        exact ⟨[(t.now, .registerNew name timeout)], rfl⟩
    | deliver =>
      show ∃ acts, t.deliver.gateway.engine = t.gateway.engine.run acts
      unfold Traffic.deliver
      split
      next gateway hg =>
        obtain ⟨-, reply, replies, -, rfl⟩ := Gateway.deliver?_eq_some hg
        exact ⟨[(t.now, .reply reply.id reply.result)], Engine.resolve_eq_perform ..⟩
      next => exact ⟨[], rfl⟩
    | endWorker =>
      show ∃ acts, t.endWorker.gateway.engine = t.gateway.engine.run acts
      unfold Traffic.endWorker
      split
      next gateway refused hg =>
        obtain ⟨worker, -, -, rfl⟩ := Gateway.endWorker?_eq_some hg
        exact ⟨_, foldl_fail t.now refused t.gateway.engine⟩
      next => exact ⟨[], rfl⟩
    | engine a =>
      show ∃ acts, (t.act a).gateway.engine = t.gateway.engine.run acts
      unfold Traffic.act
      split
      next => exact ⟨[(t.now, a)], rfl⟩
      next => exact ⟨[], rfl⟩
    | take | finish | crash | fire | notice | giveUp | stopListening | close | drop | elapse =>
      cases hm

theorem engine_run (t : Traffic β α) (moves : List (Move β α)) :
    ∃ acts, (t.run moves).gateway.engine = t.gateway.engine.run acts := by
  induction moves generalizing t with
  | nil => exact ⟨[], rfl⟩
  | cons m moves ih =>
    obtain ⟨first, hfirst⟩ := t.engine_step m
    obtain ⟨rest, hrest⟩ := ih (t.step m)
    refine ⟨first ++ rest, ?_⟩
    rw [Engine.run_append, ← hfirst]
    exact hrest

end Traffic

/-! ## No reply goes astray -/

/-- Everybody gets what belongs to their own submission, and gets it once. Submissions are told
apart by their identifiers and by their tickets. The handler is invoked with the bodies of
submissions, at most once for each; each handling ends at most once, and there is at most one reply
for each request. The outcome of a submission is the result for its own body, or says that no reply
came in time or that something was shut down; nobody gets two outcomes, and an outcome stays
whatever happens next. -/
structure NoCrossDelivery (t : Traffic β α) : Prop where
  ids : (t.submitted.map (·.pending.id)).Nodup
  tickets : (t.submitted.map (·.pending.ticket)).Nodup
  invokedFor : ∀ j ∈ t.invoked, ∃ s ∈ t.submitted, s.pending.id = j.id ∧ s.body = j.body
  invokedOnce : (t.invoked.map (·.id)).Nodup
  answeredFor : ∀ a ∈ t.answered, a.job ∈ t.invoked
  answeredOnce : (t.answered.map (·.job.id)).Nodup
  repliesFor : ∀ r ∈ t.consumed ++ t.replies.contents ++ t.lostReplies,
    ∃ a ∈ t.answered, r = a.reply
  repliesOnce : ((t.consumed ++ t.replies.contents ++ t.lostReplies).map (·.id)).Nodup
  outcome : ∀ s ∈ t.submitted, ∀ o, t.gateway.engine.outcome? s.pending.ticket = some o →
    t.Explains s o
  once : (t.gateway.engine.outcomes.map (·.1)).Nodup
  stays : ∀ moves ticket o, t.gateway.engine.outcome? ticket = some o →
    (t.run moves).gateway.engine.outcome? ticket = some o

namespace Traffic

variable {t : Traffic β α}

theorem Sound.invoked_nodup (h : t.Sound) : (t.invoked.map (·.id)).Nodup := by
  have hids := h.ledger.requests.map Prod.fst
  simp only [List.map_map] at hids
  exact hids.nodup_out h.known.ids_nodup

theorem Sound.answered_nodup (h : t.Sound) : (t.answered.map (·.job.id)).Nodup := by
  have hjobs := h.ledger.jobs.map (·.id)
  rw [List.map_map] at hjobs
  exact hjobs.nodup_out h.invoked_nodup

theorem Sound.noCrossDelivery (h : t.Sound) : NoCrossDelivery t where
  ids := h.known.ids_nodup
  tickets := h.known.tickets
  invokedFor _ hj := h.submitted_of_invoked hj
  invokedOnce := h.invoked_nodup
  answeredFor _ ha := h.ledger.jobs.mem_iff.mpr (.inl (List.mem_map_of_mem ha))
  answeredOnce := h.answered_nodup
  repliesFor r hr := by
    obtain ⟨a, ha, rfl⟩ := List.mem_map.mp ((List.Perm.mem_iff h.ledger.replies).mpr hr)
    exact ⟨a, ha, rfl⟩
  repliesOnce := by
    have hperm := List.Perm.map (·.id) h.ledger.replies
    rw [List.map_map] at hperm
    exact hperm.nodup_iff.mp h.answered_nodup
  outcome := h.known.outcomes
  once := Engine.outcomes_nodup h.known.wellFormed
  stays moves ticket o ho := by
    obtain ⟨acts, heq⟩ := t.engine_run moves
    rw [heq]
    exact Engine.outcome?_run_of_some h.known.wellFormed ho acts

/-- On a bus of any capacity that starts on any engine nothing is delivered to the wrong party,
whatever happens in whatever order. -/
theorem run_noCrossDelivery (timeout : Duration) (past : List (Duration × Action α))
    (capacity : Nat) (start : Duration) (moves : List (Move β α)) :
    NoCrossDelivery
      ((Traffic.opening ((Engine.fresh timeout).run past) capacity start).run moves) := by
  have hengine : ((Engine.fresh timeout : Engine α).run past).WellFormed :=
    Engine.run_wellFormed (Engine.wellFormed_fresh timeout) past
  exact (run_sound (Sound.opening hengine capacity start) moves).noCrossDelivery

end Traffic

end AgentGateway.Bus
