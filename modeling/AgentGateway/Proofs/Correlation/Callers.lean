import AgentGateway.Correlation.Desk
import AgentGateway.Proofs.Correlation.Resolution

/-!
# Callers get exactly one outcome

At a desk, callers register and forget their replies, replies arrive, the clock moves, and the
background sweep runs by itself. Each step at a desk is a run of actions on its engine
(`Desk.step_engine`), so the log of these actions says everything about the engine, and callers
are told nothing but the outcomes of their own registrations, each once. Only a caller that has
forgotten its reply before it came is not told.
-/

namespace AgentGateway.Correlation

variable {α : Type}

/-- What can happen at a desk. -/
inductive Step (α : Type) where
  | register (name : String) (id : Id) (timeout : Option Duration)
  | registerNew (name : String) (timeout : Option Duration)
  | complete (id : Id) (value : α)
  | fail (id : Id) (cause : Failure)
  | sweep
  | shutdown
  | drop
  | forget (name : String)
  | sleep (time : Duration)
  | jump (time : Duration)
  deriving Inhabited

/-- Whether a step needs somebody who still has hold of the engine. -/
def Step.asks : Step α → Bool
  | .forget _ | .sleep _ | .jump _ => false
  | _ => true

namespace Desk

/-- What a step makes of a desk. Nothing can be asked of an engine that is gone. -/
def step (d : Desk α) (s : Step α) : Desk α :=
  if s.asks && d.gone then d
  else match s with
    | .register name id timeout => (d.register name id timeout).1
    | .registerNew name timeout => (d.registerNew name timeout).1
    | .complete id value => (d.resolve id (.ok value)).1
    | .fail id cause => (d.resolve id (.error cause)).1
    | .sweep => d.sweep.1
    | .shutdown => d.shutdown.1
    | .drop => d.drop
    | .forget name => d.forget name
    | .sleep time => d.sleep time
    | .jump time => d.jump time

def steps (d : Desk α) : List (Step α) → Desk α
  | [] => d
  | s :: rest => steps (d.step s) rest

/-- The moments at which the background sweep finds something until `moment`. -/
def sweeps (moment : Duration) : (fuel : Nat) → Desk α → List Duration
  | 0, _ => []
  | fuel + 1, d =>
    match d.due? with
    | some t => if t ≤ moment then d.now.tickFrom t :: sweeps moment fuel (sweepAt t d) else []
    | none => []

def sweepAfterJump (d : Desk α) (time : Duration) : List Duration :=
  match d.sweeper with
  | some ticker => if ticker.nextAfter d.now d.now ≤ d.now + time then [d.now + time] else []
  | none => []

def acts (d : Desk α) (s : Step α) : List (Duration × Action α) :=
  if s.asks && d.gone then []
  else match s with
    | .register _ id timeout => [(d.now, .register id timeout)]
    | .registerNew name timeout => [(d.now, .registerNew name timeout)]
    | .complete id value => [(d.now, .complete id value)]
    | .fail id cause => [(d.now, .fail id cause)]
    | .sweep => [(d.now, .sweep)]
    | .shutdown => [(d.now, .shutdown)]
    | .drop => [(d.now, .drop)]
    | .forget _ => []
    | .sleep time =>
      (sweeps (d.now.tickFrom (d.now + time)) (d.engine.count + 1) d).map (·, .sweep)
    | .jump time => (d.sweepAfterJump time).map (·, .sweep)

def allActs (d : Desk α) : List (Step α) → List (Duration × Action α)
  | [] => []
  | s :: rest => d.acts s ++ allActs (d.step s) rest

def history (d : Desk α) (ss : List (Step α)) : List (Entry α) := d.engine.log (d.allActs ss)

@[simp] theorem enter_engine (d : Desk α) (name : String) (id : Id) (r : Registration) :
    (d.enter name id r).engine = d.engine := by
  cases r <;> rfl

theorem runUntil_engine (moment : Duration) (fuel : Nat) (d : Desk α) :
    (runUntil due? sweepAt moment fuel d).engine =
      d.engine.run ((sweeps moment fuel d).map (·, .sweep)) := by
  induction fuel generalizing d with
  | zero => rfl
  | succ fuel ih =>
      simp only [runUntil, sweeps]
      cases d.due? with
      | none => rfl
      | some t =>
          by_cases ht : t ≤ moment
          · simp only [if_pos ht, ih]
            rfl
          · simp only [if_neg ht]
            rfl

theorem jump_engine (d : Desk α) (time : Duration) :
    (d.jump time).engine = d.engine.run ((d.sweepAfterJump time).map (·, .sweep)) := by
  unfold jump sweepAfterJump
  cases d.sweeper with
  | none => rfl
  | some ticker =>
      by_cases ht : ticker.nextAfter d.now d.now ≤ d.now + time
      · simp only [if_pos ht]
        rfl
      · simp only [if_neg ht]
        rfl

theorem forget_engine (d : Desk α) (name : String) : (d.forget name).engine = d.engine := by
  unfold forget
  split <;> rfl

theorem step_engine (d : Desk α) (s : Step α) : (d.step s).engine = d.engine.run (d.acts s) := by
  unfold step acts
  split
  next => rfl
  next =>
    cases s with
    | register name id timeout => exact enter_engine _ _ _ _
    | registerNew name timeout => exact enter_engine _ _ _ _
    | complete | fail | sweep | shutdown | drop => rfl
    | forget name => exact forget_engine d name
    | sleep time => exact runUntil_engine _ _ d
    | jump time => exact jump_engine d time

theorem steps_engine (d : Desk α) (ss : List (Step α)) :
    (d.steps ss).engine = d.engine.run (d.allActs ss) := by
  induction ss generalizing d with
  | nil => rfl
  | cons s ss ih => rw [steps, ih, step_engine, allActs, Engine.run_append]

/-- The ticket of a caller that forgets its reply in a step, before the reply has come. -/
def forgets (d : Desk α) : Step α → List Nat
  | .forget name =>
    ((d.caller? name).toList.map (·.ticket)).filter fun n => (d.engine.outcome? n).isNone
  | _ => []

/-- The tickets of all callers that forget their replies in several steps. -/
def forgotten (d : Desk α) : List (Step α) → List Nat
  | [] => []
  | s :: rest => d.forgets s ++ forgotten (d.step s) rest

/-- Callers learn outcomes of their own registrations only. Each whose outcome has come has
learned it once, unless it forgot it before, and no other has. -/
structure Told (past : List Nat) (d : Desk α) : Prop where
  tickets : (d.callers.map (·.ticket)).Nodup
  issued : ∀ c ∈ d.callers, c.ticket < d.engine.issued
  forgotten : ∀ n ∈ past, n < d.engine.issued
  listening : ∀ c ∈ d.callers,
    c.listening = true ↔ c.ticket ∉ past ∧ d.engine.outcome? c.ticket = none
  notes : ∃ told : List Caller, (told.map (·.ticket)).Nodup ∧
    (∀ c ∈ told, ∃ x ∈ d.callers, x.name = c.name ∧ x.ticket = c.ticket ∧ x.listening = false) ∧
    (∀ x ∈ d.callers, (∃ c ∈ told, c.name = x.name ∧ c.ticket = x.ticket) ↔
      x.ticket ∉ past ∧ (d.engine.outcome? x.ticket).isSome = true) ∧
    d.notes.map (fun n => (n.who, some n.what)) =
      told.map fun c => (c.name, d.engine.outcome? c.ticket)

def afterwards (e : Engine α) (c : Caller) : Caller :=
  if (e.outcome? c.ticket).isSome then { c with listening := false } else c

theorem tell_callers (d : Desk α) : d.tell.callers = d.callers.map (afterwards d.engine) := rfl

@[simp] theorem afterwards_ticket (e : Engine α) (c : Caller) :
    (afterwards e c).ticket = c.ticket := by
  unfold afterwards
  split <;> rfl

@[simp] theorem afterwards_name (e : Engine α) (c : Caller) :
    (afterwards e c).name = c.name := by
  unfold afterwards
  split <;> rfl

theorem afterwards_listening (e : Engine α) (c : Caller) :
    (afterwards e c).listening = true ↔ c.listening = true ∧ e.outcome? c.ticket = none := by
  unfold afterwards
  split
  next hsome => simp [Option.ne_none_iff_isSome.mpr hsome]
  next hnone => simp [Option.not_isSome_iff_eq_none.mp hnone]

def addressed (e : Engine α) (callers : List Caller) : List Caller :=
  callers.reverse.filter fun c => c.listening && (e.outcome? c.ticket).isSome

theorem tell_notes (d : Desk α) :
    d.tell.notes.map (fun n => (n.who, some n.what)) =
      d.notes.map (fun n => (n.who, some n.what)) ++
        (addressed d.engine d.callers).map fun c => (c.name, d.engine.outcome? c.ticket) := by
  simp only [tell, List.map_append, List.map_map, List.append_cancel_left_eq]
  unfold Engine.answered addressed
  generalize d.engine = e
  induction d.callers.reverse with
  | nil => rfl
  | cons c l ih =>
      cases hl : c.listening with
      | false => simpa [List.filterMap_cons, hl] using ih
      | true =>
          cases ho : e.outcome? c.ticket with
          | none => simpa [List.filterMap_cons, hl, ho] using ih
          | some o => simpa [List.filterMap_cons, hl, ho] using ih

theorem Told.tell {d : Desk α} {past : List Nat} (h : d.Told past) (he : d.engine.WellFormed)
    (acts : List (Duration × Action α)) (hi : d.engine.issued ≤ (d.engine.run acts).issued) :
    ({ d with engine := d.engine.run acts } : Desk α).tell.Told past where
  tickets := by
    rw [tell_callers, List.map_map]
    simpa [Function.comp_def] using h.tickets
  issued := by
    intro c hc
    rw [tell_callers] at hc
    obtain ⟨x, hx, rfl⟩ := List.mem_map.mp hc
    rw [afterwards_ticket]
    exact Nat.lt_of_lt_of_le (h.issued x hx) hi
  forgotten n hn := Nat.lt_of_lt_of_le (h.forgotten n hn) hi
  listening := by
    intro c hc
    rw [tell_callers] at hc
    obtain ⟨x, hx, rfl⟩ := List.mem_map.mp hc
    rw [afterwards_ticket, afterwards_listening, h.listening x hx]
    constructor
    · rintro ⟨⟨hpast, -⟩, hnone⟩
      exact ⟨hpast, hnone⟩
    · rintro ⟨hpast, hnone⟩
      refine ⟨⟨hpast, Option.eq_none_iff_forall_ne_some.mpr fun o ho => ?_⟩, hnone⟩
      exact Option.some_ne_none o ((Engine.outcome?_run_of_some he ho acts).symm.trans hnone)
  notes := by
    obtain ⟨told, hnd, hmem, htold, hnotes⟩ := h.notes
    have hkept : ∀ c ∈ told,
        (d.engine.run acts).outcome? c.ticket = d.engine.outcome? c.ticket := by
      intro c hc
      have hn : (c.name, d.engine.outcome? c.ticket) ∈
          d.notes.map fun n => (n.who, some n.what) := by
        rw [hnotes]
        exact List.mem_map_of_mem hc
      obtain ⟨n, -, hn⟩ := List.mem_map.mp hn
      have ho : d.engine.outcome? c.ticket = some n.what := (congrArg Prod.snd hn).symm
      rw [ho, Engine.outcome?_run_of_some he ho]
    have hnew : ∀ c ∈ addressed (d.engine.run acts) d.callers, c ∈ d.callers ∧
        c.listening = true ∧ ((d.engine.run acts).outcome? c.ticket).isSome = true := by
      intro c hc
      simpa [addressed] using hc
    refine ⟨told ++ addressed (d.engine.run acts) d.callers, ?_, ?_, ?_, ?_⟩
    · rw [List.map_append]
      refine List.nodup_append.mpr ⟨hnd, ?_, ?_⟩
      · refine List.Nodup.sublist (List.filter_sublist.map _) ?_
        simpa using h.tickets
      · intro t ht u hu htu
        obtain ⟨c, hc, rfl⟩ := List.mem_map.mp ht
        obtain ⟨y, hy, rfl⟩ := List.mem_map.mp hu
        obtain ⟨x, hx, -, hxt, hxl⟩ := hmem c hc
        obtain ⟨hy, hyl, -⟩ := hnew y hy
        obtain rfl := List.inj_on_of_nodup_map h.tickets hx hy (hxt.trans htu)
        simp [hxl] at hyl
    · intro c hc
      rcases List.mem_append.mp hc with hc | hc
      · obtain ⟨x, hx, hxn, hxt, hxl⟩ := hmem c hc
        rw [tell_callers]
        refine ⟨afterwards (d.engine.run acts) x, List.mem_map_of_mem hx, by simpa using hxn,
          by simpa using hxt, ?_⟩
        unfold afterwards
        split <;> simp [hxl]
      · obtain ⟨hc, -, ho⟩ := hnew c hc
        rw [tell_callers]
        refine ⟨afterwards (d.engine.run acts) c, List.mem_map_of_mem hc, by simp, by simp, ?_⟩
        simp [afterwards, ho]
    · intro y hy
      rw [tell_callers] at hy
      obtain ⟨x, hx, rfl⟩ := List.mem_map.mp hy
      rw [afterwards_ticket, afterwards_name]
      constructor
      · rintro ⟨c, hc, hname, hticket⟩
        rcases List.mem_append.mp hc with hc | hc
        · obtain ⟨hpast, hsome⟩ := (htold x hx).mp ⟨c, hc, hname, hticket⟩
          rw [← hticket, ← hkept c hc, hticket] at hsome
          exact ⟨hpast, hsome⟩
        · obtain ⟨hc, hlistens, hsome⟩ := hnew c hc
          obtain rfl := List.inj_on_of_nodup_map h.tickets hc hx hticket
          exact ⟨((h.listening c hc).mp hlistens).1, hsome⟩
      · -- Whoever has an outcome now either had it before or still listens.
        rintro ⟨hpast, hsome⟩
        cases hbefore : d.engine.outcome? x.ticket with
        | some o =>
            obtain ⟨c, hc, hsame⟩ := (htold x hx).mpr ⟨hpast, by rw [hbefore]; rfl⟩
            exact ⟨c, List.mem_append_left _ hc, hsame⟩
        | none =>
            have hlistens := (h.listening x hx).mpr ⟨hpast, hbefore⟩
            have hhas : ((d.engine.run acts).outcome? x.ticket).isSome = true := hsome
            have haddressed : x ∈ addressed (d.engine.run acts) d.callers := by
              simpa [addressed, hlistens] using And.intro hx hhas
            exact ⟨x, List.mem_append_right _ haddressed, rfl, rfl⟩
    · have hold : told.map (fun c => (c.name, (d.engine.run acts).outcome? c.ticket)) =
          d.notes.map fun n => (n.who, some n.what) := by
        rw [hnotes]
        exact List.map_congr_left fun c hc => by rw [hkept c hc]
      rw [tell_notes, List.map_append]
      exact congrArg (· ++ _) hold.symm

/-- Whatever is done to the engine, callers are told in the same way what has come of it. -/
theorem Told.act {β : Type} {d : Desk α} {past : List Nat} (h : d.Told past)
    (he : d.engine.WellFormed) {f : Engine α → Engine α × β} (acts : List (Duration × Action α))
    (hf : (f d.engine).1 = d.engine.run acts) : (d.act f).1.Told past := by
  have ht := h.tell he acts (Engine.le_run_issued he acts)
  rw [← hf] at ht
  exact ht

theorem Told.enter {d : Desk α} {past : List Nat} (h : d.Told past) (name : String) (id : Id)
    {ticket : Nat} (hnew : ∀ c ∈ d.callers, c.ticket ≠ ticket) (hpast : ticket ∉ past)
    (hissued : ticket < d.engine.issued) (hnone : d.engine.outcome? ticket = none) :
    (d.enter name id (.registered ticket)).Told past where
  tickets := by
    simp only [Desk.enter, List.map_cons, List.nodup_cons]
    refine ⟨fun hm => ?_, h.tickets⟩
    obtain ⟨c, hc, ht⟩ := List.mem_map.mp hm
    exact hnew c hc ht
  issued c hc := by
    rcases List.mem_cons.mp hc with rfl | hc
    · exact hissued
    · exact h.issued c hc
  forgotten := h.forgotten
  listening c hc := by
    rcases List.mem_cons.mp hc with rfl | hc
    · exact ⟨fun _ => ⟨hpast, hnone⟩, fun _ => rfl⟩
    · exact h.listening c hc
  notes := by
    obtain ⟨told, hnd, hmem, htold, hnotes⟩ := h.notes
    refine ⟨told, hnd, fun c hc => ?_, fun x hx => ?_, hnotes⟩
    · obtain ⟨x, hx, hxc⟩ := hmem c hc
      exact ⟨x, List.mem_cons_of_mem _ hx, hxc⟩
    · rcases List.mem_cons.mp hx with rfl | hx
      · constructor
        · rintro ⟨c, hc, -, hticket⟩
          obtain ⟨y, hy, -, hyc, -⟩ := hmem c hc
          exact absurd (hyc.trans hticket) (hnew y hy)
        · rintro ⟨-, hsome⟩
          exact absurd hnone (Option.ne_none_iff_isSome.mpr hsome)
      · exact htold x hx

/-- A caller that registers joins with a ticket that nobody has. -/
theorem Told.register {d : Desk α} {past : List Nat} (h : d.Told past) (he : d.engine.WellFormed)
    (name : String) (id : Id) (timeout : Option Duration) :
    (d.register name id timeout).1.Told past := by
  have ha : (d.act fun e => e.register d.now id timeout).1.Told past :=
    h.act he [(d.now, .register id timeout)] rfl
  have hw := Engine.perform_wellFormed he d.now (.register id timeout)
  change ((d.act fun e => e.register d.now id timeout).1.enter name id
    (d.engine.register d.now id timeout).2).Told past
  cases hr : (d.engine.register d.now id timeout).2 with
  | refused => exact ha
  | impossible => exact ha
  | registered ticket =>
      obtain ⟨-, rfl, -⟩ := Engine.register_registered he.ids hr
      have hmade : (d.engine.entry d.now (.register id timeout)).made? d.engine.defaultTimeout =
          some ⟨id, d.engine.issued, d.now + timeout.getD d.engine.defaultTimeout⟩ := by
        simp [Engine.entry, Engine.perform, Entry.made?, Registration.pending?, hr]
      refine ha.enter name id (fun c hc => ?_) (fun hpast => ?_) ?_ ?_
      · obtain ⟨x, hx, rfl⟩ := List.mem_map.mp (tell_callers _ ▸ hc)
        rw [afterwards_ticket]
        exact Nat.ne_of_lt (h.issued x hx)
      · exact absurd (h.forgotten _ hpast) (Nat.lt_irrefl _)
      · have hi := Engine.perform_issued he d.now (.register id timeout)
        rw [hmade] at hi
        exact Nat.lt_of_lt_of_eq (Nat.lt_succ_self _) hi.symm
      · exact Engine.outcome?_of_mem hw ((Engine.mem_perform he).mpr (.inr hmade))

theorem mem_forgets {d : Desk α} {name : String} {n : Nat} :
    n ∈ d.forgets (.forget name) ↔
      (∃ c, d.caller? name = some c ∧ c.ticket = n) ∧ d.engine.outcome? n = none := by
  simp [forgets]

theorem Told.forget {d : Desk α} {past : List Nat} (h : d.Told past) (name : String) :
    (d.forget name).Told (past ++ d.forgets (.forget name)) := by
  cases hcaller : d.caller? name with
  | none =>
      have hforgets : d.forgets (.forget name) = [] := by simp [forgets, hcaller]
      rw [Desk.forget, hcaller, hforgets, List.append_nil]
      exact h
  | some c =>
      have hforgets : ∀ n, n ∈ d.forgets (.forget name) ↔
          n = c.ticket ∧ d.engine.outcome? n = none := by
        intro n
        simp [mem_forgets, hcaller, eq_comm]
      have hkeep : ∀ x : Caller, (if x.ticket = c.ticket then { x with listening := false } else x :
          Caller).ticket = x.ticket := fun x => by split <;> rfl
      have hcallers : (d.forget name).callers = d.callers.map fun x =>
          if x.ticket = c.ticket then { x with listening := false } else x := by
        simp [Desk.forget, hcaller]
      have hengine := d.forget_engine name
      refine ⟨?_, ?_, ?_, ?_, ?_⟩
      · rw [hcallers]
        simpa [Function.comp_def, hkeep] using h.tickets
      · intro x hx
        rw [hcallers] at hx
        obtain ⟨y, hy, rfl⟩ := List.mem_map.mp hx
        rw [hkeep, hengine]
        exact h.issued y hy
      · intro n hn
        rw [hengine]
        rcases List.mem_append.mp hn with hn | hn
        · exact h.forgotten n hn
        · obtain ⟨rfl, -⟩ := (hforgets n).mp hn
          exact h.issued c (List.mem_of_find?_eq_some hcaller)
      · intro x hx
        rw [hcallers] at hx
        obtain ⟨y, hy, rfl⟩ := List.mem_map.mp hx
        rw [hkeep, hengine, List.mem_append, hforgets]
        have hbefore := h.listening y hy
        by_cases hsame : y.ticket = c.ticket
        · simp [hsame]
        · simpa [hsame] using hbefore
      · obtain ⟨told, hnd, hmem, htold, hnotes⟩ := h.notes
        have hkept : (d.forget name).notes = d.notes := by simp [Desk.forget, hcaller]
        rw [hcallers, hengine, hkept]
        refine ⟨told, hnd, fun t ht => ?_, fun x hx => ?_, hnotes⟩
        · obtain ⟨x, hx, hn, htk, hl⟩ := hmem t ht
          refine ⟨_, List.mem_map_of_mem hx, ?_, ?_, ?_⟩
          · split <;> exact hn
          · rw [hkeep]
            exact htk
          · split
            · rfl
            · exact hl
        · obtain ⟨y, hy, rfl⟩ := List.mem_map.mp hx
          have hname : (if y.ticket = c.ticket then { y with listening := false } else y :
              Caller).name = y.name := by split <;> rfl
          rw [hkeep, hname, htold y hy, List.mem_append, hforgets, not_or]
          -- An outcome that has come is not forgotten any more.
          constructor
          · rintro ⟨hpast, hsome⟩
            exact ⟨⟨hpast, fun hnone => Option.ne_none_iff_isSome.mpr hsome hnone.2⟩, hsome⟩
          · rintro ⟨⟨hpast, -⟩, hsome⟩
            exact ⟨hpast, hsome⟩

theorem Told.setClock {d : Desk α} {past : List Nat} (h : d.Told past) (moment : Duration) :
    ({ d with now := moment } : Desk α).Told past :=
  ⟨h.tickets, h.issued, h.forgotten, h.listening, h.notes⟩

theorem Told.sweepAt {d : Desk α} {past : List Nat} (h : d.Told past) (he : d.engine.WellFormed)
    (t : Duration) : (Desk.sweepAt t d).Told past :=
  (h.setClock (d.now.tickFrom t)).act he [(d.now.tickFrom t, .sweep)] rfl

theorem Told.runUntil {d : Desk α} {past : List Nat} (h : d.Told past) (he : d.engine.WellFormed)
    (moment : Duration) (fuel : Nat) : (runUntil due? Desk.sweepAt moment fuel d).Told past := by
  induction fuel generalizing d with
  | zero => exact h
  | succ fuel ih =>
      simp only [AgentGateway.runUntil]
      cases d.due? with
      | none => exact h
      | some t =>
          by_cases ht : t ≤ moment
          · simp only [if_pos ht]
            exact ih (h.sweepAt he t) (Engine.perform_wellFormed he _ .sweep)
          · simpa only [if_neg ht] using h

theorem Told.jump {d : Desk α} {past : List Nat} (h : d.Told past) (he : d.engine.WellFormed)
    (time : Duration) : (d.jump time).Told past := by
  have hc := h.setClock (d.now + time)
  dsimp only [Desk.jump]
  split
  next ticker _ =>
    by_cases ht : ticker.nextAfter d.now d.now ≤ d.now + time
    · rw [if_pos ht]
      exact hc.act (f := fun e => e.sweep (d.now + time)) he [(d.now + time, .sweep)] rfl
    · rw [if_neg ht]
      exact hc
  next => exact hc

theorem Told.step {d : Desk α} {past : List Nat} (h : d.Told past) (he : d.engine.WellFormed)
    (s : Step α) : (d.step s).Told (past ++ d.forgets s) := by
  have hsame : ∀ {d' : Desk α} {s' : Step α}, d.forgets s' = [] → d'.Told past →
      d'.Told (past ++ d.forgets s') := by
    intro d' s' hnone hd'
    rwa [hnone, List.append_nil]
  unfold Desk.step
  split
  next hasked =>
    cases s with
    | forget | sleep | jump => simp [Step.asks] at hasked
    | register | registerNew | complete | fail | sweep | shutdown | drop => exact hsame rfl h
  next =>
    cases s with
    | register name id timeout => exact hsame rfl (h.register he name id timeout)
    | registerNew name timeout =>
        exact hsame rfl (h.register he name (.generated d.engine.issued name) timeout)
    | complete id value => exact hsame rfl (h.act he [(d.now, .complete id value)] rfl)
    | fail id cause => exact hsame rfl (h.act he [(d.now, .fail id cause)] rfl)
    | sweep => exact hsame rfl (h.act he [(d.now, .sweep)] rfl)
    | shutdown =>
        have hs : ({ d with sweeper := none } : Desk α).Told past :=
          ⟨h.tickets, h.issued, h.forgotten, h.listening, h.notes⟩
        exact hsame rfl (hs.act he [(d.now, .shutdown)] rfl)
    | drop =>
        have hs : ({ d with sweeper := none, gone := true } : Desk α).Told past :=
          ⟨h.tickets, h.issued, h.forgotten, h.listening, h.notes⟩
        exact hsame rfl (hs.act he [(d.now, .drop)] rfl)
    | forget name => exact h.forget name
    | sleep time => exact hsame rfl ((h.runUntil he _ _).setClock _)
    | jump time => exact hsame rfl (h.jump he time)

theorem Told.steps {d : Desk α} {past : List Nat} (h : d.Told past) (he : d.engine.WellFormed)
    (ss : List (Step α)) : (d.steps ss).Told (past ++ d.forgotten ss) := by
  induction ss generalizing d past with
  | nil =>
      rw [Desk.forgotten, List.append_nil]
      exact h
  | cons s ss ih =>
      rw [Desk.forgotten, ← List.append_assoc]
      refine ih (h.step he s) ?_
      rw [step_engine]
      exact Engine.run_wellFormed he _

/-- A desk before its first step, with a background sweep or without. Both `ofTimeout` and
`ofConfig` give such a desk. -/
def opening (timeout : Duration) (sweeper : Option Ticker) : Desk α :=
  { engine := .fresh timeout, sweeper }

/-- In every run at a desk each registration gets exactly the outcome that the first event to
settle it gives, and its caller is told that outcome once, unless it forgot it before. -/
theorem resolved_exactly_once (timeout : Duration) (sweeper : Option Ticker)
    (ss : List (Step α)) :
    ExactlyOnce timeout ((opening timeout sweeper : Desk α).history ss)
      ((opening timeout sweeper : Desk α).steps ss).engine ∧
    ((opening timeout sweeper : Desk α).steps ss).Told
      ((opening timeout sweeper : Desk α).forgotten ss) := by
  constructor
  · rw [steps_engine]
    exact Engine.exactlyOnce timeout _
  · have hempty : (opening timeout sweeper : Desk α).Told [] :=
      ⟨List.nodup_nil, by simp [opening], by simp, by simp [opening], [], by simp [opening]⟩
    exact hempty.steps (Engine.wellFormed_fresh timeout) ss

end Desk

end AgentGateway.Correlation
