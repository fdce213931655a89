import AgentGateway.Proofs.Client.Stories
import Mathlib.Data.List.Nodup

/-!
# What is known of all calls

At any time the status of each ticket is known, and each streamed execution that has ended was
told by a call (`Journaled`). An operation concerns one call. While it is under way, all that is
known concerns the other tickets; at its end the status of this one ticket is looked at. Only
`Desk.summon` may concern several calls: those that wait and have been handed a slot.
-/

namespace AgentGateway.Client

open Admission (Limiter Ticket)
open Execution (Part)
open Desk (isDecided)

variable {known : Ticket → Prop} {j : Journal} {d d' : Desk} {c : Call} {t : Ticket}

/-- What is known of the known tickets: each call is as far as its journal says, and each streamed
execution that has ended and was not cancelled was told by a call. -/
structure Journaled (known : Ticket → Prop) (j : Journal) (d : Desk) : Prop where
  settings : d.settings = j.settings
  agent : d.agent = j.agent
  started : j.started.length = d.issued
  distinct : (d.calls.map (·.ticket)).Nodup
  ordered : d.agenda.Ordered
  status : ∀ t, known t → Status j d t
  executions : ∀ {n : Nat} {r : Execution.Record}, d.records[n]? = some r → r.method = .streamed →
    r.ending.isSome = true → r.ending ≠ some .cancelled →
    ∃ t, known t ∧ ToldExecution j d n (d.agent n r.request) t

theorem tickets_update (d : Desk) (c : Call) :
    (d.update c).calls.map (·.ticket) = d.calls.map (·.ticket) := by
  simp only [Desk.update, List.map_map]
  refine List.map_congr_left fun x _ => ?_
  simp only [Function.comp]
  split_ifs with h
  · exact h.symm
  · rfl

theorem mem_calls_update_of_ne {x : Call} (hx : x.ticket ≠ c.ticket) :
    x ∈ (d.update c).calls ↔ x ∈ d.calls := by
  simp only [Desk.update, List.mem_map]
  constructor
  · rintro ⟨y, hy, rfl⟩
    split_ifs at hx ⊢ with h
    · exact absurd rfl hx
    · exact hy
  · intro hmem
    exact ⟨x, hmem, by rw [if_neg hx]⟩

theorem mem_calls_update_self (h : ∃ x ∈ d.calls, x.ticket = c.ticket) :
    c ∈ (d.update c).calls := by
  obtain ⟨x, hx, hticket⟩ := h
  exact List.mem_map.mpr ⟨x, hx, by rw [if_pos hticket]⟩

namespace Journaled

/-- An operation on a call concerns no ticket but its own. -/
theorem besides (h : Journaled (fun _ => True) j d) (hc : c ∈ d.calls) :
    Journaled (· ≠ c.ticket) j d where
  settings := h.settings
  agent := h.agent
  started := h.started
  distinct := h.distinct
  ordered := h.ordered
  status t _ := h.status t trivial
  executions hr hmethod hended hkept := by
    obtain ⟨t, -, hgave⟩ := h.executions hr hmethod hended hkept
    exact ⟨t, fun heq => hgave.none c hc heq.symm, hgave⟩

theorem all (h : Journaled (· ≠ t) j d) (hstatus : Status j d t) :
    Journaled (fun _ => True) j d where
  settings := h.settings
  agent := h.agent
  started := h.started
  distinct := h.distinct
  ordered := h.ordered
  status u _ := by
    by_cases hu : u = t
    · exact hu ▸ hstatus
    · exact h.status u hu
  executions hr hmethod hended hkept := by
    obtain ⟨u, -, hgave⟩ := h.executions hr hmethod hended hkept
    exact ⟨u, trivial, hgave⟩

/-- What is done to other calls, and to all that is not looked at here, does not matter. -/
theorem frame (h : Journaled known j d) (hext : d.Extends d') (hissued : d'.issued = d.issued)
    (hrecords : d'.records = d.records) (hdistinct : (d'.calls.map (·.ticket)).Nodup)
    (hagenda : d'.agenda.Ordered)
    (hcalls : ∀ c : Call, known c.ticket → (c ∈ d'.calls ↔ c ∈ d.calls))
    (htold : ∀ t, known t → j.told d' t = j.told d t)
    (htasks : ∀ t, known t → d'.tasks t = d.tasks t) : Journaled known j d' where
  settings := hext.settings.trans h.settings
  agent := hext.agent.trans h.agent
  started := h.started.trans hissued.symm
  distinct := hdistinct
  ordered := hagenda
  status t ht := (h.status t ht).frame hext (fun c heq => hcalls c (heq ▸ ht)) (htold t ht)
    (htasks t ht) rfl id
  executions hr hmethod hended hkept := by
    rw [hrecords] at hr
    obtain ⟨t, ht, hgave⟩ := h.executions hr hmethod hended hkept
    rw [hext.agent]
    refine ⟨t, ht, hgave.frame hext (fun c hc heq => ?_) (htold t ht) rfl⟩
    exact hgave.none c ((hcalls c (heq ▸ ht)).mp hc) heq

theorem same (h : Journaled known j d) (hsettings : d'.settings = d.settings)
    (hagent : d'.agent = d.agent) (hissued : d'.issued = d.issued)
    (hrecords : d'.records = d.records) (hcalls : d'.calls = d.calls)
    (hagenda : d'.agenda = d.agenda) (hmessages : d'.messages = d.messages) :
    Journaled known j d' := by
  refine h.frame (.of_eq hsettings hagent hrecords) hissued hrecords (hcalls ▸ h.distinct)
    (hagenda ▸ h.ordered) (fun c _ => by rw [hcalls]) (fun t _ => ?_) fun t _ => ?_
  · rw [Journal.told, hmessages]
    rfl
  · rw [Desk.tasks, hagenda]
    rfl

theorem tell (h : Journaled (· ≠ t) j d) (m : Message) : Journaled (· ≠ t) j (d.tell t m) := by
  refine h.frame (.of_eq rfl rfl rfl) rfl rfl h.distinct h.ordered (fun c _ => .rfl)
    (fun u hu => ?_) fun u _ => rfl
  rw [told_tell, if_neg (Ne.symm hu), List.append_nil]

theorem update (h : Journaled (· ≠ c.ticket) j d) : Journaled (· ≠ c.ticket) j (d.update c) := by
  refine h.frame (.of_eq rfl rfl rfl) rfl rfl ?_ h.ordered (fun x hx => mem_calls_update_of_ne hx)
    (fun u _ => rfl) fun u _ => rfl
  rw [tickets_update]
  exact h.distinct

theorem remove (h : Journaled (· ≠ t) j d) :
    Journaled (· ≠ t) j { d with calls := d.calls.filter (·.ticket != t) } := by
  refine h.frame (.of_eq rfl rfl rfl) rfl rfl ?_ h.ordered (fun x hx => ?_) (fun u _ => rfl)
    fun u _ => rfl
  · exact h.distinct.sublist (List.filter_sublist.map _)
  · simpa using fun _ => hx

theorem schedule (h : Journaled (· ≠ t) j d) {a : Agenda Task} (ha : a.Ordered)
    (hother : ∀ u, u ≠ t → a.select (·.ticket == u) = d.tasks u) :
    Journaled (· ≠ t) j { d with agenda := a } :=
  h.frame (.of_eq rfl rfl rfl) rfl rfl h.distinct ha (fun _ _ => .rfl) (fun _ _ => rfl)
    fun u hu => hother u hu

theorem add (h : Journaled (· ≠ t) j d) {task : Task} (htask : task.ticket = t) (due : Duration) :
    Journaled (· ≠ t) j { d with agenda := d.agenda.add due task } :=
  h.schedule (h.ordered.add due task) fun _ hu =>
    Agenda.select_add_of_neg (by simpa [htask] using Ne.symm hu) d.agenda due

/-- An execution ends: if it was streamed and is not cancelled, a call must have told it. -/
theorem record (h : Journaled known j d) (number : Nat) (ending : Execution.Ending)
    (hgave : ∀ r, d.records[number]? = some r → r.method = .streamed → ending ≠ .cancelled →
      ∃ t, known t ∧ ToldExecution j d number (d.agent number r.request) t) :
    Journaled known j (d.record number ending) where
  settings := h.settings
  agent := h.agent
  started := h.started
  distinct := h.distinct
  ordered := h.ordered
  status t ht := (h.status t ht).frame (d.extends_record number ending) (fun c _ => .rfl) rfl rfl
    rfl id
  executions {n r} hr hmethod hended hkept := by
    have hext := d.extends_record number ending
    have hlift {r : Execution.Record}
        (h : ∃ t, known t ∧ ToldExecution j d n (d.agent n r.request) t) :
        ∃ t, known t ∧ ToldExecution j (d.record number ending) n (d.agent n r.request) t := by
      obtain ⟨t, ht, hgave⟩ := h
      exact ⟨t, ht, hgave.frame hext hgave.none rfl rfl⟩
    rw [Desk.getElem?_record] at hr
    split_ifs at hr with hn
    · subst hn
      obtain ⟨r', hr', rfl⟩ := Option.map_eq_some_iff.mp hr
      exact hlift (hgave r' hr' hmethod fun heq => hkept (by rw [heq]))
    · exact hlift (h.executions hr hmethod hended hkept)

theorem enlist (h : Journaled known j d) {r : Execution.Record} (hr : r.ending = none) :
    Journaled known j { d with records := d.records ++ [r] } := by
  have hext : d.Extends { d with records := d.records ++ [r] } := by
    refine ⟨rfl, rfl, fun {n r'} hr' => ⟨r', ?_, rfl, rfl⟩⟩
    have hlt : n < d.records.length := (List.getElem?_eq_some_iff.mp hr').1
    exact (List.getElem?_append_left hlt).trans hr'
  refine ⟨h.settings, h.agent, h.started, h.distinct, h.ordered, fun t ht => ?_,
    fun {n r'} hr' hmethod hended hkept => ?_⟩
  · exact (h.status t ht).frame hext (fun c _ => .rfl) rfl rfl rfl id
  · have hold : d.records[n]? = some r' := by
      rcases Nat.lt_or_ge n d.records.length with hlt | hge
      · exact (List.getElem?_append_left hlt).symm.trans hr'
      · have hmem : [r][n - d.records.length]? = some r' :=
          (List.getElem?_append_right hge).symm.trans hr'
        rw [List.mem_singleton.mp (List.mem_of_getElem? hmem), hr] at hended
        cases hended
    obtain ⟨t, ht, hgave⟩ := h.executions hold hmethod hended hkept
    exact ⟨t, ht, hgave.frame hext hgave.none rfl rfl⟩

/-! ## Summoning -/

theorem summon_agenda (d : Desk) :
    d.summon.agenda = ((d.calls.filter (isDecided d.limiter)).map (·.ticket)).foldl
      (fun a t => a.add d.now (.notice t)) d.agenda := by
  simp only [Desk.summon]
  congr 1
  induction d.calls with
  | nil => rfl
  | cons c calls ih =>
      rw [List.foldr_cons, List.filter_cons]
      split_ifs
      · rw [List.map_cons, ← ih]
      · exact ih

theorem foldl_notice {ts : List Ticket} (hdistinct : ts.Nodup) (now : Duration)
    {a : Agenda Task} (ho : a.Ordered)
    (hidle : ∀ t ∈ ts, a.select (·.ticket == t) = []) :
    (ts.foldl (fun a t => a.add now (.notice t)) a).Ordered ∧
      ∀ t, (ts.foldl (fun a t => a.add now (.notice t)) a).select (·.ticket == t) =
        if t ∈ ts then [.notice t] else a.select (·.ticket == t) := by
  induction ts generalizing a with
  | nil => exact ⟨ho, fun t => by simp⟩
  | cons u ts ih =>
      obtain ⟨hu, hrest⟩ := List.nodup_cons.mp hdistinct
      have hother {t : Ticket} (ht : t ≠ u) :
          (a.add now (.notice u)).select (·.ticket == t) = a.select (·.ticket == t) :=
        Agenda.select_add_of_neg (by simpa [Task.ticket] using Ne.symm ht) a now
      have hself : (a.add now (.notice u)).select (·.ticket == u) = [.notice u] := by
        have hnone := hidle u List.mem_cons_self
        rw [Agenda.select_add_of_pos ho (by simp [Task.ticket])
          (Agenda.dueBy_of_select_eq_nil hnone now), hnone, List.nil_append]
      have hidle' : ∀ t ∈ ts, (a.add now (.notice u)).select (·.ticket == t) = [] := by
        intro t ht
        rw [hother fun heq => hu (heq ▸ ht)]
        exact hidle t (List.mem_cons_of_mem _ ht)
      obtain ⟨hordered, hselect⟩ := ih hrest (ho.add now (.notice u)) hidle'
      refine ⟨hordered, fun t => ?_⟩
      rw [List.foldl_cons, hselect t]
      by_cases ht : t = u
      · subst ht
        rw [if_neg hu, if_pos List.mem_cons_self, hself]
      · rw [hother ht]
        simp [ht]

theorem phase_of_isDecided {l : Limiter} (h : isDecided l c = true) : c.phase = .waiting := by
  unfold isDecided at h
  split at h
  next hphase _ => exact hphase
  next => cases h

theorem eq_of_ticket (h : Journaled known j d) {x y : Call} (hx : x ∈ d.calls) (hy : y ∈ d.calls)
    (heq : x.ticket = y.ticket) : x = y :=
  List.inj_on_of_nodup_map h.distinct hx hy heq

theorem stage (h : Journaled (fun _ => True) j d) (hc : c ∈ d.calls) :
    j.started[c.ticket]? = some ⟨c.key, c.prompt, c.streams⟩ ∧
      Stage d c (j.told d c.ticket) (d.tasks c.ticket) := by
  cases h.status c.ticket trivial with
  | fresh _ hnone => exact absurd rfl (hnone c hc)
  | ended _ hnone => exact absurd rfl (hnone c hc)
  | @running x hx hticket hstarted hstage =>
      obtain rfl := h.eq_of_ticket hx hc hticket
      exact ⟨hstarted, hstage⟩

theorem map_summon {β : Type} (d : Desk) (f : Call → β)
    (hf : ∀ x : Call, x.phase = .waiting → f { x with phase := .summoned } = f x) :
    d.summon.calls.map f = d.calls.map f := by
  rw [Desk.summon_calls, List.map_map]
  refine List.map_congr_left fun x _ => ?_
  rw [Function.comp_apply]
  split_ifs with hdecided
  · exact hf x (phase_of_isDecided hdecided)
  · rfl

/-- The calls that are summoned had nothing due, and now are to notice that they are. -/
theorem tasks_summon (h : Journaled (fun _ => True) j d) :
    d.summon.agenda.Ordered ∧ ∀ t, d.summon.tasks t =
      if t ∈ (d.calls.filter (isDecided d.limiter)).map (·.ticket) then [.notice t]
      else d.tasks t := by
  have hidle : ∀ t ∈ (d.calls.filter (isDecided d.limiter)).map (·.ticket),
      d.agenda.select (·.ticket == t) = [] := by
    intro t ht
    obtain ⟨x, hx, rfl⟩ := List.mem_map.mp ht
    obtain ⟨hmem, hdecided⟩ := List.mem_filter.mp hx
    exact ((h.stage hmem).2.of_waiting (phase_of_isDecided hdecided)).2.1
  have hnodup : ((d.calls.filter (isDecided d.limiter)).map (·.ticket)).Nodup :=
    h.distinct.sublist (List.filter_sublist.map _)
  obtain ⟨hordered, hselect⟩ := foldl_notice hnodup d.now h.ordered hidle
  rw [← summon_agenda] at hordered
  refine ⟨hordered, fun t => ?_⟩
  rw [Desk.tasks, summon_agenda]
  exact hselect t

/-- Calls that wait and have been handed a slot are to notice it. -/
theorem summon (h : Journaled (fun _ => True) j d) : Journaled (fun _ => True) j d.summon := by
  have hcalls := Desk.summon_calls d
  have htickets := map_summon d (·.ticket) fun _ _ => rfl
  obtain ⟨hordered, htasks⟩ := h.tasks_summon
  have hnone {t : Ticket} (hbefore : ∀ c ∈ d.calls, c.ticket ≠ t) :
      ∀ c ∈ d.summon.calls, c.ticket ≠ t := by
    intro x hx heq
    have hmem : t ∈ d.summon.calls.map (·.ticket) := heq ▸ List.mem_map_of_mem hx
    rw [htickets] at hmem
    obtain ⟨y, hy, hticket⟩ := List.mem_map.mp hmem
    exact hbefore y hy hticket
  have hsame {t : Ticket} (hbefore : ∀ c ∈ d.calls, c.ticket = t → isDecided d.limiter c = false) :
      d.summon.tasks t = d.tasks t := by
    rw [htasks, if_neg]
    intro ht
    obtain ⟨x, hx, hticket⟩ := List.mem_map.mp ht
    obtain ⟨hmem, hdecided⟩ := List.mem_filter.mp hx
    rw [hbefore x hmem hticket] at hdecided
    cases hdecided
  have hext : d.Extends d.summon := .of_eq rfl rfl rfl
  refine ⟨h.settings, h.agent, h.started, htickets ▸ h.distinct, hordered, fun t _ => ?_,
    fun hr hmethod hended hkept => ?_⟩
  · cases h.status t trivial with
    | fresh hstarted hbefore htold htask =>
        refine .fresh hstarted (hnone hbefore) htold ?_
        rw [hsame fun c hc heq => absurd heq (hbefore c hc)]
        exact htask
    | ended hstarted hbefore htask hstory =>
        refine .ended hstarted (hnone hbefore) ?_ fun hnot => (hstory hnot).extends hext
        rw [hsame fun c hc heq => absurd heq (hbefore c hc)]
        exact htask
    | @running c hc hticket hstarted hstage =>
        subst hticket
        cases hdecided : isDecided d.limiter c with
        | true =>
            have hmem : { c with phase := .summoned } ∈ d.summon.calls := by
              rw [hcalls]
              exact List.mem_map.mpr ⟨c, hc, by rw [if_pos hdecided]⟩
            have hdue : d.summon.tasks c.ticket = [.notice c.ticket] := by
              rw [htasks, if_pos]
              exact List.mem_map_of_mem (List.mem_filter.mpr ⟨hc, hdecided⟩)
            obtain ⟨htold, -, hempty⟩ := hstage.of_waiting (phase_of_isDecided hdecided)
            have hsilent : j.told d.summon c.ticket = [] := htold
            refine .running hmem rfl hstarted ?_
            rw [hsilent, hdue]
            exact .summoned rfl hempty
        | false =>
            have hmem : c ∈ d.summon.calls := by
              rw [hcalls]
              exact List.mem_map.mpr ⟨c, hc, by rw [if_neg (by simp [hdecided])]⟩
            refine .running hmem rfl hstarted ?_
            rw [hsame fun x hx heq => h.eq_of_ticket hx hc heq ▸ hdecided]
            exact hstage.extends hext
  · obtain ⟨t, ht, hgave⟩ := h.executions hr hmethod hended hkept
    exact ⟨t, ht, hgave.frame hext (hnone hgave.none) rfl rfl⟩

end Journaled

end AgentGateway.Client
