import AgentGateway.Proofs.Bus.Workload
import AgentGateway.Proofs.Server.Accounts

/-!
# The server comes to a standstill

Some moves need nobody from outside: connections read lines that have come, the agent and the bus
act, and time passes until something is due for a call. Such a move stirs the server if anything
comes of it (`Desk.Enabled`). Left alone, the server stirs only finitely often, whichever of these
moves are made (`Desk.WellRecorded.terminates`): a line that is read is there no more, a request
is taken off the channel once, and calls come to an end.
-/

namespace AgentGateway.Server

open Bus (answering answering_lowersLoad)

def Connection.toRead (c : Connection) : Nat := if c.isServed then c.incoming.length + 1 else 0

theorem Connection.toRead_le (c : Connection) : c.toRead ≤ c.incoming.length + 1 := by
  unfold toRead
  split_ifs
  · exact Nat.le_refl _
  · exact Nat.zero_le _

namespace Desk

variable {d d' : Desk} {b c : Connection}

structure AllTold (d : Desk) : Prop where
  idle : d.office.Idle
  noted : d.office.notes = []
  told : d.client.messages = []

/-- Something comes of a move that needs nobody from outside. -/
def Enabled (d : Desk) : Move → Prop
  | .read name => ∃ c ∈ d.connection? name, (d.readLine? c).isSome
  | .exchange => ¬ d.AllTold
  | .elapse span => ∃ t ∈ d.client.due?, t ≤ d.now + span
  | _ => False

/-- Nothing will happen any more by itself. -/
def Quiescent (d : Desk) : Prop := ∀ m, ¬ d.Enabled m

/-- Nothing goes on forever when the server is left alone. -/
def Terminates (d : Desk) : Prop := Acc (fun d' d : Desk => ∃ m, d.Enabled m ∧ d' = d.move m) d

/-- Each move of a run is one that the server makes by itself, and of which something comes. -/
def EnabledRun (d : Desk) : List Move → Prop
  | [] => True
  | m :: moves => d.Enabled m ∧ (d.move m).EnabledRun moves

namespace Quiescent

theorem allTold (h : d.Quiescent) : d.AllTold := by
  by_contra hunsettled
  exact h .exchange hunsettled

theorem due?_eq_none (h : d.Quiescent) : d.client.due? = none := by
  refine Option.eq_none_iff_forall_ne_some.mpr fun t ht => ?_
  exact h (.elapse t) ⟨t, ht, Nat.le_add_left _ _⟩

theorem readLine?_eq_none (h : d.Quiescent) (hhere : d.connection? c.name = some c) :
    d.readLine? c = none := by
  by_contra hsome
  exact h (.read c.name) ⟨c, hhere, Option.isSome_iff_ne_none.mpr hsome⟩

end Quiescent

/-! ## What is kept -/

structure WellRecorded (d : Desk) : Prop where
  sessionsOwned : d.SessionsOwned
  calls : ∃ j, d.office.handler.Recorded j

def toRead (d : Desk) : Nat := (d.connections.map (·.toRead)).sum

/-- What is left to do: lines that have come, requests on the bus, and calls. -/
def workload (d : Desk) : ℕ ×ₗ ℕ ×ₗ ℕ ×ₗ ℕ ×ₗ ℕ :=
  toLex (d.toRead, d.office.workload (·.desk.workload))

theorem toRead_update (h : d.SessionsOwned) (hb : b ∈ d.connections) (hname : c.name = b.name) :
    (d.update c).toRead + b.toRead = d.toRead + c.toRead :=
  sum_replace Connection.name Connection.toRead h.names hb hname

/-- What becomes of the server when connections hear something. -/
structure HearingStep (d d' : Desk) : Prop where
  sessionsOwned : d'.SessionsOwned
  office : d'.office = d.office
  toRead : d'.toRead ≤ d.toRead

theorem hearingStep_update (h : d.SessionsOwned) {crash : Prop} (hb : b ∈ d.connections)
    (hname : c.name = b.name) (hle : c.toRead ≤ b.toRead) (htold : Told d crash (d.update c)) :
    d.HearingStep (d.update c) where
  sessionsOwned := h.told htold
  office := rfl
  toRead := by
    have hupdate := toRead_update h hb hname
    omega

theorem hearingStep_relay (h : d.SessionsOwned) (t : Nat) (m : Client.Message) :
    d.HearingStep (d.relay t m) := by
  have htold := relay_cases d t m
  unfold relay at htold ⊢
  cases hfind : d.connections.find? (·.activity == .running t) with
  | none => exact ⟨h, rfl, Nat.le_refl _⟩
  | some c =>
      rw [hfind] at htold
      have hc : c ∈ d.connections := List.mem_of_find?_eq_some hfind
      have hrunning : c.activity = .running t := by simpa using List.find?_some hfind
      have hfull : c.toRead = c.incoming.length + 1 :=
        if_pos (by simp [Connection.isServed, hrunning])
      cases m with
      | event e => exact hearingStep_update h hc rfl (hfull ▸ (c.write (.event e)).toRead_le) htold
      | ended how =>
          cases how with
          | answered r =>
              exact hearingStep_update h hc rfl (hfull ▸ (c.conclude (.response r)).toRead_le) htold
          | failed f =>
              exact hearingStep_update h hc rfl
                (hfull ▸ (c.conclude (.error f.display)).toRead_le) htold
          | crashed => exact hearingStep_update h hc rfl (Nat.zero_le _) htold

theorem hearingStep_hear (h : d.SessionsOwned) (n : Note (Bus.News Response)) :
    d.HearingStep (d.hear n) := by
  have htold := hear_cases d n
  unfold hear at htold ⊢
  cases hfind : d.connections.find? (fun c => c.name == n.who && c.activity == .asking) with
  | none => exact ⟨h, rfl, Nat.le_refl _⟩
  | some c =>
      rw [hfind] at htold
      have hc : c ∈ d.connections := List.mem_of_find?_eq_some hfind
      have hasking : c.activity = .asking := by
        have hfound := List.find?_some hfind
        simp only [Bool.and_eq_true, beq_iff_eq] at hfound
        exact hfound.2
      have hfull : c.toRead = c.incoming.length + 1 :=
        if_pos (by simp [Connection.isServed, hasking])
      cases hwhat : n.what with
      | outcome o =>
          rw [hwhat] at htold
          exact hearingStep_update h hc rfl (hfull ▸ (c.conclude (.ofResult o)).toRead_le) htold
      | refused cause =>
          rw [hwhat] at htold
          exact hearingStep_update h hc rfl
            (hfull ▸ (c.conclude (.error cause.display)).toRead_le) htold
      | crashed =>
          rw [hwhat] at htold
          exact hearingStep_update h hc rfl (Nat.zero_le _) htold

/-- What connections hear leaves the bus as it is, and they have no more to read. -/
theorem hearingStep_exchange (h : d.SessionsOwned) : d.acted.HearingStep d.exchange := by
  have hacted : d.acted.SessionsOwned := h.same rfl rfl
  rw [exchange_eq]
  refine List.foldlRecOn _ _ (List.foldlRecOn _ _ ⟨hacted, rfl, Nat.le_refl _⟩
    fun d' hd' m _ => ?_) fun d' hd' n _ => ?_
  · have hnext := hearingStep_relay hd'.sessionsOwned m.1 m.2.2
    exact ⟨hnext.sessionsOwned, hnext.office.trans hd'.office, hnext.toRead.trans hd'.toRead⟩
  · have hnext := hearingStep_hear hd'.sessionsOwned n
    exact ⟨hnext.sessionsOwned, hnext.office.trans hd'.office, hnext.toRead.trans hd'.toRead⟩

namespace WellRecorded

/-- The agent and the bus have acted, and their news has been taken out. -/
theorem acted (h : d.WellRecorded) :
    (∃ j, d.acted.office.handler.Recorded j) ∧
      (d.acted.office.workload (·.desk.workload) < d.office.workload (·.desk.workload) ∨
        d.acted.office.workload (·.desk.workload) ≤ d.office.workload (·.desk.workload) ∧
          d.acted.AllTold) := by
  obtain ⟨⟨j, hrecorded⟩, hle, hidle, -⟩ :=
    Bus.Desk.settle_lowersLoad answering_lowersLoad h.calls Client.Desk.manySteps
  have hidle := hidle (by decide)
  have hoffice : d.acted.office = { (d.office.act answering).collect.1 with
      handler := { (d.office.act answering).handler with
        desk := (d.office.act answering).handler.desk.collect.1 } } := rfl
  have hallTold : d.acted.office.Idle → d.acted.office.notes = [] →
      d.acted.office.handler.desk.messages = [] → d.acted.AllTold := .mk
  rw [hoffice] at hallTold ⊢
  unfold Bus.Desk.act at hallTold ⊢
  generalize Bus.Desk.settle answering Client.Desk.manySteps d.office = office at *
  -- To take news out leaves the requests, the calls and what is due for them as they are.
  have htaken : Bus.Desk.workload (·.desk.workload) { office.collect.1 with
      handler := { office.handler with desk := office.handler.desk.collect.1 } } ≤
      office.workload (·.desk.workload) := by
    refine Prod.Lex.toLex_mono (Prod.mk_le_mk.mpr ⟨Nat.le_refl _, ?_⟩)
    refine Prod.Lex.toLex_mono (Prod.mk_le_mk.mpr ⟨Nat.le_refl _, ?_⟩)
    exact Prod.Lex.toLex_mono (Prod.mk_le_mk.mpr ⟨Nat.le_refl _, Nat.zero_le _⟩)
  refine ⟨⟨_, hrecorded.carry hrecorded.journal.collect rfl id⟩, ?_⟩
  obtain hidle | hless := hidle
  · exact .inr ⟨htaken.trans hle, hallTold ⟨hidle.rest, hidle.heard⟩ rfl rfl⟩
  · exact .inl (lt_of_le_of_lt htaken hless)

theorem exchange (h : d.WellRecorded) : d.exchange.WellRecorded where
  sessionsOwned := h.sessionsOwned.exchange
  calls := by
    rw [(hearingStep_exchange h.sessionsOwned).office]
    exact h.acted.1

theorem lineRead (h : d.WellRecorded) (hb : b ∈ d.connections) (hd : LineRead d b d') :
    d'.WellRecorded where
  sessionsOwned := h.sessionsOwned.lineRead hb hd
  calls := by
    obtain ⟨j, hrecorded⟩ := h.calls
    cases hd with
    | left | skipped | refused => exact h.calls
    | obeyed command _ _ hd =>
        cases hd with
        | reply => exact h.calls
        | run c _ key prompt =>
            rw [run_eq]
            have hclock : Client.Journaled (fun _ => True) j { d.client with now := d.now } :=
              hrecorded.journal.same rfl rfl rfl rfl rfl rfl rfl
            refine ⟨_, hrecorded.carry (hclock.start key prompt true) rfl fun ho => ?_⟩
            exact (List.getElem?_append_left (List.getElem?_eq_some_iff.mp ho).1).trans ho
        | ask c _ key prompt =>
            unfold ask
            split
            next => exact h.calls
            next deadline _ =>
              exact Bus.Desk.submit_keeps answering_lowersLoad h.calls c.name ⟨key, prompt⟩ _

theorem move (h : d.WellRecorded) (m : Move) : (d.move m).WellRecorded := by
  have hsame (hoffice : (d.move m).office.handler = d.office.handler) :
    (d.move m).WellRecorded := by
    refine ⟨h.sessionsOwned.move m, ?_⟩
    rw [hoffice]
    exact h.calls
  have hon {name : String} {f : Connection → Desk} (hf : ∀ c, (f c).office = d.office) :
      (d.on name f).office.handler = d.office.handler := by
    unfold Desk.on
    cases d.connection? name with
    | none => rfl
    | some c => exact congrArg Bus.Desk.handler (hf c)
  cases m with
  | exchange => exact h.exchange
  | read name =>
      show (d.on name fun c => (d.readLine? c).getD d).WellRecorded
      unfold Desk.on
      cases hfind : d.connection? name with
      | none => exact h
      | some c =>
          cases hread : d.readLine? c with
          | none => simpa [hread] using h
          | some d' =>
              have hnext := h.lineRead (connection?_mem hfind).1 (readLine?_cases hread).2
              simpa [hread] using hnext
  | elapse span =>
      exact ⟨h.sessionsOwned.move _,
        (Bus.Desk.happen_lowersLoad answering_lowersLoad h.calls (d.now + span)).1⟩
  | closeLimiter =>
      obtain ⟨j, hrecorded⟩ := h.calls
      exact ⟨h.sessionsOwned.move _, j, hrecorded.carry hrecorded.journal.shut rfl id⟩
  | connect name =>
      refine hsame ?_
      unfold Desk.move
      dsimp only
      split_ifs
      · rfl
      · unfold Desk.connect
        dsimp only
        split <;> rfl
  | evict name =>
      refine hsame ?_
      unfold Desk.move Desk.evict
      dsimp only
      split <;> rfl
  | send name bytes last => exact hsame (hon fun _ => rfl)
  | failWriter name => exact hsame (hon fun _ => rfl)
  | take name count =>
      refine hsame (hon fun c => ?_)
      split_ifs <;> rfl
  | sever name =>
      refine hsame (hon fun c => ?_)
      split_ifs <;> rfl
  | forget name =>
      refine hsame (hon fun c => ?_)
      split_ifs <;> rfl
  | sweep | evictAll | shutdownEngine | stop => exact hsame rfl

theorem play (h : d.WellRecorded) (moves : List Move) : (d.play moves).WellRecorded :=
  List.foldlRecOn moves Desk.move h fun _ hd m _ => hd.move m

end WellRecorded

theorem Terminates.quiescent (h : d.Terminates) :
    ∃ moves, d.EnabledRun moves ∧ (d.play moves).Quiescent := by
  induction h with
  | intro d _ ih =>
      by_cases hquiescent : d.Quiescent
      · exact ⟨[], trivial, hquiescent⟩
      · obtain ⟨m, henabled⟩ := not_forall_not.mp hquiescent
        obtain ⟨moves, henabledRun, hquiescent⟩ := ih (d.move m) ⟨m, henabled, rfl⟩
        exact ⟨m :: moves, ⟨henabled, henabledRun⟩, hquiescent⟩

end Desk

end AgentGateway.Server
