import AgentGateway.Proofs.Server.Traffic
import Mathlib.Data.List.Nodup

/-!
# Whose session it is

A connection that ends gives its session back, so that a registered session always belongs to a
connection that has not ended (`Desk.SessionsOwned`). A connection that crashes does not. It does
so only when a command leads to a time that cannot be computed or shown by the clock, or to a pool
that is too large; as long as no command does, every registered session belongs to a connection
that is being served.
-/

namespace AgentGateway.Server

open Correlation (Id)

namespace Desk

/-- Each connection has a name and a session of its own, and each session that is registered
belongs to a connection that has not ended. -/
structure SessionsOwned (d : Desk) : Prop where
  names : (d.connections.map (·.name)).Nodup
  sessions : ∀ c ∈ d.connections, ∃ n, c.session = .generated n c.name
  owned : ∀ e ∈ d.registry.entries, ∃ c ∈ d.connections, c.session = e.id ∧ c.activity ≠ .ended

theorem sessionsOwned_opening (client : Client.Settings) (limiter : Admission.Limiter)
    (agent : Execution.Agent) (engine : Correlation.Desk Response) (capacity maxSessions : Nat) :
    (opening client limiter agent engine capacity maxSessions).SessionsOwned :=
  ⟨List.nodup_nil, nofun, nofun⟩

theorem connection?_mem {d : Desk} {name : String} {c : Connection}
    (h : d.connection? name = some c) : c ∈ d.connections ∧ c.name = name :=
  ⟨List.mem_of_find?_eq_some h, by simpa using List.find?_some h⟩

theorem mem_update {d : Desk} {c x : Connection} (h : x ∈ (d.update c).connections) :
    x = c ∨ x ∈ d.connections := by
  obtain ⟨y, hy, rfl⟩ := List.mem_map.mp h
  split
  · exact .inl rfl
  · exact .inr hy

theorem mem_update_of_ne {d : Desk} {c x : Connection} (h : x ∈ d.connections)
    (hname : x.name ≠ c.name) : x ∈ (d.update c).connections :=
  List.mem_map.mpr ⟨x, h, if_neg hname⟩

theorem mem_update_self {d : Desk} {b c : Connection} (hb : b ∈ d.connections)
    (hname : c.name = b.name) : c ∈ (d.update c).connections :=
  List.mem_map.mpr ⟨b, hb, if_pos hname.symm⟩

theorem names_update (d : Desk) (c : Connection) :
    (d.update c).connections.map (·.name) = d.connections.map (·.name) := by
  rw [update, List.map_map]
  refine List.map_congr_left fun x _ => ?_
  simp only [Function.comp_apply]
  split
  next h => exact h.symm
  next => rfl

namespace SessionsOwned

variable {d d' : Desk}

theorem eq_of_name (h : d.SessionsOwned) {b c : Connection} (hb : b ∈ d.connections)
    (hc : c ∈ d.connections) (hname : b.name = c.name) : b = c :=
  List.inj_on_of_nodup_map h.names hb hc hname

theorem eq_of_session (h : d.SessionsOwned) {b c : Connection} (hb : b ∈ d.connections)
    (hc : c ∈ d.connections) (hsession : b.session = c.session) : b = c := by
  obtain ⟨m, hm⟩ := h.sessions b hb
  obtain ⟨n, hn⟩ := h.sessions c hc
  rw [hm, hn] at hsession
  exact h.eq_of_name hb hc (Id.generated.inj hsession).2

theorem released (h : d.SessionsOwned) {c : Connection} (hc : c ∈ d.connections)
    (hended : c.activity = .ended) : ∀ e ∈ d.registry.entries, e.id ≠ c.session := by
  intro e he heq
  obtain ⟨b, hb, hsession, hactive⟩ := h.owned e he
  exact hactive (h.eq_of_session hb hc (hsession.trans heq) ▸ hended)

/-- Sessions may be removed, and may be noted as active. -/
theorem frame (h : d.SessionsOwned) (hconnections : d'.connections = d.connections)
    (hentries : ∀ e ∈ d'.registry.entries, ∃ f ∈ d.registry.entries, f.id = e.id) :
    d'.SessionsOwned where
  names := by rw [hconnections]; exact h.names
  sessions := by rw [hconnections]; exact h.sessions
  owned e he := by
    obtain ⟨f, hf, hid⟩ := hentries e he
    rw [hconnections, ← hid]
    exact h.owned f hf

theorem touched (h : d.SessionsOwned) (c : Connection) : (d.touched c).SessionsOwned := by
  refine h.frame rfl fun e he => ?_
  unfold Desk.touched Session.Registry.touch at he
  dsimp only at he
  split_ifs at he
  · obtain ⟨f, hf, rfl⟩ := List.mem_map.mp he
    exact ⟨f, hf, by split <;> rfl⟩
  · exact ⟨e, he, rfl⟩

/-- A connection goes on, or ends after its session has been given back. -/
theorem update (h : d.SessionsOwned) {b c : Connection} (hb : b ∈ d.connections)
    (hc : b.SameSession c)
    (hended : c.activity = .ended → ∀ e ∈ d.registry.entries, e.id ≠ c.session) :
    (d.update c).SessionsOwned where
  names := by rw [names_update]; exact h.names
  sessions x hx := by
    obtain rfl | hx := mem_update hx
    · obtain ⟨n, hn⟩ := h.sessions b hb
      exact ⟨n, by rw [hc.session, hc.name, hn]⟩
    · exact h.sessions x hx
  owned e he := by
    obtain ⟨x, hx, hsession, hactive⟩ := h.owned e he
    -- Under its name there is only `b`, so what is replaced is `b`, and `c` takes over its session.
    by_cases hname : x.name = c.name
    · obtain rfl := h.eq_of_name hx hb (hname.trans hc.name)
      exact ⟨c, mem_update_self hx hc.name, hc.session.trans hsession,
        fun hend => hended hend e he (hsession.symm.trans hc.session.symm)⟩
    · exact ⟨x, mem_update_of_ne hx hname, hsession, hactive⟩

theorem leave (h : d.SessionsOwned) {b c : Connection} (hb : b ∈ d.connections)
    (hc : b.SameSession c) : (d.leave c).SessionsOwned := by
  have hgone : ({ d with registry := d.registry.unregister c.session } : Desk).SessionsOwned :=
    h.frame rfl fun e he => ⟨e, List.mem_of_mem_filter he, rfl⟩
  refine hgone.update hb (c := { c with activity := .ended }) ⟨hc.name, hc.session⟩ fun _ e he => ?_
  simpa using (List.mem_filter.mp he).2

theorem same (h : d.SessionsOwned) (hconnections : d'.connections = d.connections)
    (hregistry : d'.registry = d.registry) : d'.SessionsOwned :=
  h.frame hconnections fun e he => ⟨e, hregistry ▸ he, rfl⟩

theorem run (h : d.SessionsOwned) {b c : Connection} (hb : b ∈ d.connections) (hc : b.SameSession c)
    (key : String) (prompt : Prompt) : (d.run c key prompt).SessionsOwned := by
  have hstarted (client : Client.Desk) : (d.setClient client).SessionsOwned := h.same rfl rfl
  exact (hstarted _).update hb ⟨hc.name, hc.session⟩ nofun

theorem ask (h : d.SessionsOwned) {b c : Connection} (hb : b ∈ d.connections) (hc : b.SameSession c)
    (key : String) (prompt : Prompt) : (d.ask c key prompt).SessionsOwned := by
  unfold Desk.ask
  split
  next => exact h.update hb ⟨hc.name, hc.session⟩ nofun
  next deadline _ =>
    have hsubmitted (office : Office) : ({ d with office } : Desk).SessionsOwned := h.same rfl rfl
    exact (hsubmitted _).update hb ⟨hc.name, hc.session⟩ nofun

theorem dispatched (h : d.SessionsOwned) {b : Connection} (hb : b ∈ d.connections)
    {command : Command} (hd : Dispatched d b command d') : d'.SessionsOwned := by
  cases hd with
  | reply c hc hidle =>
      exact h.update hb hc fun hend => absurd hend hidle.ne_ended
  | run c hc key prompt => exact h.run hb hc key prompt
  | ask c hc key prompt => exact h.ask hb hc key prompt

theorem lineRead (h : d.SessionsOwned) {b : Connection} (hb : b ∈ d.connections)
    (hd : LineRead d b d') : d'.SessionsOwned := by
  cases hd with
  | left c hc => exact h.leave hb hc
  | skipped c hc hidle =>
      exact h.update hb hc fun hend => absurd hend hidle.ne_ended
  | refused c hc hidle =>
      exact (h.touched b).update hb hc fun hend => absurd hend hidle.ne_ended
  | obeyed command _ _ hd => exact (h.touched b).dispatched hb hd

theorem told (h : d.SessionsOwned) {crash : Prop} (hd : Told d crash d') : d'.SessionsOwned := by
  cases hd with
  | ignored => exact h
  | wrote hb c hc hactivity hbusy =>
      refine h.update hb hc fun hend => ?_
      obtain hsame | hidle := hactivity
      · exact absurd (hsame.symm.trans hend) hbusy
      · exact absurd hend hidle.ne_ended
  | crashed hb => exact h.update hb ⟨rfl, rfl⟩ nofun

theorem exchange (h : d.SessionsOwned) : d.exchange.SessionsOwned := by
  have hacted : d.acted.SessionsOwned := h.same rfl rfl
  rw [exchange_eq]
  refine List.foldlRecOn _ _ (List.foldlRecOn _ _ hacted fun d hd m _ => ?_) fun d hd n _ => ?_
  · exact hd.told (relay_cases d m.1 m.2.2)
  · exact hd.told (hear_cases d n)

/-- A connection of a new name, with a session that is registered unless the connection has ended
already. -/
theorem enter (h : d.SessionsOwned) {c : Connection} (hnew : ∀ b ∈ d.connections, b.name ≠ c.name)
    {n : Nat}
    (hsession : c.session = .generated n c.name)
    (hconnections : d'.connections = d.connections ++ [c])
    (hentries : ∀ e ∈ d'.registry.entries, e ∈ d.registry.entries ∨
      e.id = c.session ∧ c.activity ≠ .ended) : d'.SessionsOwned where
  names := by
    rw [hconnections, List.map_append]
    refine List.Nodup.append h.names (List.nodup_singleton _) ?_
    simpa [List.disjoint_singleton] using hnew
  sessions := by
    rw [hconnections]
    exact List.forall_mem_append.mpr ⟨h.sessions, List.forall_mem_singleton.mpr ⟨n, hsession⟩⟩
  owned e he := by
    rw [hconnections]
    obtain hold | ⟨hid, hactive⟩ := hentries e he
    · obtain ⟨b, hb, howned⟩ := h.owned e hold
      exact ⟨b, List.mem_append_left _ hb, howned⟩
    · exact ⟨c, List.mem_append_right _ (List.mem_singleton_self c), hid.symm, hactive⟩

theorem connect (h : d.SessionsOwned) {name : String} (hfree : d.connection? name = none) :
    (d.connect name).SessionsOwned := by
  have hnew : ∀ c ∈ d.connections, c.name ≠ name := by simpa [connection?] using hfree
  have hsame : d.connections.filter (·.name != name) = d.connections :=
    List.filter_eq_self.mpr fun c hc => by simpa using hnew c hc
  unfold Desk.connect
  dsimp only
  rw [hsame]
  split
  next registry hregister =>
    refine h.enter hnew rfl rfl fun e he => ?_
    unfold Session.Registry.register at hregister
    split at hregister
    next => cases hregister
    next =>
      obtain rfl := Except.ok.inj hregister
      obtain hold | hthis := List.mem_append.mp he
      · exact .inl (List.mem_of_mem_filter hold)
      · obtain rfl := List.mem_singleton.mp hthis
        exact .inr ⟨rfl, nofun⟩
  next => exact h.enter hnew rfl rfl fun e he => .inl he

theorem on (h : d.SessionsOwned) {name : String} {f : Connection → Desk}
    (hf : ∀ c ∈ d.connections, c.name = name → (f c).SessionsOwned) :
    (d.on name f).SessionsOwned := by
  unfold Desk.on
  cases hfind : d.connection? name with
  | none => exact h
  | some c => exact hf c (connection?_mem hfind).1 (connection?_mem hfind).2

/-- Whatever happens, each connection that ends gives its session back. -/
theorem move (h : d.SessionsOwned) (m : Move) : (d.move m).SessionsOwned := by
  have hupdate {b c : Connection} (hb : b ∈ d.connections) (hc : b.SameSession c)
      (hactivity : c.activity = b.activity) : (d.update c).SessionsOwned :=
    h.update hb hc fun hend e he => hc.session ▸ h.released hb (hactivity.symm.trans hend) e he
  cases m with
  | connect name =>
      simp only [Desk.move]
      split_ifs with hfree
      · exact h
      · exact h.connect (by simpa using hfree)
  | send name bytes last => exact h.on fun c hc _ => hupdate hc ⟨rfl, rfl⟩ rfl
  | read name =>
      refine h.on fun c hc _ => ?_
      cases hread : d.readLine? c with
      | none => exact h
      | some d' => exact h.lineRead hc (readLine?_cases hread).2
  | sever name =>
      refine h.on fun c hc _ => ?_
      split_ifs
      · exact h.leave hc (.refl c)
      · exact h
  | failWriter name => exact h.on fun c hc _ => hupdate hc ⟨rfl, rfl⟩ rfl
  | take name count =>
      refine h.on fun c hc _ => ?_
      split_ifs
      · exact h
      · exact hupdate hc ⟨rfl, rfl⟩ rfl
  | forget name =>
      refine h.on fun c hc hname => ?_
      split_ifs with hended
      · have hsub := List.filter_sublist (p := fun b : Connection => b.name != name)
          (l := d.connections)
        refine ⟨(hsub.map _).nodup h.names, fun b hb => h.sessions b (hsub.subset hb),
          fun e he => ?_⟩
        obtain ⟨b, hb, hsession, hactive⟩ := h.owned e he
        refine ⟨b, List.mem_filter.mpr ⟨hb, ?_⟩, hsession, hactive⟩
        have hne : b.name ≠ name := fun heq =>
          hactive (h.eq_of_name hb hc (heq.trans hname.symm) ▸ hended)
        simpa using hne
      · exact h
  | exchange => exact h.exchange
  | elapse | closeLimiter | shutdownEngine | stop => exact h.same rfl rfl
  | sweep maxIdle => exact h.frame rfl fun e he => ⟨e, List.mem_of_mem_filter he, rfl⟩
  | evict name =>
      simp only [Desk.move, evict]
      split
      next => exact h.frame rfl fun e he => ⟨e, List.mem_of_mem_filter he, rfl⟩
      next => exact h
  | evictAll => exact h.frame rfl nofun

theorem play (h : d.SessionsOwned) (moves : List Move) : (d.play moves).SessionsOwned :=
  List.foldlRecOn moves Desk.move h fun _ hd m _ => hd.move m

theorem connection?_of_mem (h : d.SessionsOwned) {c : Connection} (hc : c ∈ d.connections) :
    d.connection? c.name = some c := by
  obtain ⟨b, hb⟩ : ∃ b, d.connection? c.name = some b :=
    Option.isSome_iff_exists.mp (List.find?_isSome.mpr ⟨c, hc, by simp⟩)
  rw [hb, h.eq_of_name (connection?_mem hb).1 hc (connection?_mem hb).2]

theorem act_eq_play (h : d.SessionsOwned) : ∃ moves, d.act = d.play moves := by
  have hsettle (fuel : Nat) {d : Desk} (h : d.SessionsOwned) :
    ∃ moves, settle fuel d = d.play moves := by
    induction fuel generalizing d with
    | zero => exact ⟨[.exchange], rfl⟩
    | succ fuel ih =>
        rw [settle]
        cases hread : d.exchange.readAny? with
        | none => exact ⟨[.exchange], rfl⟩
        | some d' =>
            obtain ⟨c, hc, hline⟩ := List.exists_of_findSome?_eq_some hread
            have hmove : d.exchange.move (.read c.name) = d' := by
              simp [Desk.move, Desk.on, h.exchange.connection?_of_mem hc, hline]
            obtain ⟨moves, hmoves⟩ := ih (hmove ▸ h.exchange.move (.read c.name))
            exact ⟨.exchange :: .read c.name :: moves, by rw [← hmove] at hmoves ⊢; exact hmoves⟩
  exact hsettle d.actions h

end SessionsOwned

end Desk

end AgentGateway.Server
