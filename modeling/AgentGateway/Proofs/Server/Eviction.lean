import AgentGateway.Proofs.Server.Readings

/-!
# A session that is gone stays gone

Sessions are removed at any time: by a sweep, by the registry, or because a connection ends. From
then on the connection of the session carries out nothing. It passes over blank lines, answers the
first line that is not blank by saying that the session has expired, and then has ended: it reads
and writes nothing any more. Nor does the session come back, for the identifiers of sessions are
numbered, and a connection is always given the next number.

What every move does to connections, sessions and numbers is said once (`Desk.EvolvesTo`); it is
transitive, so it also tells what any run of moves does.
-/

namespace AgentGateway.Server

open Correlation (Id)

/-! ## What every move does -/

/-- A connection has ended: it takes nothing more off what its peer has sent, and writes nothing
more. -/
structure Connection.StaysEnded (b c : Connection) : Prop where
  ended : c.activity = .ended
  incoming : b.incoming <+: c.incoming
  outgoing : c.outgoing <:+ b.outgoing

/-- One connection at two moments; if it had ended at the first, it rests. -/
structure Connection.EvolvesTo (b c : Connection) : Prop extends b.SameSession c where
  staysEnded : b.activity = .ended → b.StaysEnded c

namespace Connection

variable {a b c : Connection}

/-- A connection after it has found its session gone. -/
def expired (c : Connection) : Connection :=
  { c.nextLine.2.write sessionExpired with activity := .ended }

theorem sameSession_expired (c : Connection) : c.SameSession c.expired :=
  ⟨c.nextLine_sameSession.1.name, c.nextLine_sameSession.1.session⟩

theorem EvolvesTo.refl (c : Connection) : c.EvolvesTo c :=
  ⟨.refl c, fun hended => ⟨hended, List.prefix_refl _, List.suffix_refl _⟩⟩

theorem EvolvesTo.trans (h : a.EvolvesTo b) (h' : b.EvolvesTo c) : a.EvolvesTo c where
  name := h'.name.trans h.name
  session := h'.session.trans h.session
  staysEnded hended := by
    have hb := h.staysEnded hended
    have hc := h'.staysEnded hb.ended
    exact ⟨hc.ended, hb.incoming.trans hc.incoming, hc.outgoing.trans hb.outgoing⟩

theorem SameSession.evolvesTo (h : b.SameSession c) (hbusy : b.activity ≠ .ended) : b.EvolvesTo c :=
  ⟨h, fun hended => absurd hended hbusy⟩

end Connection

theorem Desk.takeLasts_suffix (count : Nat) (replies : List Reply) :
    (takeLasts count replies).2 <:+ replies := by
  induction replies generalizing count with
  | nil => cases count <;> exact List.suffix_refl _
  | cons r replies ih =>
      cases count with
      | zero => exact List.suffix_refl _
      | succ n => exact (ih _).trans (List.suffix_cons r replies)

namespace Desk

/-- An identifier that has not been given out yet. -/
def Fresh (d : Desk) (id : Id) : Prop := ∃ n name, id = .generated n name ∧ d.issued ≤ n

def Issued (d : Desk) (id : Id) : Prop := ∃ n name, id = .generated n name ∧ n < d.issued

/-- What comes of a server. Connections follow on from those before or are new; a new one has ended
if it was turned away, and else was given its session. Sessions that were not registered before are
fresh ones that have been given out since. -/
structure EvolvesTo (d d' : Desk) : Prop where
  issued : d.issued ≤ d'.issued
  connections : ∀ c ∈ d'.connections,
    d.Fresh c.session ∧ (c.activity ≠ .ended → d'.Issued c.session) ∨
      ∃ b ∈ d.connections, b.EvolvesTo c
  sessions : ∀ id, d'.registry.contains id = true →
    d.Fresh id ∧ d'.Issued id ∨ d.registry.contains id = true

variable {d d' d'' : Desk} {b c : Connection} {s : Id}

theorem Issued.not_fresh (h : d.Issued s) : ¬ d.Fresh s := by
  rintro ⟨n, name, rfl, hle⟩
  obtain ⟨m, name', heq, hlt⟩ := h
  obtain ⟨rfl, -⟩ := Id.generated.inj heq
  omega

theorem Fresh.of_le (h : d'.Fresh s) (hle : d.issued ≤ d'.issued) : d.Fresh s := by
  obtain ⟨n, name, rfl, hn⟩ := h
  exact ⟨n, name, rfl, Nat.le_trans hle hn⟩

theorem Issued.of_le (h : d.Issued s) (hle : d.issued ≤ d'.issued) : d'.Issued s := by
  obtain ⟨n, name, rfl, hn⟩ := h
  exact ⟨n, name, rfl, Nat.lt_of_lt_of_le hn hle⟩

namespace EvolvesTo

theorem refl (d : Desk) : d.EvolvesTo d :=
  ⟨Nat.le_refl _, fun c hc => .inr ⟨c, hc, .refl c⟩, fun _ h => .inr h⟩

theorem trans (h : d.EvolvesTo d') (h' : d'.EvolvesTo d'') : d.EvolvesTo d'' where
  issued := Nat.le_trans h.issued h'.issued
  connections c hc := by
    obtain ⟨hfresh, hgiven⟩ | ⟨b, hb, hfollows⟩ := h'.connections c hc
    · exact .inl ⟨hfresh.of_le h.issued, hgiven⟩
    · obtain ⟨hfresh, hgiven⟩ | ⟨a, ha, hbefore⟩ := h.connections b hb
      · refine .inl ⟨hfollows.session ▸ hfresh, fun hbusy => ?_⟩
        have hbusy' : b.activity ≠ .ended := fun hended => hbusy (hfollows.staysEnded hended).ended
        exact hfollows.session ▸ (hgiven hbusy').of_le h'.issued
      · exact .inr ⟨a, ha, hbefore.trans hfollows⟩
  sessions id hid := by
    obtain ⟨hfresh, hgiven⟩ | hthere := h'.sessions id hid
    · exact .inl ⟨hfresh.of_le h.issued, hgiven⟩
    · obtain ⟨hfresh, hgiven⟩ | hbefore := h.sessions id hthere
      · exact .inl ⟨hfresh, hgiven.of_le h'.issued⟩
      · exact .inr hbefore

/-- Connections stay as they are, or are forgotten, and sessions may be removed. -/
theorem frame (hissued : d'.issued = d.issued)
    (hconnections : ∀ c ∈ d'.connections, c ∈ d.connections)
    (hsessions : ∀ id, d'.registry.contains id = true → d.registry.contains id = true) :
    d.EvolvesTo d' :=
  ⟨Nat.le_of_eq hissued.symm, fun c hc => .inr ⟨c, hconnections c hc, .refl c⟩,
    fun id hid => .inr (hsessions id hid)⟩

theorem update (h : d.EvolvesTo d') (hb : b ∈ d.connections) (hc : b.EvolvesTo c) :
    d.EvolvesTo (d'.update c) where
  issued := h.issued
  connections x hx := by
    obtain rfl | hx := mem_update hx
    · exact .inr ⟨b, hb, hc⟩
    · exact h.connections x hx
  sessions := h.sessions

theorem unregister (d : Desk) (id : Id) :
    d.EvolvesTo { d with registry := d.registry.unregister id } := by
  refine frame rfl (fun _ hc => hc) fun k hk => ?_
  exact Session.Registry.contains_of_filter hk

theorem leave (hb : b ∈ d.connections) (hc : b.SameSession c) (hbusy : b.activity ≠ .ended) :
    d.EvolvesTo (d.leave c) := by
  have hfollows : b.EvolvesTo { c with activity := .ended } :=
    Connection.SameSession.evolvesTo ⟨hc.name, hc.session⟩ hbusy
  exact (unregister d c.session).update hb hfollows

theorem touched (d : Desk) (c : Connection) : d.EvolvesTo (d.touched c) := by
  refine frame rfl (fun _ hc => hc) fun k hk => ?_
  rwa [Desk.touched, Session.Registry.contains_touch] at hk

theorem dispatched (h : d.EvolvesTo d') (hb : b ∈ d.connections) (hbusy : b.activity ≠ .ended)
    {command : Command} (hd : Dispatched d' b command d'') : d.EvolvesTo d'' := by
  cases hd with
  | reply c hc => exact h.update hb (hc.evolvesTo hbusy)
  | run c hc key prompt =>
      have hclient (client : Client.Desk) : d.EvolvesTo (d'.setClient client) :=
        h.trans (frame rfl (fun _ hc => hc) fun _ hid => hid)
      exact (hclient _).update hb (Connection.SameSession.evolvesTo ⟨hc.name, hc.session⟩ hbusy)
  | ask c hc key prompt =>
      have hoffice (office : Office) : d.EvolvesTo { d' with office } :=
        h.trans (frame rfl (fun _ hc => hc) fun _ hid => hid)
      unfold Desk.ask
      split
      · exact h.update hb (Connection.SameSession.evolvesTo ⟨hc.name, hc.session⟩ hbusy)
      · exact (hoffice _).update hb (Connection.SameSession.evolvesTo ⟨hc.name, hc.session⟩ hbusy)

theorem lineRead (hb : b ∈ d.connections) (hbusy : b.activity ≠ .ended) (hd : LineRead d b d') :
    d.EvolvesTo d' := by
  cases hd with
  | left c hc => exact leave hb hc hbusy
  | skipped c hc => exact (refl d).update hb (hc.evolvesTo hbusy)
  | refused c hc => exact (touched d b).update hb (hc.evolvesTo hbusy)
  | obeyed command _ _ hd => exact (touched d b).dispatched hb hbusy hd

theorem told {crash : Prop} (hd : Told d crash d') : d.EvolvesTo d' := by
  cases hd with
  | ignored => exact refl d
  | wrote hb c hc _ hbusy => exact (refl d).update hb (hc.evolvesTo hbusy)
  | crashed hb _ hbusy =>
      exact (refl d).update hb (Connection.SameSession.evolvesTo ⟨rfl, rfl⟩ hbusy)

theorem exchange (d : Desk) : d.EvolvesTo d.exchange := by
  have hacted : d.EvolvesTo d.acted := frame rfl (fun _ hc => hc) fun _ hid => hid
  rw [exchange_eq]
  refine List.foldlRecOn _ _ (List.foldlRecOn _ _ hacted fun e he m _ => ?_) fun e he n _ => ?_
  · exact he.trans (told (relay_cases e m.1 m.2.2))
  · exact he.trans (told (hear_cases e n))

theorem connect (d : Desk) (name : String) : d.EvolvesTo (d.connect name) := by
  have hnew : d.Fresh (.generated d.issued name) := ⟨d.issued, name, rfl, Nat.le_refl _⟩
  have hold {x c : Connection} (hc : c ∈ d.connections.filter (·.name != name) ++ [x]) :
      c = x ∨ ∃ b ∈ d.connections, b.EvolvesTo c := by
    rcases List.mem_append.mp hc with hc | hc
    · exact .inr ⟨c, List.mem_of_mem_filter hc, .refl c⟩
    · exact .inl (List.mem_singleton.mp hc)
  unfold Desk.connect
  dsimp only
  split
  next registry hregister =>
    have hgiven : d.issued < d.issued + 1 := Nat.lt_succ_self _
    refine ⟨Nat.le_of_lt hgiven, fun c hc => (hold hc).imp_left ?_, fun id hid => ?_⟩
    · rintro rfl
      exact ⟨hnew, fun _ => ⟨d.issued, name, rfl, hgiven⟩⟩
    · rw [Session.Registry.register_eq] at hregister
      split_ifs at hregister
      obtain rfl := Except.ok.inj hregister
      by_cases heq : id = .generated d.issued name
      · subst heq
        exact .inl ⟨hnew, d.issued, name, rfl, hgiven⟩
      · refine .inr ?_
        simpa [Session.Registry.contains, Session.Registry.find?_seat, heq] using hid
  next =>
    refine ⟨Nat.le_refl _, fun c hc => (hold hc).imp_left ?_, fun _ hid => .inr hid⟩
    rintro rfl
    exact ⟨hnew, fun hbusy => absurd rfl hbusy⟩

theorem on {name : String} {f : Connection → Desk} (hf : ∀ c ∈ d.connections, d.EvolvesTo (f c)) :
    d.EvolvesTo (d.on name f) := by
  unfold Desk.on
  cases hfind : d.connection? name with
  | none => exact refl d
  | some c => exact hf c (connection?_mem hfind).1

theorem evict (d : Desk) (name : String) : d.EvolvesTo (d.evict name) := by
  unfold Desk.evict
  cases d.connection? name with
  | none => exact refl d
  | some c => exact unregister d c.session

theorem move (d : Desk) (m : Move) : d.EvolvesTo (d.move m) := by
  cases m with
  | connect name =>
      simp only [Desk.move]
      split_ifs
      · exact refl d
      · exact connect d name
  | send name bytes last =>
      refine on fun c hc => (refl d).update hc ⟨⟨rfl, rfl⟩, fun hended => ?_⟩
      exact ⟨hended, List.prefix_append _ _, List.suffix_refl _⟩
  | read name =>
      refine on fun c hc => ?_
      cases hread : d.readLine? c with
      | none => exact refl d
      | some d' =>
          obtain ⟨hidle, hline⟩ := readLine?_cases hread
          exact lineRead hc hidle.ne_ended hline
  | sever name =>
      refine on fun c hc => ?_
      split_ifs with hreading
      · exact leave hc (.refl c) (by simp [hreading])
      · exact refl d
  | failWriter name =>
      refine on fun c hc => (refl d).update hc ⟨⟨rfl, rfl⟩, fun hended => ?_⟩
      exact ⟨hended, List.prefix_refl _, List.suffix_refl _⟩
  | take name count =>
      refine on fun c hc => ?_
      split_ifs
      · exact refl d
      refine (refl d).update hc ⟨⟨rfl, rfl⟩, fun hended => ?_⟩
      exact ⟨hended, List.prefix_refl _, takeLasts_suffix count c.outgoing⟩
  | forget name =>
      refine on fun c _ => ?_
      split_ifs
      · exact frame rfl (fun _ hx => List.mem_of_mem_filter hx) fun _ hid => hid
      · exact refl d
  | exchange => exact exchange d
  | elapse | closeLimiter | shutdownEngine | stop =>
      exact frame rfl (fun _ hc => hc) fun _ hid => hid
  | sweep maxIdle =>
      refine frame rfl (fun _ hc => hc) fun k hk => ?_
      exact Session.Registry.contains_of_filter hk
  | evict name => exact evict d name
  | evictAll => exact frame rfl (fun _ hc => hc) fun _ hid => absurd hid Bool.false_ne_true

theorem play (d : Desk) (moves : List Move) : d.EvolvesTo (d.play moves) := by
  induction moves generalizing d with
  | nil => exact refl d
  | cons m moves ih => exact (move d m).trans (ih (d.move m))

end EvolvesTo

/-! ## What the connection of a session reads -/

def found? (d : Desk) (s : Id) : Move → Option Reading
  | .read name => (d.connection? name).bind fun c => if c.session = s then d.reading? c else none
  | _ => none

/-- What the connection of a session finds during some moves, in order. -/
def readings (d : Desk) (s : Id) : List Move → List Reading
  | [] => []
  | m :: moves => (d.found? s m).toList ++ readings (d.move m) s moves

theorem found?_eq_some {m : Move} {r : Reading} (h : d.found? s m = some r) :
    ∃ c ∈ d.connections, m = .read c.name ∧ c.session = s ∧ d.reading? c = some r := by
  unfold found? at h
  split at h
  next name =>
    obtain ⟨c, hfind, hreads⟩ := Option.bind_eq_some_iff.mp h
    obtain ⟨hc, rfl⟩ := connection?_mem hfind
    split_ifs at hreads with hsession
    exact ⟨c, hc, rfl, hsession, hreads⟩
  next => cases h

/-- The connections of a session have ended. -/
def AllEnded (d : Desk) (s : Id) : Prop := ∀ c ∈ d.connections, c.session = s → c.activity = .ended

theorem AllEnded.evolvesTo (h : d.AllEnded s) (hgiven : d.Issued s) (hevolves : d.EvolvesTo d') :
    d'.AllEnded s := by
  rintro c hc rfl
  obtain ⟨hfresh, -⟩ | ⟨b, hb, hfollows⟩ := hevolves.connections c hc
  · exact absurd hfresh hgiven.not_fresh
  · exact (hfollows.staysEnded (h b hb hfollows.session.symm)).ended

/-- Once the connection of a session has ended, nothing more is found. -/
theorem AllEnded.readings (h : d.AllEnded s) (hgiven : d.Issued s) (moves : List Move) :
    d.readings s moves = [] := by
  induction moves generalizing d with
  | nil => rfl
  | cons m moves ih =>
      have hmove := EvolvesTo.move d m
      have hnothing : d.found? s m = none := by
        cases hfound : d.found? s m with
        | none => rfl
        | some r =>
            obtain ⟨c, hc, -, hsession, hreads⟩ := found?_eq_some hfound
            have hended := h c hc hsession
            rw [(activity_of_reading? hreads).1] at hended
            cases hended
      rw [Desk.readings, hnothing, ih (h.evolvesTo hgiven hmove) (hgiven.of_le hmove.issued)]
      rfl

/-- A given session that is not registered never will be. -/
theorem EvolvesTo.gone (h : d.EvolvesTo d') (hgiven : d.Issued s)
    (hgone : d.registry.contains s = false) : d'.registry.contains s = false := by
  cases hthere : d'.registry.contains s with
  | false => rfl
  | true =>
      obtain ⟨hfresh, -⟩ | hbefore := h.sessions s hthere
      · exact absurd hfresh hgiven.not_fresh
      · rw [hgone] at hbefore
        cases hbefore

/-- A connection that has found its session gone says so and ends. -/
theorem SessionsOwned.mem_move_read_of_expired (h : d.SessionsOwned) (hc : c ∈ d.connections)
    (hreads : d.reading? c = some .expired) : c.expired ∈ (d.move (.read c.name)).connections := by
  rw [h.move_read_of_some hc hreads]
  exact mem_update_self hc c.nextLine_sameSession.1.name

/-- The connection of a session that is gone passes over a blank line or says so and ends. -/
theorem SessionsOwned.found_of_gone (h : d.SessionsOwned) (hgone : d.registry.contains s = false)
    {m : Move} {r : Reading} (hfound : d.found? s m = some r) :
    r = .blank ∨ r = .expired ∧ (d.move m).AllEnded s := by
  obtain ⟨c, hc, rfl, rfl, hreads⟩ := found?_eq_some hfound
  cases r with
  | blank => exact .inl rfl
  | expired =>
      refine .inr ⟨rfl, fun x hx hsession => ?_⟩
      have hself := h.mem_move_read_of_expired hc hreads
      have hsame := hsession.trans c.sameSession_expired.session.symm
      rw [(h.move (.read c.name)).eq_of_session hx hself hsame]
      rfl
  | invalid | command =>
      have hthere := contains_of_isServed hreads rfl
      rw [hgone] at hthere
      cases hthere

/-- The connection of a session that is gone passes over blank lines, and says once that the
session has expired. -/
theorem SessionsOwned.readings_of_gone (h : d.SessionsOwned) (hgiven : d.Issued s)
    (hgone : d.registry.contains s = false) (moves : List Move) :
    ∃ n, d.readings s moves = .replicate n .blank ∨
      d.readings s moves = .replicate n .blank ++ [.expired] ∧ (d.play moves).AllEnded s := by
  induction moves generalizing d with
  | nil => exact ⟨0, .inl rfl⟩
  | cons m moves ih =>
      have hmove := EvolvesTo.move d m
      have hgiven' := hgiven.of_le hmove.issued
      obtain ⟨n, hrest⟩ := ih (h.move m) hgiven' (hmove.gone hgiven hgone)
      cases hfound : d.found? s m with
      | none =>
          refine ⟨n, ?_⟩
          rw [Desk.readings, hfound]
          exact hrest
      | some r =>
          rw [Desk.readings, hfound]
          obtain rfl | ⟨rfl, hover⟩ := h.found_of_gone hgone hfound
          · refine ⟨n + 1, hrest.imp (fun hblank => ?_) (And.imp_left fun hlast => ?_)⟩
            · rw [hblank]
              rfl
            · rw [hlast]
              rfl
          · refine ⟨0, .inr ⟨?_, hover.evolvesTo hgiven' (.play _ moves)⟩⟩
            rw [hover.readings hgiven' moves]
            rfl

/-! ## What holds at any time -/

/-- What is promised of the sessions of a server. What a connection finds when it reads is acted on;
if it finds nothing it waits, or leaves and writes nothing. A line is acted on as a command, or as
one that is no command, only while the session of the connection is registered, which then is noted
as active at that moment; a blank line is no activity. Once the session is gone, a line that is not
blank is too late: it gets one reply, and the connection has ended for good. A session that is
removed stays so, and its connection finds blank lines and then perhaps one that is too late. -/
structure Guarded (d : Desk) : Prop where
  heeded : ∀ c ∈ d.connections, ∀ r, d.reading? c = some r →
    d.move (.read c.name) = d.heed c.nextLine.2 r
  silent : ∀ c ∈ d.connections, d.reading? c = none → d.move (.read c.name) = d ∨
    ∃ x, c.SameSession x ∧ x.outgoing = c.outgoing ∧ d.move (.read c.name) = d.leave x
  served : ∀ c ∈ d.connections, ∀ r, d.reading? c = some r → r.isServed = true →
    d.registry.contains c.session = true ∧
      ∀ id, (d.move (.read c.name)).registry.find? id =
        if id = c.session then (d.registry.find? id).map fun e => { e with lastActivity := d.now }
        else d.registry.find? id
  blank : ∀ c ∈ d.connections, d.reading? c = some .blank →
    (d.move (.read c.name)).registry = d.registry
  late : ∀ c ∈ d.connections, c.activity = .reading → d.stopped = false →
    d.registry.contains c.session = false → ∀ text, c.nextLine.1 = .text text → text ≠ [] →
    d.reading? c = some .expired
  expired : ∀ c ∈ d.connections, d.reading? c = some .expired →
    c.expired ∈ (d.move (.read c.name)).connections ∧
      c.expired.outgoing = c.outgoing ++ [.error "session expired"] ∧
      ∀ more, ∀ x ∈ ((d.move (.read c.name)).play more).connections, x.session = c.session →
        c.expired.StaysEnded x
  removed : ∀ s, d.registry.contains s = true → ∀ moves,
    (d.play moves).registry.contains s = false → ∀ more,
    ((d.play moves).play more).registry.contains s = false ∧
      ∃ n, (d.play moves).readings s more = .replicate n .blank ∨
        (d.play moves).readings s more = .replicate n .blank ++ [.expired] ∧
          ((d.play moves).play more).AllEnded s

/-- A connection that had ended at the first of two moments rests at the second. -/
theorem SessionsOwned.staysEnded (h : d.SessionsOwned) (hevolves : d.EvolvesTo d')
    (hc : c ∈ d.connections) (hended : c.activity = .ended) (hgiven : d.Issued c.session)
    {x : Connection} (hx : x ∈ d'.connections) (hsession : x.session = c.session) :
    c.StaysEnded x := by
  obtain ⟨hfresh, -⟩ | ⟨b, hb, hfollows⟩ := hevolves.connections x hx
  · exact absurd hfresh (hsession ▸ hgiven.not_fresh)
  · obtain rfl := h.eq_of_session hb hc (hfollows.session.symm.trans hsession)
    exact hfollows.staysEnded hended

theorem play_guarded (client : Client.Settings) (limiter : Admission.Limiter)
    (agent : Execution.Agent) (engine : Correlation.Desk Response) (capacity maxSessions : Nat)
    (moves : List Move) :
    Guarded ((opening client limiter agent engine capacity maxSessions).play moves) := by
  have howned := (sessionsOwned_opening client limiter agent engine capacity maxSessions).play moves
  have hevolves := EvolvesTo.play (opening client limiter agent engine capacity maxSessions) moves
  generalize (opening client limiter agent engine capacity maxSessions).play moves = d at *
  -- Whatever there is has come since the opening, when there was nothing.
  have hserved : ∀ c ∈ d.connections, c.activity ≠ .ended → d.Issued c.session := by
    intro c hc hbusy
    obtain ⟨-, hgiven⟩ | ⟨b, hb, -⟩ := hevolves.connections c hc
    · exact hgiven hbusy
    · cases hb
  have hregistered : ∀ s, d.registry.contains s = true → d.Issued s := by
    intro s hs
    obtain ⟨-, hgiven⟩ | hthere := hevolves.sessions s hs
    · exact hgiven
    · cases hthere
  constructor
  case heeded =>
    intro c hc r hreads
    exact howned.move_read_of_some hc hreads
  case silent =>
    intro c hc hnone
    exact howned.move_read_of_none hc hnone
  case served =>
    intro c hc r hreads hserves
    refine ⟨contains_of_isServed hreads hserves, fun id => ?_⟩
    rw [howned.move_read_of_some hc hreads, find?_heed_of_isServed d _ hserves,
      c.nextLine_sameSession.1.session]
  case blank =>
    intro c hc hreads
    rw [howned.move_read_of_some hc hreads]
    rfl
  case late =>
    intro c _ hreading hstopped hgone text hline htext
    exact reading?_of_not_contains hreading hstopped hgone hline htext
  case expired =>
    intro c hc hreads
    have hself := howned.mem_move_read_of_expired hc hreads
    have hbusy : c.activity ≠ .ended := by simp [(activity_of_reading? hreads).1]
    have hgiven : (d.move (.read c.name)).Issued c.expired.session := by
      rw [c.sameSession_expired.session]
      exact (hserved c hc hbusy).of_le (EvolvesTo.move d _).issued
    refine ⟨hself, ?_, fun more x hx hsession => ?_⟩
    · exact congrArg (· ++ [sessionExpired]) c.nextLine_outgoing
    · exact (howned.move _).staysEnded (EvolvesTo.play _ more) hself rfl hgiven hx
        (hsession.trans c.sameSession_expired.session.symm)
  case removed =>
    intro s hs between hgone more
    have hgiven := (hregistered s hs).of_le (EvolvesTo.play d between).issued
    exact ⟨(EvolvesTo.play _ more).gone hgiven hgone,
      (howned.play between).readings_of_gone hgiven hgone more⟩

end Desk

end AgentGateway.Server
