import AgentGateway.Proofs.Server.Askers
import AgentGateway.Proofs.Server.Blocks
import AgentGateway.Proofs.Session.Entries

/-!
# One connection among the others

What others do leaves a connection as it is (`Desk.Intact.move`), as long as nobody takes its
session away or makes it end. Of all that calls and the bus tell, a connection hears what its own
call tells, in order, and the one note that answers what it has asked for.
-/

namespace AgentGateway.Server

open Bus (Errand Outsider)
open Client (saidBy)

/-- The one whose connection a move is about. -/
def Move.actor? : Move → Option String
  | .send name _ _ | .read name | .take name _ => some name
  | _ => none

namespace Desk

variable {d d' : Desk} {b c : Connection} {name : String}

theorem connection?_update (d : Desk) (c : Connection) (name : String) :
    (d.update c).connection? name =
      if c.name = name then (d.connection? name).map fun _ => c else d.connection? name := by
  have hsame (x : Connection) : ((if x.name = c.name then c else x).name == name) =
      (x.name == name) := by
    split_ifs with h
    · rw [h]
    · rfl
  rw [connection?, update, List.find?_map]
  simp only [Function.comp_def, hsame]
  cases hfind : d.connection? name with
  | none => simp [show d.connections.find? (fun x => x.name == name) = none from hfind]
  | some x =>
      obtain ⟨-, hname⟩ := connection?_mem hfind
      rw [show d.connections.find? (fun x => x.name == name) = some x from hfind]
      simp only [Option.map_some, hname, eq_comm]
      split_ifs <;> rfl

/-- A connection is there and can write, its session is registered until it ends, and no other
connection runs its call. -/
structure Intact (d : Desk) (c : Connection) : Prop where
  here : d.connection? c.name = some c
  held : c.activity ≠ .ended → d.registry.contains c.session = true
  sole : ∀ t, c.activity = .running t → ∀ b ∈ d.connections, b.activity = .running t →
    b.name = c.name
  admits : d.stopped = false
  works : c.writerFailed = false

theorem contains_unregister_of_ne {registry : Session.Registry Correlation.Id Unit}
    {id other : Correlation.Id} (hne : id ≠ other) (h : registry.contains id = true) :
    (registry.unregister other).contains id = true := by
  simp [Session.Registry.contains_unregister, hne, h]

namespace Intact

theorem mem (h : d.Intact c) : c ∈ d.connections := (connection?_mem h.here).1

theorem eq_of_name (h : d.Intact c) (howned : d.SessionsOwned) (hb : b ∈ d.connections)
    (hname : b.name = c.name) : b = c := howned.eq_of_name hb h.mem hname

theorem session_ne (h : d.Intact c) (howned : d.SessionsOwned) (hb : b ∈ d.connections)
    (hname : b.name ≠ c.name) : c.session ≠ b.session := fun heq =>
  hname (congrArg Connection.name (howned.eq_of_session hb h.mem heq.symm))

theorem frame (h : d.Intact c) (hconnections : d'.connections = d.connections)
    (hregistry : d.registry.contains c.session = true → d'.registry.contains c.session = true)
    (hstopped : d'.stopped = d.stopped) : d'.Intact c where
  here := by
    rw [connection?, hconnections]
    exact h.here
  held hactive := hregistry (h.held hactive)
  sole := by
    rw [hconnections]
    exact h.sole
  admits := hstopped.trans h.admits
  works := h.works

theorem update (h : d.Intact b) (hc : b.SameSession c) (hworks : c.writerFailed = b.writerFailed)
    (hheld : c.activity ≠ .ended → d.registry.contains b.session = true)
    (hruns : ∀ t, c.activity = .running t → ∀ x ∈ d.connections, x.activity = .running t →
      x.name = b.name) : (d.update c).Intact c where
  here := by
    rw [connection?_update, if_pos rfl, hc.name, h.here]
    rfl
  held hactive := hc.session ▸ hheld hactive
  sole t hrunning x hx hxrunning := by
    obtain rfl | hx := mem_update hx
    · rfl
    · exact (hruns t hrunning x hx hxrunning).trans hc.name.symm
  admits := h.admits
  works := hworks.trans h.works

theorem conclude (h : d.Intact c) (hheld : d.registry.contains c.session = true) (r : Reply) :
    (d.update (c.conclude r)).Intact (c.conclude r) :=
  h.update ⟨rfl, rfl⟩ rfl (fun _ => hheld) fun _ hrunning =>
    absurd hrunning ((c.idle_conclude r).ne_running _)

theorem left (h : d.Intact b) (hc : b.SameSession c) (hworks : c.writerFailed = b.writerFailed) :
    (d.leave c).Intact { c with activity := .ended } where
  here := by
    have hhere : ({ d with registry := d.registry.unregister c.session } : Desk).connection?
        c.name = some b := hc.name ▸ h.here
    rw [Desk.leave, connection?_update, if_pos rfl, hhere]
    rfl
  held hactive := absurd rfl hactive
  sole := nofun
  admits := h.admits
  works := hworks.trans h.works

/-- Another connection goes on, and does not run the call of this one. -/
theorem other (h : d.Intact c) (hname : b.name ≠ c.name)
    (hruns : ∀ t, c.activity = .running t → b.activity ≠ .running t) : (d.update b).Intact c where
  here := by
    rw [connection?_update, if_neg hname]
    exact h.here
  held := h.held
  sole t hrunning x hx hxrunning := by
    obtain rfl | hx := mem_update hx
    · exact absurd hxrunning (hruns t hrunning)
    · exact h.sole t hrunning x hx hxrunning
  admits := h.admits
  works := h.works

/-- Another connection runs what it ran before, or nothing. -/
theorem other_idle (h : d.Intact c) (hb : b ∈ d.connections) (hname : b.name ≠ c.name)
    {x : Connection} (hx : b.SameSession x)
    (hidle : ∀ t, x.activity = .running t → b.activity = .running t) : (d.update x).Intact c :=
  h.other (hx.name.symm ▸ hname) fun t hrunning hxrunning =>
    hname (h.sole t hrunning b hb (hidle t hxrunning))

theorem touched (h : d.Intact c) (b : Connection) : (d.touched b).Intact c :=
  h.frame rfl (fun hheld => (Session.Registry.contains_touch ..).trans hheld) rfl

theorem leave (h : d.Intact c) (howned : d.SessionsOwned) (hb : b ∈ d.connections)
    (hname : b.name ≠ c.name) {x : Connection} (hx : b.SameSession x) : (d.leave x).Intact c := by
  have hgone : ({ d with registry := d.registry.unregister x.session } : Desk).Intact c :=
    h.frame rfl (contains_unregister_of_ne (hx.session ▸ h.session_ne howned hb hname)) rfl
  exact hgone.other_idle (x := { x with activity := .ended }) hb hname ⟨hx.name, hx.session⟩ nofun

theorem run (h : d.Intact c) (hsafe : d.CrashFree) (hname : b.name ≠ c.name) (key : String)
    (prompt : Prompt) : (d.run b key prompt).Intact c := by
  rw [run_eq]
  have hclient : (d.setClient ({ d.client with now := d.now }.start key prompt true).1).Intact c :=
    h.frame rfl id rfl
  refine hclient.other (b := { b with activity := .running d.client.issued }) hname
    fun t hrunning heq => ?_
  -- The next ticket is nobody's yet.
  obtain rfl := Activity.running.inj heq
  exact absurd (hsafe.office.handler.issued _ ⟨c, h.mem, hrunning⟩) (Nat.lt_irrefl _)

theorem ask (h : d.Intact c) (hname : b.name ≠ c.name) (key : String) (prompt : Prompt) :
    (d.ask b key prompt).Intact c := by
  unfold Desk.ask
  split
  next => exact h.other (b := { b with activity := .crashed }) hname (by simp)
  next deadline _ =>
    have hsubmitted (office : Office) : ({ d with office } : Desk).Intact c := h.frame rfl id rfl
    exact (hsubmitted _).other (b := { b with activity := .asking }) hname (by simp)

theorem read (h : d.Intact c) (howned : d.SessionsOwned) (hsafe : d.CrashFree)
    (hb : b ∈ d.connections) (hname : b.name ≠ c.name) (hd : LineRead d b d') : d'.Intact c := by
  cases hd with
  | left x hx => exact h.leave howned hb hname hx
  | skipped x hx hidle =>
      exact h.other_idle hb hname hx 
        fun _ hrunning => absurd hrunning (hidle.ne_running _)
  | refused x hx hidle =>
      exact (h.touched b).other_idle hb hname hx 
        fun _ hrunning => absurd hrunning (hidle.ne_running _)
  | obeyed command _ _ hd =>
      have htouched := h.touched b
      cases hd with
      | reply x hx hidle =>
          exact htouched.other_idle hb hname hx 
            fun _ hrunning => absurd hrunning (hidle.ne_running _)
      | run x hx key prompt =>
          have hsafe : (d.touched b).CrashFree := hsafe.sub rfl fun _ hx => hx
          exact htouched.run hsafe (hx.name ▸ hname) key prompt
      | ask x hx key prompt => exact htouched.ask (hx.name ▸ hname) key prompt

end Intact

/-! ## Moves of others -/

/-- A move does not take a connection away, its writer or its session, and its peer sends nothing
after it has said that it would send no more. -/
def Spares (d : Desk) (name : String) : Move → Prop
  | .send n _ _ => n = name → ∀ c ∈ d.connection? name, c.finished = false
  | .sever n | .failWriter n | .forget n | .evict n => n ≠ name
  | .sweep maxIdle => ∀ c ∈ d.connection? name, d.registry.contains c.session = true →
      (d.registry.cleanup d.now maxIdle).1.contains c.session = true
  | .evictAll | .stop => False
  | .connect _ | .read _ | .take _ _ | .exchange | .elapse _ | .closeLimiter | .shutdownEngine =>
      True

instance (d : Desk) (name : String) : (m : Move) → Decidable (d.Spares name m)
  | .send n _ _ => inferInstanceAs
      (Decidable (n = name → ∀ c ∈ d.connection? name, c.finished = false))
  | .sever n | .failWriter n | .forget n | .evict n => inferInstanceAs (Decidable (n ≠ name))
  | .sweep maxIdle => inferInstanceAs
      (Decidable (∀ c ∈ d.connection? name, d.registry.contains c.session = true →
        (d.registry.cleanup d.now maxIdle).1.contains c.session = true))
  | .evictAll | .stop => .isFalse id
  | .connect _ | .read _ | .take _ _ | .exchange | .elapse _ | .closeLimiter | .shutdownEngine =>
      .isTrue trivial

namespace Intact

theorem connect (h : d.Intact c) (howned : d.SessionsOwned) (hfree : d.connection? name = none) :
    (d.connect name).Intact c := by
  have hname : c.name ≠ name := by
    rintro rfl
    rw [h.here] at hfree
    cases hfree
  have hnew : ∀ x ∈ d.connections, x.name ≠ name := by simpa [connection?] using hfree
  have hsame : d.connections.filter (·.name != name) = d.connections :=
    List.filter_eq_self.mpr fun x hx => by simpa using hnew x hx
  have henter {d' : Desk} {x : Connection} (hconnections : d'.connections = d.connections ++ [x])
      (hx : x.activity = .reading ∨ x.activity = .ended)
      (hregistry : d.registry.contains c.session = true → d'.registry.contains c.session = true)
      (hstopped : d'.stopped = d.stopped) : d'.Intact c := by
    have hfind : d.connections.find? (fun x => x.name == c.name) = some c := h.here
    refine ⟨?_, fun hactive => hregistry (h.held hactive), fun t hrunning y hy hyrunning => ?_,
      hstopped.trans h.admits, h.works⟩
    · rw [connection?, hconnections, List.find?_append, hfind]
      rfl
    · rw [hconnections] at hy
      rcases List.mem_append.mp hy with hy | hy
      · exact h.sole t hrunning y hy hyrunning
      · obtain rfl := List.mem_singleton.mp hy
        obtain hx | hx := hx <;> simp [hx] at hyrunning
  unfold Desk.connect
  dsimp only
  rw [hsame]
  split
  next registry hregister =>
    refine henter rfl (.inl rfl) (fun hheld => ?_) rfl
    unfold Session.Registry.register at hregister
    split at hregister
    next => cases hregister
    next =>
      obtain rfl := Except.ok.inj hregister
      obtain ⟨n, hsession⟩ := howned.sessions c h.mem
      have hother : c.session ≠ .generated d.issued name := by
        rw [hsession]
        exact fun heq => hname (Correlation.Id.generated.inj heq).2
      obtain ⟨e, he, hid⟩ :=
        Session.Registry.contains_iff.mp (contains_unregister_of_ne hother hheld)
      exact Session.Registry.contains_iff.mpr ⟨e, List.mem_append_left _ he, hid⟩
  next => exact henter rfl (.inr rfl) id rfl

theorem forget (h : d.Intact c) {name : String} (hname : name ≠ c.name) :
    ({ d with connections := d.connections.filter (·.name != name) } : Desk).Intact c := by
  refine ⟨?_, h.held, fun t hrunning x hx => h.sole t hrunning x (List.mem_of_mem_filter hx),
    h.admits, h.works⟩
  have hfind : d.connections.find? (fun x => x.name == c.name) = some c := h.here
  show (d.connections.filter _).find? _ = some c
  rw [List.find?_filter, ← hfind]
  refine congrArg (fun p => List.find? p d.connections) (funext fun x => ?_)
  by_cases heq : x.name = c.name
  · simp [heq, Ne.symm hname]
  · simp [heq]

theorem move (h : d.Intact c) (howned : d.SessionsOwned) (hsafe : d.CrashFree) {m : Move}
    (hspares : d.Spares c.name m) (hactor : m.actor? ≠ some c.name) (hm : m ≠ .exchange) :
    (d.move m).Intact c := by
  have hon {name : String} {f : Connection → Desk} (hne : name ≠ c.name)
      (hf : ∀ b ∈ d.connections, b.name ≠ c.name → (f b).Intact c) : (d.on name f).Intact c := by
    unfold Desk.on
    cases hfind : d.connection? name with
    | none => exact h
    | some b =>
        obtain ⟨hb, rfl⟩ := connection?_mem hfind
        exact hf b hb hne
  cases m with
  | exchange => exact absurd rfl hm
  | connect name =>
      unfold Desk.move
      dsimp only
      split_ifs with hfree
      · exact h
      · exact h.connect howned (by simpa using hfree)
  | send name bytes last =>
      have hne : name ≠ c.name := fun heq => hactor (congrArg some heq)
      exact hon hne fun b hb hname => h.other_idle hb hname ⟨rfl, rfl⟩ fun _ => id
  | failWriter name =>
      exact hon hspares fun b hb hname => h.other_idle hb hname ⟨rfl, rfl⟩ fun _ => id
  | take name count =>
      have hne : name ≠ c.name := fun heq => hactor (congrArg some heq)
      refine hon hne fun b hb hname => ?_
      split_ifs
      · exact h
      · exact h.other_idle hb hname ⟨rfl, rfl⟩ fun _ => id
  | read name =>
      have hne : name ≠ c.name := fun heq => hactor (congrArg some heq)
      refine hon hne fun b hb hname => ?_
      cases hread : d.readLine? b with
      | none => exact h
      | some d' => exact h.read howned hsafe hb hname (readLine?_cases hread).2
  | sever name =>
      refine hon hspares fun b hb hname => ?_
      split_ifs
      · exact h.leave howned hb hname (.refl b)
      · exact h
  | forget name =>
      refine hon hspares fun b hb hname => ?_
      split_ifs
      · exact h.forget hspares
      · exact h
  | evict name =>
      unfold Desk.move Desk.evict
      dsimp only
      split
      next b hfind =>
        obtain ⟨hb, rfl⟩ := connection?_mem hfind
        exact h.frame rfl (contains_unregister_of_ne (h.session_ne howned hb hspares)) rfl
      next => exact h
  | sweep maxIdle => exact h.frame rfl (hspares c h.here) rfl
  | elapse | closeLimiter | shutdownEngine => exact h.frame rfl id rfl
  | evictAll | stop => exact absurd hspares id

/-! ## What a connection hears -/

/-- A connection that runs a call hears what that call tells, and no other one does. -/
theorem relay (h : d.Intact c) (howned : d.SessionsOwned) (t : Nat) (m : Client.Message) :
    (c.activity ≠ .running t → (d.relay t m).Intact c) ∧
    (c.activity = .running t →
      (∀ e, m = .event e → (d.relay t m).Intact (c.write (.event e))) ∧
      ∀ how result, m = .ended how → resultOf? how = some result →
        (d.relay t m).Intact (c.conclude (.ofResult result))) := by
  constructor
  · intro hidle
    unfold Desk.relay
    cases hfind : d.connections.find? (·.activity == .running t) with
    | none => exact h
    | some b =>
        have hb : b ∈ d.connections := List.mem_of_find?_eq_some hfind
        have hrunning : b.activity = .running t := by simpa using List.find?_some hfind
        have hname : b.name ≠ c.name := fun heq =>
          hidle (h.eq_of_name howned hb heq ▸ hrunning)
        cases m with
        | event e => exact h.other_idle hb hname ⟨rfl, rfl⟩ fun _ => id
        | ended how =>
            have hdone (r : Reply) : (d.update (b.conclude r)).Intact c :=
              h.other_idle hb hname ⟨rfl, rfl⟩ fun _ hrunning =>
                absurd hrunning ((b.idle_conclude r).ne_running _)
            cases how with
            | answered | failed => exact hdone _
            | crashed => exact h.other_idle hb hname ⟨rfl, rfl⟩ nofun
  · intro hrunning
    have hfind : d.connections.find? (·.activity == .running t) = some c := by
      cases hfind : d.connections.find? (·.activity == .running t) with
      | none =>
          have hnot := List.find?_eq_none.mp hfind c h.mem
          simp [hrunning] at hnot
      | some b =>
          have hb : b ∈ d.connections := List.mem_of_find?_eq_some hfind
          have hbrunning : b.activity = .running t := by simpa using List.find?_some hfind
          rw [h.eq_of_name howned hb (h.sole t hrunning b hb hbrunning)]
    have hheld : d.registry.contains c.session = true := h.held (by simp [hrunning])
    constructor
    · rintro e rfl
      unfold Desk.relay
      rw [hfind]
      exact h.update ⟨rfl, rfl⟩ rfl (fun _ => hheld) h.sole
    · rintro how result rfl hresult
      unfold Desk.relay
      rw [hfind]
      cases how with
      | answered r =>
          obtain rfl := Option.some.inj hresult
          exact h.conclude hheld _
      | failed f =>
          obtain rfl := Option.some.inj hresult
          exact h.conclude hheld _
      | crashed => cases hresult

theorem relays_idle (h : d.Intact c) (howned : d.SessionsOwned)
    (messages : List (Admission.Ticket × Duration × Client.Message))
    (hidle : ∀ t, c.activity ≠ .running t) :
    (messages.foldl (fun d (t, _, m) => d.relay t m) d).Intact c := by
  refine (List.foldlRecOn messages _ (motive := fun d : Desk => d.SessionsOwned ∧ d.Intact c)
    ⟨howned, h⟩ fun d hd m _ => ?_).2
  exact ⟨hd.1.told (relay_cases d m.1 m.2.2), (hd.2.relay hd.1 m.1 m.2.2).1 (hidle m.1)⟩

theorem relays_events (h : d.Intact c) (howned : d.SessionsOwned)
    {messages : List (Admission.Ticket × Duration × Client.Message)} {t : Nat}
    (hrunning : c.activity = .running t) {events : List Event}
    (hsaid : saidBy t messages = events.map .event) :
    (messages.foldl (fun d (t, _, m) => d.relay t m) d).Intact
      { c with outgoing := c.outgoing ++ events.map .event } := by
  induction messages generalizing d c events with
  | nil =>
      obtain rfl : events = [] := by simpa [saidBy] using hsaid.symm
      simpa using h
  | cons m messages ih =>
      obtain ⟨u, time, m⟩ := m
      have howned' := howned.told (relay_cases d u m)
      by_cases hu : u = t
      · subst hu
        have hsaid : m :: saidBy u messages = events.map .event := by
          rw [← hsaid]
          simp [saidBy]
        cases events with
        | nil => cases hsaid
        | cons e events =>
            obtain ⟨rfl, hrest⟩ := List.cons.inj hsaid
            have hnext := ((h.relay howned u (.event e)).2 hrunning).1 e rfl
            have hdone := ih hnext howned' hrunning hrest
            simpa [Connection.write] using hdone
      · have hsaid : saidBy t messages = events.map .event := by
          rw [← hsaid]
          simp [saidBy, hu]
        have hne : c.activity ≠ .running u := by
          rw [hrunning]
          exact fun heq => hu (Activity.running.inj heq).symm
        exact ih ((h.relay howned u m).1 hne) howned' hrunning hsaid

/-- A connection passes on the events of its call and then its result, and reads on. -/
theorem relays_ended (h : d.Intact c) (howned : d.SessionsOwned)
    {messages : List (Admission.Ticket × Duration × Client.Message)} {t : Nat}
    (hrunning : c.activity = .running t) {events : List Event} {how : Client.Ending}
    (hsaid : saidBy t messages = events.map .event ++ [.ended how])
    {result : Except Failure Response} (hresult : resultOf? how = some result) :
    (messages.foldl (fun d (t, _, m) => d.relay t m) d).Intact
      { c with
        outgoing := c.outgoing ++ (events.map .event ++ [.ofResult result])
        activity := .reading } := by
  induction messages generalizing d c events with
  | nil => simp [saidBy] at hsaid
  | cons m messages ih =>
      obtain ⟨u, time, m⟩ := m
      have howned' := howned.told (relay_cases d u m)
      by_cases hu : u = t
      · subst hu
        have hsaid : m :: saidBy u messages = events.map .event ++ [.ended how] := by
          rw [← hsaid]
          simp [saidBy]
        cases events with
        | nil =>
            obtain ⟨rfl, -⟩ := List.cons.inj hsaid
            have hnext := ((h.relay howned u (.ended how)).2 hrunning).2 how result rfl hresult
            rw [Connection.conclude_eq h.works] at hnext
            exact hnext.relays_idle howned' messages (by simp)
        | cons e events =>
            obtain ⟨rfl, hrest⟩ := List.cons.inj hsaid
            have hnext := ((h.relay howned u (.event e)).2 hrunning).1 e rfl
            have hdone := ih hnext howned' hrunning hrest
            simpa [Connection.write] using hdone
      · have hsaid : saidBy t messages = events.map .event ++ [.ended how] := by
          rw [← hsaid]
          simp [saidBy, hu]
        have hne : c.activity ≠ .running u := by
          rw [hrunning]
          exact fun heq => hu (Activity.running.inj heq).symm
        exact ih ((h.relay howned u m).1 hne) howned' hrunning hsaid

variable {s : Client.Settings} {agent : Execution.Agent} {sizes : String → Nat}
  {out : Option Outsider} {want : String → Errand} {pending : List (Note (Bus.News Response))}

theorem hears_idle (h : d.Intact c) (htracked : d.AskersTracked s agent sizes out want pending)
    (hidle : c.activity ≠ .asking) : (pending.foldl Desk.hear d).Intact c := by
  induction pending generalizing d with
  | nil => exact h
  | cons n pending ih =>
      obtain ⟨b, hb, -, hasking, o, -, heq⟩ := htracked.hear_eq
      have hname : b.name ≠ c.name := fun hname =>
        hidle (h.eq_of_name htracked.sessionsOwned hb hname ▸ hasking)
      have hnext : (d.hear n).Intact c := by
        rw [heq]
        exact h.other_idle hb hname ⟨rfl, rfl⟩ fun _ hrunning =>
          absurd hrunning ((b.idle_conclude _).ne_running _)
      exact ih hnext htracked.hear

/-- A connection that asks goes on waiting, or hears its result and reads on. -/
theorem hears_asking (h : d.Intact c) (htracked : d.AskersTracked s agent sizes out want pending)
    (hasking : c.activity = .asking) :
    (pending.foldl Desk.hear d).Intact c ∨
      ∃ o, Bus.Settles (Errand.Earned s agent) (want c.name) o ∧
        (pending.foldl Desk.hear d).Intact (c.conclude (.ofResult o)) := by
  induction pending generalizing d with
  | nil => exact .inl h
  | cons n pending ih =>
      obtain ⟨b, hb, -, hbasking, o, hsettles, heq⟩ := htracked.hear_eq
      by_cases hname : b.name = c.name
      · obtain rfl := h.eq_of_name htracked.sessionsOwned hb hname
        have hnext : (d.hear n).Intact (b.conclude (.ofResult o)) := by
          rw [heq]
          exact h.conclude (h.held (by simp [hasking])) _
        exact .inr ⟨o, hsettles, hnext.hears_idle htracked.hear
          (b.idle_conclude _).ne_asking⟩
      · have hnext : (d.hear n).Intact c := by
          rw [heq]
          exact h.other_idle hb hname ⟨rfl, rfl⟩ fun _ hrunning =>
            absurd hrunning ((b.idle_conclude _).ne_running _)
        exact ih hnext htracked.hear

end Intact

end Desk

end AgentGateway.Server
