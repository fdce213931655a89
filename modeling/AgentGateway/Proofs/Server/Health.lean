import AgentGateway.Proofs.Server.Sessions

/-!
# When no connection crashes

A connection crashes when a command of its peer leads to a time that cannot be computed or shown
by the clock, or to a pool that cannot be made (`Desk.CommandInRange`). There is nothing else that
it can crash at (`Desk.CrashFree.move`), so as long as no such command is carried out, a session
is registered only while its connection is being served. A peer that asks for too long a time
limit leaves its session behind.
-/

namespace AgentGateway.Server

open Correlation (Id)

def Connection.isServed (c : Connection) : Bool :=
  match c.activity with
  | .reading | .running _ | .asking | .leaving => true
  | .ended | .crashed => false

namespace Desk

/-- The deadline of a reply to a prompt that is asked for can be computed, and shown by the clock.
-/
def DeadlineShowable (d : Desk) (prompt : Prompt) : Prop :=
  ∃ deadline ∈ (d.client.settings.limit? prompt).bind (·.add? replyGrace),
    Ticker.Showable (d.now + deadline)

def CommandInRange (d : Desk) (command : Command) : Prop :=
  ∀ errand ∈ command.errand?,
    (command.verb = "run" → d.client.CallInRange errand.1 errand.2) ∧
      (command.verb = "ask" → d.DeadlineShowable errand.2)

def MoveInRange (d : Desk) : Move → Prop
  | .read name => ∀ c ∈ d.connection? name, ∀ command ∈ c.command?, d.CommandInRange command
  | _ => True

/-- No command out of range is ever carried out. -/
def InRange (d : Desk) : List Move → Prop
  | [] => True
  | m :: moves => d.MoveInRange m ∧ (d.move m).InRange moves

instance (d : Desk) (prompt : Prompt) : Decidable (d.DeadlineShowable prompt) :=
  inferInstanceAs (Decidable (∃ _ ∈ _, _))

instance (d : Desk) (command : Command) : Decidable (d.CommandInRange command) :=
  inferInstanceAs (Decidable (∀ _ ∈ _, _))

instance (d : Desk) : (m : Move) → Decidable (d.MoveInRange m)
  | .read name => inferInstanceAs
      (Decidable (∀ c ∈ d.connection? name, ∀ command ∈ c.command?, d.CommandInRange command))
  | .connect _ | .send _ _ _ | .sever _ | .failWriter _ | .take _ _ | .forget _ | .exchange
  | .elapse _ | .sweep _ | .evict _ | .evictAll | .closeLimiter | .shutdownEngine | .stop =>
    .isTrue trivial

instance instDecidableInRange (d : Desk) : (moves : List Move) → Decidable (d.InRange moves)
  | [] => .isTrue trivial
  | m :: moves =>
    have := instDecidableInRange (d.move m) moves
    inferInstanceAs (Decidable (d.MoveInRange m ∧ (d.move m).InRange moves))

def Runs (d : Desk) (t : Admission.Ticket) : Prop := ∃ c ∈ d.connections, c.activity = .running t

structure CrashFree (d : Desk) : Prop where
  office : d.office.CrashFree fun calls => calls.desk.CrashFree d.Runs
  connections : ∀ c ∈ d.connections, c.activity ≠ .crashed

theorem crashFree_opening (client : Client.Settings) (limiter : Admission.Limiter)
    (agent : Execution.Agent) (engine : Correlation.Desk Response) (capacity maxSessions : Nat) :
    (opening client limiter agent engine capacity maxSessions).CrashFree := by
  have hidle (t : Nat) : ¬ (opening client limiter agent engine capacity maxSessions).Runs t := by
    rintro ⟨c, hc, -⟩
    cases hc
  refine ⟨⟨⟨fun t ht => absurd ht (hidle t), ?_, ?_, ?_⟩, ?_⟩, ?_⟩
  all_goals
    intro _ h
    cases h

namespace CrashFree

variable {d d' : Desk}

theorem frame (h : d.CrashFree) (hconnections : d'.connections = d.connections)
    (hoffice : d'.office.CrashFree fun calls => calls.desk.CrashFree d.Runs) : d'.CrashFree where
  office := by
    have hruns : d'.Runs = d.Runs := by
      unfold Runs
      rw [hconnections]
    rwa [hruns]
  connections := by
    rw [hconnections]
    exact h.connections

theorem replace (h : d.CrashFree) (hoffice : d'.office = d.office)
    (hconnections : ∀ x ∈ d'.connections, x.activity ≠ .crashed ∧
      ∀ t, x.activity = .running t → d.Runs t) : d'.CrashFree where
  office := by
    rw [hoffice]
    refine ⟨h.office.handler.mono ?_, h.office.notes⟩
    rintro t ⟨x, hx, hrunning⟩
    exact (hconnections x hx).2 t hrunning
  connections x hx := (hconnections x hx).1

theorem sub (h : d.CrashFree) (hoffice : d'.office = d.office)
    (hconnections : ∀ x ∈ d'.connections, x ∈ d.connections) : d'.CrashFree :=
  h.replace hoffice fun x hx => ⟨h.connections x (hconnections x hx),
    fun _ hrunning => ⟨x, hconnections x hx, hrunning⟩⟩

theorem update (h : d.CrashFree) {c : Connection} (hc : c.activity ≠ .crashed)
    (hruns : ∀ t, c.activity = .running t → d.Runs t) : (d.update c).CrashFree := by
  refine h.replace rfl fun x hx => ?_
  obtain rfl | hx := mem_update hx
  · exact ⟨hc, hruns⟩
  · exact ⟨h.connections x hx, fun t hrunning => ⟨x, hx, hrunning⟩⟩

theorem update_idle (h : d.CrashFree) {c : Connection}
    (hc : c.Idle ∨ c.activity = .asking ∨ c.activity = .ended) : (d.update c).CrashFree := by
  obtain (hc | hc) | hc | hc := hc <;> exact h.update (by simp [hc]) (by simp [hc])

theorem leave (h : d.CrashFree) (c : Connection) : (d.leave c).CrashFree := by
  have hgone : ({ d with registry := d.registry.unregister c.session } : Desk).CrashFree :=
    h.sub rfl fun _ hx => hx
  exact hgone.update_idle (.inr (.inr rfl))

theorem run (h : d.CrashFree) (c : Connection) {key : String} {prompt : Prompt}
    (hinRange : d.client.CallInRange key prompt) : (d.run c key prompt).CrashFree := by
  have hclient : ({ d.client with now := d.now } : Client.Desk).CrashFree d.Runs :=
    h.office.handler.same rfl rfl rfl rfl
  -- Of the calls that are run the new one alone is new, and it has the next ticket.
  have hactivity (x : Connection) (hx : x ∈ (d.run c key prompt).connections) :
      x.activity = .running d.client.issued ∨ x ∈ d.connections := by
    obtain rfl | hx := mem_update hx
    · exact .inl (congrArg Activity.running (Client.Desk.start_ticket _ key prompt true))
    · exact .inr hx
  refine ⟨⟨hclient.start ?_ (fun _ => hinRange) true, h.office.notes⟩, fun x hx => ?_⟩
  · rintro t ⟨x, hx, hrunning⟩
    obtain hnew | hx := hactivity x hx
    · exact .inr (Activity.running.inj (hrunning.symm.trans hnew))
    · exact .inl ⟨x, hx, hrunning⟩
  · obtain hnew | hx := hactivity x hx
    · simp [hnew]
    · exact h.connections x hx

theorem ask (h : d.CrashFree) (c : Connection) {key : String} {prompt : Prompt}
    (hshowable : d.DeadlineShowable prompt) : (d.ask c key prompt).CrashFree := by
  obtain ⟨deadline, hdeadline, hshow⟩ := hshowable
  unfold Desk.ask
  rw [hdeadline]
  have hsubmitted := h.office.submit (Bus.answering_preserves d.Runs) c.name ⟨key, prompt⟩ hshow
  apply update_idle
  · exact h.frame rfl hsubmitted
  · exact .inr (.inl rfl)

theorem dispatched (h : d.CrashFree) {b : Connection} {command : Command}
    (hinRange : d.CommandInRange command) (hd : Dispatched d b command d') : d'.CrashFree := by
  cases hd with
  | reply c _ hidle => exact h.update_idle (.inl hidle)
  | run c _ key prompt hverb herrand => exact h.run c ((hinRange _ herrand).1 hverb)
  | ask c _ key prompt hverb herrand => exact h.ask c ((hinRange _ herrand).2 hverb)

theorem lineRead (h : d.CrashFree) {b : Connection}
    (hinRange : ∀ command ∈ b.command?, d.CommandInRange command) (hd : LineRead d b d') :
    d'.CrashFree := by
  have htouched : (d.touched b).CrashFree := h.sub rfl fun _ hx => hx
  cases hd with
  | left c => exact h.leave c
  | skipped c _ hidle => exact h.update_idle (.inl hidle)
  | refused c _ hidle => exact htouched.update_idle (.inl hidle)
  | obeyed command hcommand _ hd => exact htouched.dispatched (hinRange command hcommand) hd

theorem told (h : d.CrashFree) {crash : Prop} (hcalm : ¬ crash) (hd : Told d crash d') :
    d'.CrashFree := by
  cases hd with
  | ignored => exact h
  | @wrote b hb c hc hactivity _ =>
      obtain hsame | hidle := hactivity
      · exact h.update (hsame ▸ h.connections b hb) fun t hrunning => ⟨b, hb, hsame ▸ hrunning⟩
      · exact h.update_idle (.inl hidle)
  | crashed hb hcrash => exact absurd hcrash hcalm

/-- What is told makes no connection run another call. -/
theorem runs_of_told {crash : Prop} (hd : Told d crash d') {t : Nat} (ht : d'.Runs t) :
    d.Runs t := by
  obtain ⟨x, hx, hrunning⟩ := ht
  cases hd with
  | ignored => exact ⟨x, hx, hrunning⟩
  | @wrote b hb c hc hactivity _ =>
      obtain rfl | hx := mem_update hx
      · obtain hsame | hidle := hactivity
        · exact ⟨b, hb, hsame ▸ hrunning⟩
        · exact absurd hrunning (hidle.ne_running _)
      · exact ⟨x, hx, hrunning⟩
  | crashed =>
      obtain rfl | hx := mem_update hx
      · cases hrunning
      · exact ⟨x, hx, hrunning⟩

/-- Connections only ever stop running calls as they hear what calls tell, so it is enough to know
of the calls that are run at first. -/
theorem relays (h : d.CrashFree) {messages : List (Admission.Ticket × Duration × Client.Message)}
    (hcalm : ∀ m ∈ messages, d.Runs m.1 → m.2.2 ≠ .ended .crashed) :
    (messages.foldl (fun d (t, _, m) => d.relay t m) d).CrashFree := by
  refine (List.foldlRecOn messages _
    (motive := fun d' : Desk => d'.CrashFree ∧ ∀ t, d'.Runs t → d.Runs t) ⟨h, fun _ ht => ht⟩
    fun d' hd' m hm => ?_).1
  have htold := relay_cases d' m.1 m.2.2
  exact ⟨hd'.1.told (fun hcrash => hcalm m hm (hd'.2 _ hcrash.1) hcrash.2) htold,
    fun t ht => hd'.2 t (runs_of_told htold ht)⟩

theorem exchange (h : d.CrashFree) : d.exchange.CrashFree := by
  have hoffice := h.office.act (Bus.answering_preserves d.Runs)
  have hacted : d.acted.CrashFree := h.frame rfl
    ⟨hoffice.handler.frame rfl rfl (fun _ hc => hc) nofun, nofun⟩
  rw [exchange_eq]
  refine List.foldlRecOn _ _ (hacted.relays hoffice.handler.calm) fun d' hd' n hn => ?_
  have hnote : n.what ≠ .crashed := hoffice.notes n (List.mem_mergeSort.mp hn)
  exact hd'.told hnote (hear_cases d' n)

theorem connect (h : d.CrashFree) (name : String) : (d.connect name).CrashFree := by
  have hkeep {d' : Desk} (c : Connection) (hc : c.activity = .reading ∨ c.activity = .ended)
      (hoffice : d'.office = d.office)
      (hconnections : d'.connections = d.connections.filter (·.name != name) ++ [c]) :
      d'.CrashFree := by
    refine h.replace hoffice fun x hx => ?_
    rw [hconnections] at hx
    obtain hx | hx := List.mem_append.mp hx
    · have hx := List.mem_of_mem_filter hx
      exact ⟨h.connections x hx, fun _ hrunning => ⟨x, hx, hrunning⟩⟩
    · obtain rfl := List.mem_singleton.mp hx
      obtain hc | hc := hc <;> simp [hc]
  unfold Desk.connect
  dsimp only
  split
  next => exact hkeep _ (.inl rfl) rfl rfl
  next => exact hkeep _ (.inr rfl) rfl rfl

theorem on (h : d.CrashFree) {name : String} {f : Connection → Desk}
    (hf : ∀ c ∈ d.connection? name, c ∈ d.connections → (f c).CrashFree) :
    (d.on name f).CrashFree := by
  unfold Desk.on
  cases hfind : d.connection? name with
  | none => exact h
  | some c => exact hf c hfind (connection?_mem hfind).1

/-- No move makes a connection crash but a command that is out of range. -/
theorem move (h : d.CrashFree) {m : Move} (hinRange : d.MoveInRange m) : (d.move m).CrashFree := by
  have hupdate {b c : Connection} (hb : b ∈ d.connections) (hactivity : c.activity = b.activity) :
      (d.update c).CrashFree :=
    h.update (hactivity ▸ h.connections b hb) fun t hrunning => ⟨b, hb, hactivity ▸ hrunning⟩
  cases m with
  | connect name =>
      simp only [Desk.move]
      split_ifs
      · exact h
      · exact h.connect name
  | send name bytes last => exact h.on fun c _ hc => hupdate hc rfl
  | read name =>
      refine h.on fun c hfind _ => ?_
      cases hread : d.readLine? c with
      | none => exact h
      | some d' => exact h.lineRead (hinRange c hfind) (readLine?_cases hread).2
  | sever name =>
      refine h.on fun c _ _ => ?_
      split_ifs
      · exact h.leave c
      · exact h
  | failWriter name => exact h.on fun c _ hc => hupdate hc rfl
  | take name count =>
      refine h.on fun c _ hc => ?_
      split_ifs
      · exact h
      · exact hupdate hc rfl
  | forget name =>
      refine h.on fun c _ _ => ?_
      split_ifs
      · exact h.sub rfl fun _ hx => List.mem_of_mem_filter hx
      · exact h
  | exchange => exact h.exchange
  | elapse span => exact h.frame rfl (h.office.happen (Bus.answering_preserves d.Runs) _)
  | closeLimiter => exact h.frame rfl ⟨h.office.handler.shut, h.office.notes⟩
  | shutdownEngine => exact h.frame rfl h.office.shutdownEngine
  | evict name =>
      simp only [Desk.move, evict]
      split
      next => exact h.sub rfl fun _ hx => hx
      next => exact h
  | sweep | evictAll | stop => exact h.sub rfl fun _ hx => hx

theorem play (h : d.CrashFree) {moves : List Move} (hrange : d.InRange moves) :
    (d.play moves).CrashFree := by
  induction moves generalizing d with
  | nil => exact h
  | cons m moves ih => exact ih (h.move hrange.1) hrange.2

end CrashFree

/-- Each session that is registered belongs to a connection that is being served; one that is not,
for whatever reason, has given its session back. -/
structure SessionsServed (d : Desk) : Prop where
  served : ∀ e ∈ d.registry.entries, ∃ c ∈ d.connections, c.session = e.id ∧ c.isServed = true
  released : ∀ c ∈ d.connections, c.isServed = false → d.registry.contains c.session = false

/-- Whatever a peer does, as long as its commands are in range. -/
theorem play_sessions_served (client : Client.Settings) (limiter : Admission.Limiter)
    (agent : Execution.Agent) (engine : Correlation.Desk Response) (capacity maxSessions : Nat)
    {moves : List Move}
    (h : (opening client limiter agent engine capacity maxSessions).InRange moves) :
    ((opening client limiter agent engine capacity maxSessions).play moves).SessionsServed := by
  have howned := (sessionsOwned_opening client limiter agent engine capacity maxSessions).play moves
  have hsafe := (crashFree_opening client limiter agent engine capacity maxSessions).play h
  have hserved {c : Connection} (hc : c ∈ ((opening client limiter agent engine capacity
      maxSessions).play moves).connections) : c.isServed = true ↔ c.activity ≠ .ended := by
    have hcrash := hsafe.connections c hc
    unfold Connection.isServed
    cases hactivity : c.activity <;> simp_all
  refine ⟨fun e he => ?_, fun c hc hno => ?_⟩
  · obtain ⟨c, hc, hsession, hactive⟩ := howned.owned e he
    exact ⟨c, hc, hsession, (hserved hc).mpr hactive⟩
  · have hended : c.activity = .ended := by
      by_contra hactive
      simp [(hserved hc).mpr hactive] at hno
    have hgone := howned.released hc hended
    simpa [Session.Registry.contains, Session.Registry.find?] using hgone

def lineOf (text : String) : List UInt8 := Text.Utf8.encode (text ++ "\n").toList

/-- A server with a limit of half a minute for all prompts, and an agent that answers at once. -/
def small : Desk :=
  opening { policy := .fixed (.ofSeconds 30) } { defaultCapacity := 1 } (.scripted [])
    (.ofTimeout (.ofSeconds 30)) 8 2

/-- Two peers, of whom one asks for a prompt and the other runs one and leaves. -/
def smallTalk : List Move :=
  [.connect "asker", .connect "runner",
    .send "asker" (lineOf "[\"ask\",\"What?\",null,9000000000,null]") false, .read "asker",
    .send "runner" (lineOf "[\"run\",\"Go\",null,null,4096]") true, .read "runner",
    .exchange, .elapse (.ofSeconds 1), .exchange, .read "runner"]

theorem smallTalk_sessions_served :
    small.InRange smallTalk ∧ (small.play smallTalk).SessionsServed ∧
      (small.play smallTalk).registry.count = 1 := by
  have hrange : small.InRange smallTalk := by decide +kernel
  exact ⟨hrange, play_sessions_served _ _ _ _ _ _ hrange, by decide +kernel⟩

/-- A peer that asks for the longest time limit there is. -/
def longestAsk : List Move :=
  [.connect "asker",
    .send "asker" (lineOf ("\x7b\"command\":\"ask\",\"prompt\":\"x\"," ++
      "\"timeout_seconds\":18446744073709551615\x7d")) false,
    .read "asker"]

/-- Its connection crashes, since the deadline for the reply cannot be computed, and the session
stays registered though nobody serves the connection any more. -/
theorem unshowable_deadline_keeps_session :
    ∃ c ∈ (small.play longestAsk).connections, c.isServed = false ∧
      (small.play longestAsk).registry.contains c.session = true := by
  decide +kernel

end Desk

end AgentGateway.Server
