import AgentGateway.Proofs.Bus.Answers
import AgentGateway.Proofs.Server.Health

/-!
# The bus and the connections that ask on it

At any time the callers with claims at the bus are the connections that wait for a reply
(`Desk.AskersTracked`): a connection that asks makes a claim under its name, and each note that
the bus has for a connection lets it go on reading. So a connection that asks hears exactly one
result, which is one that its prompt has earned, or that there was no reply.
-/

namespace AgentGateway.Server

open Bus (Errand Outsider answering answering_faithful)
open Client (saidBy)
open Correlation (Id)

namespace Desk

/-- The names of the connections that wait for a reply of the bus. -/
def askers (d : Desk) : List String :=
  (d.connections.filter (·.activity == .asking)).map (·.name)

def Serving (s : Client.Settings) (agent : Execution.Agent) (sizes : String → Nat)
    (out : Option Outsider) (jobs : List (Bus.Job Errand)) (c : Bus.Calls) : Prop :=
  ∃ j, c.ServesRequests s agent sizes out jobs j

/-- The connections that ask have claims at the bus, or there are notes for them that they have
not heard yet. -/
structure AskersTracked (s : Client.Settings) (agent : Execution.Agent) (sizes : String → Nat)
    (out : Option Outsider) (want : String → Errand) (pending : List (Note (Bus.News Response)))
    (d : Desk) : Prop where
  sessionsOwned : d.SessionsOwned
  office : ∃ asking, d.office.ClaimsTracked (Serving s agent sizes out) (Errand.Fits s sizes)
    (Errand.Earned s agent) want asking ∧ d.askers.Perm (pending.map (·.who) ++ asking)
  suits : ∀ n ∈ pending, n.what.Suits (Errand.Earned s agent) (want n.who)

variable {s : Client.Settings} {agent : Execution.Agent} {sizes : String → Nat}
  {out : Option Outsider} {want : String → Errand} {pending : List (Note (Bus.News Response))}
  {d d' : Desk} {b c : Connection}

theorem mem_askers {name : String} :
    name ∈ d.askers ↔ ∃ c ∈ d.connections, c.name = name ∧ c.activity = .asking := by
  simp only [askers, List.mem_map, List.mem_filter, beq_iff_eq]
  constructor
  · rintro ⟨c, ⟨hc, hasking⟩, rfl⟩
    exact ⟨c, hc, rfl, hasking⟩
  · rintro ⟨c, hc, rfl, hasking⟩
    exact ⟨c, ⟨hc, hasking⟩, rfl⟩

theorem askers_update (h : d.SessionsOwned) (hb : b ∈ d.connections) (hname : c.name = b.name) :
    ∃ rest, d.askers.Perm ((if b.activity = .asking then [b.name] else []) ++ rest) ∧
      (d.update c).askers.Perm ((if c.activity = .asking then [c.name] else []) ++ rest) := by
  have hmade (x : Connection) (hx : x.name = b.name) : (d.update x).askers.Perm
      ((if x.activity = .asking then [x.name] else []) ++
        ((d.connections.filter (·.name != b.name)).filter (·.activity == .asking)).map
          (·.name)) := by
    have hperm := perm_replace Connection.name h.names ⟨b, hb, hx.symm⟩
    have haskers := (hperm.filter (·.activity == .asking)).map (·.name)
    refine List.Perm.trans haskers ?_
    rw [hx, List.filter_cons]
    by_cases hasking : x.activity = .asking <;> simp [hasking, hx]
  have hsame : d.update b = d := by
    have hconnections : (d.update b).connections = d.connections :=
      map_replace_self Connection.name h.names hb
    show { d with connections := (d.update b).connections } = d
    rw [hconnections]
  have hb' := hmade b rfl
  rw [hsame] at hb'
  exact ⟨_, hb', hmade c hname⟩

theorem run_eq (d : Desk) (c : Connection) (key : String) (prompt : Prompt) :
    d.run c key prompt =
      (d.setClient ({ d.client with now := d.now }.start key prompt true).1).update
        { c with activity := .running d.client.issued } := by
  have hticket := Client.Desk.start_ticket { d.client with now := d.now } key prompt true
  unfold Desk.run
  dsimp only
  rw [hticket]

namespace AskersTracked

theorem frame (h : d.AskersTracked s agent sizes out want pending) (howned : d'.SessionsOwned)
    (hoffice : d'.office = d.office) (haskers : d'.askers.Perm d.askers) :
    d'.AskersTracked s agent sizes out want pending where
  sessionsOwned := howned
  office := by
    obtain ⟨asking, hclaims, hperm⟩ := h.office
    rw [hoffice]
    exact ⟨asking, hclaims, haskers.trans hperm⟩
  suits := h.suits

theorem disregard (h : d.AskersTracked s agent sizes out want pending) :
    d.AskersTracked s agent sizes none want pending where
  sessionsOwned := h.sessionsOwned
  office := by
    obtain ⟨asking, hclaims, hperm⟩ := h.office
    refine ⟨asking, hclaims.handle (s := d.office.handler) ?_, hperm⟩
    rintro jobs ⟨j, hserves⟩
    exact ⟨j, hserves.regard nofun⟩
  suits := h.suits

theorem serve (h : d.AskersTracked s agent sizes out want pending) (howned : d'.SessionsOwned)
    (haskers : d'.askers = d.askers) {out' : Option Outsider}
    (hoffice : ∀ asking, d.office.ClaimsTracked (Serving s agent sizes out) (Errand.Fits s sizes)
        (Errand.Earned s agent) want asking →
      d'.office.ClaimsTracked (Serving s agent sizes out') (Errand.Fits s sizes)
        (Errand.Earned s agent)
        want asking) : d'.AskersTracked s agent sizes out' want pending where
  sessionsOwned := howned
  office := by
    obtain ⟨asking, hclaims, hperm⟩ := h.office
    rw [haskers]
    exact ⟨asking, hoffice asking hclaims, hperm⟩
  suits := h.suits

/-- A connection goes on that neither was waiting for a reply nor is. -/
theorem update (h : d.AskersTracked s agent sizes out want pending) (hb : b ∈ d.connections)
    (hc : b.SameSession c) (hasking : c.activity = .asking ↔ b.activity = .asking)
    (howned : (d.update c).SessionsOwned) :
    (d.update c).AskersTracked s agent sizes out want pending := by
  refine h.frame howned rfl ?_
  obtain ⟨rest, hbefore, hafter⟩ := askers_update h.sessionsOwned hb hc.name
  rw [hc.name] at hafter
  simp only [hasking] at hafter
  exact hafter.trans hbefore.symm

theorem leave (h : d.AskersTracked s agent sizes out want pending) (hb : b ∈ d.connections)
    (hc : b.SameSession c) (hidle : b.activity ≠ .asking) :
    (d.leave c).AskersTracked s agent sizes out want pending := by
  have howned := h.sessionsOwned.leave hb hc
  have hgone : ({ d with registry := d.registry.unregister c.session } : Desk).AskersTracked s agent
      sizes out want pending :=
    h.frame (h.sessionsOwned.frame rfl fun e he => ⟨e, List.mem_of_mem_filter he, rfl⟩) rfl
      (.refl _)
  exact hgone.update (c := { c with activity := .ended }) hb ⟨hc.name, hc.session⟩
    (by simp [hidle]) howned

theorem touched (h : d.AskersTracked s agent sizes out want pending) (c : Connection) :
    (d.touched c).AskersTracked s agent sizes out want pending :=
  h.frame (h.sessionsOwned.touched c) rfl (.refl _)

/-- A connection that was about no command still is about none. -/
theorem reply (h : d.AskersTracked s agent sizes out want pending) (hb : b ∈ d.connections)
    (hc : b.SameSession c) (hbefore : b.Idle) (hafter : c.Idle) :
    (d.update c).AskersTracked s agent sizes out want pending := by
  have hasking : c.activity = .asking ↔ b.activity = .asking :=
    iff_of_false hafter.ne_asking hbefore.ne_asking
  refine h.update hb hc hasking (h.sessionsOwned.update hb hc fun hend => ?_)
  exact absurd hend hafter.ne_ended

/-- A connection that was about no command runs a prompt. Its call is looked at from now on, or
the one that was looked at before. -/
theorem run (h : d.AskersTracked s agent sizes out want pending) (hb : b ∈ d.connections)
    (hc : b.SameSession c) (hidle : b.Idle) (key : String) (prompt : Prompt) :
    (d.run c key prompt).AskersTracked s agent sizes out want pending ∧
      (d.run c key prompt).AskersTracked s agent sizes
        (some ⟨d.client.issued, ⟨key, prompt, true⟩, []⟩) want pending := by
  have howned := h.sessionsOwned.run hb hc key prompt
  have hstarted {out' : Option Outsider}
      (hout : ∀ jobs, Serving s agent sizes out jobs d.office.handler →
        Serving s agent sizes out' jobs { d.office.handler with
          desk := ({ d.client with now := d.now }.start key prompt true).1 }) :
      (d.run c key prompt).AskersTracked s agent sizes out' want pending := by
    have hclient :
      (d.setClient ({ d.client with now := d.now }.start key prompt true).1).AskersTracked
        s agent sizes out' want pending := by
      apply h.serve
      · exact h.sessionsOwned.same rfl rfl
      · rfl
      · exact fun asking hclaims => hclaims.handle hout
    rw [run_eq] at howned ⊢
    exact hclient.update hb ⟨hc.name, hc.session⟩
      (iff_of_false nofun hidle.ne_asking) howned
  refine ⟨hstarted ?_, hstarted ?_⟩
  · rintro jobs ⟨j, hserves⟩
    exact ⟨_, (hserves.clock d.now).start key prompt true⟩
  · rintro jobs ⟨j, hserves⟩
    have hclock := hserves.clock d.now
    obtain ⟨-, hsilent, hnone, -⟩ := hclock.silent_next
    refine ⟨_, (hclock.start key prompt true).regard fun x hx => ?_⟩
    obtain rfl := Option.some.inj hx
    exact ⟨hnone, hclock.started_start _, hsilent⟩

theorem ask (h : d.AskersTracked s agent sizes out want []) (hb : b ∈ d.connections)
    (hc : b.SameSession c) (hidle : b.Idle) (key : String) {prompt : Prompt}
    (hroom : sizes key ≤ Admission.Limiter.maxCapacity) (hshowable : d.DeadlineShowable prompt) :
    (d.ask c key prompt).AskersTracked s agent sizes out
      (Function.update want c.name ⟨key, prompt⟩) [] := by
  have howned := h.sessionsOwned.ask hb hc key prompt
  obtain ⟨deadline, hdeadline, hshow⟩ := hshowable
  -- What was wanted under this name before may be forgotten: nobody waits for it.
  have hnobody : c.name ∉ d.askers := by
    intro hmem
    obtain ⟨x, hx, hname, hasking⟩ := mem_askers.mp hmem
    obtain rfl := h.sessionsOwned.eq_of_name hx hb (hname.trans hc.name)
    exact hidle.ne_asking hasking
  obtain ⟨asking, hclaims, hperm⟩ := h.office
  have hlimit : (s.limit? prompt).isSome = true := by
    obtain ⟨t, -, j, hserves⟩ := hclaims
    rw [← hserves.settings_eq]
    obtain ⟨limit, hlimit, -⟩ := Option.bind_eq_some_iff.mp hdeadline
    exact Option.isSome_of_eq_some hlimit
  have hidle' : c.name ∉ asking := fun hmem => hnobody (hperm.mem_iff.mpr hmem)
  have hfits : Errand.Fits s sizes ⟨key, prompt⟩ := ⟨hlimit, hroom⟩
  have hsubmitted := hclaims.submit (answering_faithful s agent sizes out) hidle' hfits hshow
  obtain ⟨rest, hbefore, hafter⟩ :=
    askers_update (c := { c with activity := .asking }) h.sessionsOwned hb
    hc.name
  unfold Desk.ask at howned ⊢
  rw [hdeadline] at howned ⊢
  refine ⟨howned, ⟨c.name :: asking, hsubmitted, ?_⟩, nofun⟩
  refine List.Perm.trans hafter ?_
  rw [if_pos rfl]
  refine List.Perm.cons c.name ?_
  rw [if_neg hidle.ne_asking] at hbefore
  exact hbefore.symm.trans hperm

/-! ## Passing on what is told -/

/-- What a call tells is nothing to connections that ask. -/
theorem relay (h : d.AskersTracked s agent sizes out want pending) (t : Nat) (m : Client.Message) :
    (d.relay t m).AskersTracked s agent sizes out want pending := by
  have howned := h.sessionsOwned.told (relay_cases d t m)
  unfold Desk.relay at howned ⊢
  cases hfind : d.connections.find? (·.activity == .running t) with
  | none => exact h
  | some c =>
      rw [hfind] at howned
      have hc : c ∈ d.connections := List.mem_of_find?_eq_some hfind
      have hrunning : c.activity = .running t := by simpa using List.find?_some hfind
      cases m with
      | event e => exact h.update hc ⟨rfl, rfl⟩ .rfl howned
      | ended how =>
          cases how with
          | answered | failed =>
              have hidle := c.idle_conclude
              exact h.update hc ⟨rfl, rfl⟩
                (iff_of_false (hidle _).ne_asking (by simp [hrunning])) howned
          | crashed => exact h.update hc ⟨rfl, rfl⟩ (by simp [hrunning]) howned

theorem relays (h : d.AskersTracked s agent sizes out want pending)
    (messages : List (Admission.Ticket × Duration × Client.Message)) :
    (messages.foldl (fun d (t, _, m) => d.relay t m) d).AskersTracked s agent sizes out want
      pending :=
  List.foldlRecOn messages _ h fun _ hd m _ => hd.relay m.1 m.2.2

theorem hear_eq {n : Note (Bus.News Response)}
    (h : d.AskersTracked s agent sizes out want (n :: pending)) :
    ∃ c ∈ d.connections, c.name = n.who ∧ c.activity = .asking ∧
      ∃ o, Bus.Settles (Errand.Earned s agent) (want c.name) o ∧
        d.hear n = d.update (c.conclude (.ofResult o)) := by
  obtain ⟨asking, -, hperm⟩ := h.office
  have hmem : n.who ∈ d.askers := hperm.mem_iff.mpr List.mem_cons_self
  obtain ⟨c, hc, hname, hasking⟩ := mem_askers.mp hmem
  have hfind : d.connections.find? (fun x => x.name == n.who && x.activity == .asking) =
      some c := by
    cases hfound : d.connections.find? (fun x => x.name == n.who && x.activity == .asking) with
    | none =>
        have hnot := List.find?_eq_none.mp hfound c hc
        simp [hname, hasking] at hnot
    | some x =>
        have hx := List.find?_some hfound
        simp only [Bool.and_eq_true, beq_iff_eq] at hx
        rw [h.sessionsOwned.eq_of_name (List.mem_of_find?_eq_some hfound) hc
          (hx.1.trans hname.symm)]
  have hsuits := h.suits n List.mem_cons_self
  refine ⟨c, hc, hname, hasking, ?_⟩
  rw [hname]
  unfold Desk.hear
  rw [hfind]
  cases hwhat : n.what with
  | outcome o =>
      rw [hwhat] at hsuits
      exact ⟨o, hsuits, rfl⟩
  | refused cause =>
      rw [hwhat] at hsuits
      exact ⟨.error cause, .inr ⟨cause, rfl, hsuits⟩, rfl⟩
  | crashed =>
      rw [hwhat] at hsuits
      exact absurd hsuits id

theorem hear {n : Note (Bus.News Response)}
    (h : d.AskersTracked s agent sizes out want (n :: pending)) :
    (d.hear n).AskersTracked s agent sizes out want pending := by
  have howned := h.sessionsOwned.told (hear_cases d n)
  obtain ⟨c, hc, hname, hasking, o, -, heq⟩ := h.hear_eq
  obtain ⟨rest, hbefore, hafter⟩ :=
    askers_update (c := c.conclude (.ofResult o)) h.sessionsOwned hc rfl
  obtain ⟨asking, hclaims, hperm⟩ := h.office
  rw [heq] at howned ⊢
  refine ⟨howned, ⟨asking, hclaims, ?_⟩, fun m hm => h.suits m (List.mem_cons_of_mem _ hm)⟩
  refine hafter.trans ?_
  rw [if_neg (c.idle_conclude _).ne_asking]
  rw [if_pos hasking, hname] at hbefore
  exact (hbefore.symm.trans hperm).cons_inv

/-- The agent and the bus act. Of a call that is looked at it is known what it has told. -/
theorem acted (h : d.AskersTracked s agent sizes out want []) :
    d.acted.AskersTracked s agent sizes
      (out.map fun x => { x with
        told := x.told ++ saidBy x.ticket (d.office.act answering).handler.desk.messages })
      want (d.office.act answering).collect.2 := by
  obtain ⟨asking, hclaims, hperm⟩ := h.office
  have hfaithful := answering_faithful s agent sizes out
  have hsilent := Bus.lookup_eq_none_of_ran (hclaims.act_ran hfaithful)
  have hacted := hclaims.act hfaithful
  obtain ⟨rest, hshare, hcollected⟩ := hacted.collect
  have hnotes : ((d.office.act answering).collect.2.map (·.who)).Perm
      ((d.office.act answering).notes.map (·.who)) :=
    (List.mergeSort_perm _ _).map _
  refine ⟨h.sessionsOwned.same rfl rfl, ⟨rest, ?_, ?_⟩, fun n hn => ?_⟩
  · refine hcollected.handle ?_
    rintro jobs ⟨j, hserves⟩
    exact ⟨_, hserves.collect hsilent⟩
  · exact hperm.trans (hshare.trans (hnotes.symm.append_right rest))
  · obtain ⟨t, ht, -⟩ := hacted
    exact ht.notes n (List.mem_mergeSort.mp hn)

/-- What a call has told by the time the agent and the bus have acted. -/
theorem told_of_acted (h : d.AskersTracked s agent sizes out want []) {x : Outsider}
    (hx : x ∈ out) :
    (∃ events : List Event,
      x.told ++ saidBy x.ticket (d.office.act answering).handler.desk.messages =
        events.map .event) ∨
    ∃ desk : Client.Desk, desk.settings = s ∧ desk.agent = agent ∧
      Client.Story desk x.opening
        (x.told ++ saidBy x.ticket (d.office.act answering).handler.desk.messages) := by
  obtain ⟨asking, hclaims, -⟩ := h.office
  obtain ⟨t, -, j, hserves⟩ := hclaims.act (answering_faithful s agent sizes out)
  have htold : j.told (d.office.act answering).handler.desk x.ticket =
      x.told ++ saidBy x.ticket (d.office.act answering).handler.desk.messages := by
    rw [Client.Journal.told_eq, (hserves.outsider x hx).2.2]
  rw [← htold]
  obtain ⟨-, hevents⟩ | hstory := hserves.told_of_outsider hx
  · exact .inl hevents
  · exact .inr ⟨_, hserves.settings_eq, hserves.agent_eq, hstory⟩

theorem hears (h : d.AskersTracked s agent sizes out want pending) :
    (pending.foldl Desk.hear d).AskersTracked s agent sizes out want [] := by
  induction pending generalizing d with
  | nil => exact h
  | cons n pending ih => exact ih h.hear

theorem exchange (h : d.AskersTracked s agent sizes out want []) :
    d.exchange.AskersTracked s agent sizes
      (out.map fun x => { x with
        told := x.told ++ saidBy x.ticket (d.office.act answering).handler.desk.messages })
      want [] := by
  rw [exchange_eq]
  exact (h.acted.relays _).hears

/-! ## All other moves -/

theorem connect (h : d.AskersTracked s agent sizes out want pending) {name : String}
    (hfree : d.connection? name = none) :
    (d.connect name).AskersTracked s agent sizes out want pending := by
  have howned := h.sessionsOwned.connect hfree
  have hnew : ∀ c ∈ d.connections, c.name ≠ name := by simpa [connection?] using hfree
  have hsame : d.connections.filter (·.name != name) = d.connections :=
    List.filter_eq_self.mpr fun c hc => by simpa using hnew c hc
  refine h.frame howned ?_ (List.Perm.of_eq ?_)
  · unfold Desk.connect
    dsimp only
    split <;> rfl
  · unfold Desk.connect
    dsimp only
    rw [hsame]
    split <;> simp [askers]

theorem read (h : d.AskersTracked s agent sizes out want [])
    (hsizes : ∀ key, sizes key ≤ Admission.Limiter.maxCapacity) (hb : b ∈ d.connections)
    (hinRange : ∀ command ∈ b.command?, d.CommandInRange command) (hidle : b.Idle)
    (hd : LineRead d b d') :
    ∃ want', (∀ name, name ≠ b.name → want' name = want name) ∧
      d'.AskersTracked s agent sizes out want' [] := by
  cases hd with
  | left c hc => exact ⟨want, fun _ _ => rfl, h.leave hb hc hidle.ne_asking⟩
  | skipped c hc hafter => exact ⟨want, fun _ _ => rfl, h.reply hb hc hidle hafter⟩
  | refused c hc hafter =>
      exact ⟨want, fun _ _ => rfl, (h.touched b).reply hb hc hidle hafter⟩
  | obeyed command hcommand _ hd =>
      have htouched := h.touched b
      cases hd with
      | reply c hc hafter => exact ⟨want, fun _ _ => rfl, htouched.reply hb hc hidle hafter⟩
      | run c hc key prompt => exact ⟨want, fun _ _ => rfl, (htouched.run hb hc hidle key prompt).1⟩
      | ask c hc key prompt hverb herrand =>
          have hshowable : (d.touched b).DeadlineShowable prompt :=
            (hinRange command hcommand _ herrand).2 hverb
          refine ⟨_, fun name hname => ?_, htouched.ask hb hc hidle key (hsizes key) hshowable⟩
          rw [hc.name]
          exact Function.update_of_ne hname ..

/-- A connection changes in something that does not matter here. -/
theorem amend (h : d.AskersTracked s agent sizes out want pending) (hb : b ∈ d.connections)
    (hc : b.SameSession c) (hactivity : c.activity = b.activity) :
    (d.update c).AskersTracked s agent sizes out want pending := by
  refine h.update hb hc (by rw [hactivity]) (h.sessionsOwned.update hb hc fun hend e he => ?_)
  rw [hc.session]
  exact h.sessionsOwned.released hb (hactivity.symm.trans hend) e he

theorem forget (h : d.AskersTracked s agent sizes out want pending) {name : String}
    (howned :
    ({ d with connections := d.connections.filter (·.name != name) } : Desk).SessionsOwned)
    (hb : b ∈ d.connections) (hname : b.name = name) (hidle : b.activity ≠ .asking) :
    ({ d with connections := d.connections.filter (·.name != name) } : Desk).AskersTracked s agent
    sizes
      out want pending := by
  refine h.frame howned rfl (List.Perm.of_eq ?_)
  show (List.filter _ (d.connections.filter _)).map _ = _
  rw [List.filter_filter]
  refine congrArg _ (List.filter_congr fun x hx => ?_)
  by_cases heq : x.name = name
  · obtain rfl := h.sessionsOwned.eq_of_name hx hb (heq.trans hname.symm)
    simp [hidle]
  · simp [heq]

theorem on (h : d.AskersTracked s agent sizes out want []) {name : String} {f : Connection → Desk}
    {wanted : (String → Errand) → Prop} (hwant : wanted want)
    (hf : ∀ c ∈ d.connection? name, c ∈ d.connections → c.name = name →
      ∃ want', wanted want' ∧ (f c).AskersTracked s agent sizes out want' []) :
    ∃ want', wanted want' ∧ (d.on name f).AskersTracked s agent sizes out want' [] := by
  unfold Desk.on
  cases hfind : d.connection? name with
  | none => exact ⟨want, hwant, h⟩
  | some c => exact hf c hfind (connection?_mem hfind).1 (connection?_mem hfind).2

/-- A move concerns what a connection has asked for only if the connection reads a line. -/
theorem move (h : d.AskersTracked s agent sizes out want [])
    (hsizes : ∀ key, sizes key ≤ Admission.Limiter.maxCapacity) {m : Move}
    (hinRange : d.MoveInRange m) (hm : m ≠ .exchange) :
    ∃ want', (∀ name, m ≠ .read name → want' name = want name) ∧
      (d.move m).AskersTracked s agent sizes out want' [] := by
  have howned := h.sessionsOwned.move m
  have hfaithful := answering_faithful s agent sizes out
  cases m with
  | exchange => exact absurd rfl hm
  | read name =>
      refine h.on (fun _ _ => rfl) fun c hfind hc hname => ?_
      cases hread : d.readLine? c with
      | none => exact ⟨want, fun _ _ => rfl, h⟩
      | some d' =>
          obtain ⟨hidle, hd⟩ := readLine?_cases hread
          obtain ⟨want', hwant, hnext⟩ := h.read hsizes hc (hinRange c hfind) hidle hd
          exact ⟨want', fun other hother => hwant other fun heq =>
            hother (by rw [heq, hname]), hnext⟩
  | connect name =>
      refine ⟨want, fun _ _ => rfl, ?_⟩
      unfold Desk.move
      dsimp only
      split_ifs with hfree
      · exact h
      · exact h.connect (by simpa using hfree)
  | send name bytes last =>
      exact h.on (fun _ _ => rfl) fun c _ hc _ => ⟨want, fun _ _ => rfl, h.amend hc ⟨rfl, rfl⟩ rfl⟩
  | failWriter name =>
      exact h.on (fun _ _ => rfl) fun c _ hc _ => ⟨want, fun _ _ => rfl, h.amend hc ⟨rfl, rfl⟩ rfl⟩
  | take name count =>
      refine h.on (fun _ _ => rfl) fun c _ hc _ => ⟨want, fun _ _ => rfl, ?_⟩
      split_ifs
      · exact h
      · exact h.amend hc ⟨rfl, rfl⟩ rfl
  | sever name =>
      refine h.on (fun _ _ => rfl) fun c _ hc _ => ⟨want, fun _ _ => rfl, ?_⟩
      split_ifs with hreading
      · exact h.leave hc (.refl c) (by simp [hreading])
      · exact h
  | forget name =>
      refine h.on (fun _ _ => rfl) fun c hfind hc hname => ⟨want, fun _ _ => rfl, ?_⟩
      split_ifs with hended
      · have hforgot : d.move (.forget name) =
            { d with connections := d.connections.filter (·.name != name) } := by
          unfold Desk.move Desk.on
          dsimp only
          rw [hfind, Option.elim_some, if_pos hended]
        rw [hforgot] at howned
        exact h.forget howned hc hname (by simp [hended])
      · exact h
  | elapse span =>
      refine ⟨want, fun _ _ => rfl, h.serve howned rfl fun asking hclaims => ?_⟩
      exact hclaims.happen hfaithful span
  | closeLimiter =>
      refine ⟨want, fun _ _ => rfl, h.serve howned rfl fun asking hclaims => ?_⟩
      refine hclaims.handle ?_
      rintro jobs ⟨j, hserves⟩
      exact ⟨j, hserves.shut⟩
  | shutdownEngine =>
      refine ⟨want, fun _ _ => rfl, h.serve howned rfl fun asking hclaims => ?_⟩
      exact hclaims.shutdownEngine
  | evict name =>
      refine ⟨want, fun _ _ => rfl, h.frame howned ?_ (List.Perm.of_eq ?_)⟩
      · unfold Desk.move Desk.evict
        dsimp only
        split <;> rfl
      · unfold Desk.move Desk.evict
        dsimp only
        split <;> rfl
  | sweep | evictAll | stop => exact ⟨want, fun _ _ => rfl, h.frame howned rfl (.refl _)⟩

end AskersTracked

end Desk

end AgentGateway.Server
