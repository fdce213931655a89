import AgentGateway.Proofs.Server.Standstill

/-!
# A connection answers its lines in order

A peer may send many lines before it reads a reply. What its connection writes are the blocks that
answer the lines, one after the other (`Desk.Pipelined`), whatever other peers do meanwhile and
however the agent and the bus go about it. Once nothing can happen any more (`Desk.Quiescent`), no
line has been left out.
-/

namespace AgentGateway

theorem Framer.segments_append_newline (bytes : List UInt8) :
    segments (bytes ++ [newline]) = bytes.splitOn newline := by
  have hsplit : (bytes ++ [newline]).splitOn newline = bytes.splitOn newline ++ [[]] :=
    List.splitOn_append_cons_self bytes []
  simp [segments, hsplit]

namespace Server

open Bus (Errand Outsider)

variable {s : Client.Settings} {agent : Execution.Agent} {sizes : String → Nat}
  {out : Option Outsider} {c : Connection} {sent : List UInt8} {received : List Reply}
  {answered : List (List UInt8)} {blocks : List (List Reply)} {current : Option (List UInt8)}
  {begun : List Reply}

namespace Accounts

theorem linesOf_finished {want : Errand}
    (h : Accounts s agent out want c sent received answered blocks current begun)
    (hfinished : c.finished = true) :
    linesOf c.finished sent = answered ++ current.toList ++ Framer.segments c.incoming := by
  have hsegments := h.lines [] fun _ => rfl
  rw [List.append_nil, List.append_nil] at hsegments
  rw [linesOf, if_pos hfinished, hsegments]

/-- The lines of a peer that may send more: what comes after its last newline is no line yet. -/
theorem linesOf_open {want : Errand}
    (h : Accounts s agent out want c sent received answered blocks current begun)
    (hopen : c.finished = false) :
    linesOf c.finished sent =
      (answered ++ current.toList ++ c.incoming.splitOn Framer.newline).dropLast := by
  have hsegments := h.lines [Framer.newline] (by simp [hopen])
  rw [Framer.segments_append_newline, Framer.segments_append_newline] at hsegments
  rw [linesOf, if_neg (by simp [hopen]), hsegments]

theorem mem_linesOf {want : Errand} {line : List UInt8}
    (h : Accounts s agent out want c sent received answered blocks (some line) begun) :
    line ∈ linesOf c.finished sent := by
  cases hfinished : c.finished with
  | true =>
      rw [← hfinished, h.linesOf_finished hfinished]
      simp
  | false =>
      rw [← hfinished, h.linesOf_open hfinished,
        List.dropLast_append_of_ne_nil (List.splitOn_ne_nil _ _)]
      simp

end Accounts

namespace Desk

/-- A peer that connects is not turned away. -/
def Accepts (d : Desk) (name : String) : Prop :=
  d.connection? name = none ∧ d.stopped = false ∧
    (d.registry.register d.now (.generated d.issued name) ()).isOk

instance (d : Desk) (name : String) : Decidable (d.Accepts name) :=
  inferInstanceAs (Decidable (_ ∧ _ ∧ _))

theorem AskersTracked.over_of_quiescent {d : Desk} {want : String → Errand}
    (h : d.AskersTracked s agent sizes out want []) (hquiescent : d.Quiescent) :
    d.askers = [] ∧ ∀ x ∈ out, Client.Story d.client x.opening x.told := by
  obtain ⟨asking, ⟨t, hmatch, j, hserves⟩, hperm⟩ := h.office
  obtain ⟨hidle, hnoted, htold⟩ := hquiescent.allTold
  obtain ⟨hjobs, hstories⟩ := hserves.over_of_idle hquiescent.due?_eq_none htold
  have hclaims := hmatch.claims
  rw [hmatch.claimants_eq hidle.rest hjobs hidle.heard, hnoted] at hclaims
  have hnobody : asking = [] := hclaims.symm.eq_nil
  subst hnobody
  exact ⟨hperm.eq_nil, hstories⟩

namespace HasAccount

variable {name : String} {d : Desk}

theorem connect (hsafe : d.CrashFree) {want : String → Errand}
    (htracked : d.AskersTracked s agent sizes none want []) (haccepts : d.Accepts name) :
    (d.connect name).HasAccount s agent sizes name [] [] := by
  obtain ⟨hfree, hopen, hroom⟩ := haccepts
  have hconnected := hsafe.connect name
  have hnext := htracked.connect hfree
  have hnew : ∀ x ∈ d.connections, x.name ≠ name := by simpa [connection?] using hfree
  have hsame : d.connections.filter (·.name != name) = d.connections :=
    List.filter_eq_self.mpr fun x hx => by simpa using hnew x hx
  refine ⟨hconnected, none, want, { name, session := .generated d.issued name }, [], [], none, [],
    rfl, ?_, hnext, ⟨fun _ _ => rfl, rfl, .nil, .reading rfl rfl⟩⟩
  unfold Desk.connect
  dsimp only
  rw [hsame]
  cases hregister : d.registry.register d.now (.generated d.issued name) () with
  | error cause =>
      rw [hregister] at hroom
      cases hroom
  | ok registry =>
      have hnone : d.connections.find? (·.name == name) = none := hfree
      refine ⟨?_, fun _ => ?_, fun t hrunning => ?_, hopen, rfl⟩
      · rw [connection?, List.find?_append, hnone]
        simp
      · unfold Session.Registry.register at hregister
        split at hregister
        next => cases hregister
        next =>
          obtain rfl := Except.ok.inj hregister
          exact Session.Registry.contains_iff.mpr
            ⟨_, List.mem_append_right _ (List.mem_singleton_self _), rfl⟩
      · cases hrunning

/-- When nothing can happen any more, the connection is not about a line, and there is no line that
it has not taken. -/
theorem complete (h : d.HasAccount s agent sizes name sent received) (hquiescent : d.Quiescent) :
    ∃ c ∈ d.connection? name,
      (∀ line ∈ linesOf c.finished sent, (textOf? line).isSome) →
        ∃ blocks, received ++ c.outgoing = blocks.flatten ∧
          List.Forall₂ (Answers s agent) (linesOf c.finished sent) blocks := by
  obtain ⟨out, want, c, answered, blocks, current, begun, rfl, hintact, htracked, haccounts⟩ :=
    h.account
  obtain ⟨hnobody, hstories⟩ := htracked.over_of_quiescent hquiescent
  have hreplies := haccounts.replies
  refine ⟨c, hintact.here, fun htext => ?_⟩
  cases haccounts.lineProgress with
  | running _ _ hout =>
      -- A call that is over has told how it ended.
      subst hout
      obtain ⟨how, hended⟩ := (hstories _ rfl).ends
      simp at hended
  | asking hactivity =>
      have hasks : c.name ∈ d.askers := mem_askers.mpr ⟨c, hintact.mem, rfl, hactivity⟩
      rw [hnobody] at hasks
      cases hasks
  | reading hactivity =>
      have hidle := hquiescent.readLine?_eq_none hintact.here
      unfold Desk.readLine? at hidle
      have hopen : ¬ d.stopped = true := by simp [hintact.admits]
      rw [if_neg (by simp [hactivity]), if_pos hactivity, if_neg hopen] at hidle
      -- Had another line come, the connection would read it.
      obtain ⟨heq, hfinished, hclean⟩ | ⟨heq, -, -⟩ | ⟨line, rest, heq, -, -⟩ := c.nextLine_cases
      · refine ⟨blocks, by simpa using hreplies, ?_⟩
        rw [haccounts.linesOf_open hfinished, List.splitOn_eq_singleton hclean]
        simpa using haccounts.answers
      · rw [heq] at hidle
        cases hidle
      · rw [heq] at hidle
        cases htext : textOf? line with
        | none =>
            rw [htext] at hidle
            cases hidle
        | some text =>
            rw [htext] at hidle
            cases text <;> cases hidle
  | ended _ _ hfinished hincoming =>
      refine ⟨blocks, by simpa using hreplies, ?_⟩
      rw [haccounts.linesOf_finished hfinished, hincoming]
      simpa [Framer.segments_nil] using haccounts.answers
  | @halted line _ _ hline =>
      have hsome := htext line haccounts.mem_linesOf
      rw [hline] at hsome
      cases hsome

end HasAccount

theorem AskersTracked.play {d : Desk} {want : String → Errand}
    (h : d.AskersTracked s agent sizes none want [])
    (hsizes : ∀ key, sizes key ≤ Admission.Limiter.maxCapacity) {moves : List Move}
    (hrange : d.InRange moves) :
    ∃ want', (d.play moves).AskersTracked s agent sizes none want' [] := by
  induction moves generalizing d want with
  | nil => exact ⟨want, h⟩
  | cons m moves ih =>
      by_cases hm : m = .exchange
      · subst hm
        exact ih h.exchange hrange.2
      · obtain ⟨want', -, hnext⟩ := h.move hsizes hrange.1 hm
        exact ih hnext hrange.2

end Desk

/-- What a server is made from. Some keys are `named` with a number of slots of their own. -/
structure Setup where
  client : Client.Settings
  agent : Execution.Agent
  defaultCapacity : Nat
  named : List (String × Nat) := []
  timeout : Duration
  sweeper : Option Ticker := none
  capacity : Nat
  maxSessions : Nat

namespace Setup

def limiter (x : Setup) : Admission.Limiter :=
  { defaultCapacity := x.defaultCapacity, named := x.named }

/-- The server before anybody has connected. -/
def opening (x : Setup) : Desk :=
  .opening x.client x.limiter x.agent { engine := .fresh x.timeout, sweeper := x.sweeper }
    x.capacity x.maxSessions

/-- A peer sends three lines, one of them blank, and takes the replies to the first one before it
sends two more, of which the last one is no command and lacks its newline. -/
def late : List Move :=
  [.send "peer" (Desk.lineOf "[\"run\",\"Go\",null,null,4096]" ++ Desk.lineOf " " ++
      Desk.lineOf "[\"ping\",null,null,null,null]") false,
    .read "peer", .exchange, .take "peer" 1,
    .send "peer" (Desk.lineOf "[\"ask\",\"Why?\",null,null,null]" ++
      Text.Utf8.encode "oops".toList) true,
    .read "peer", .read "peer", .read "asker", .read "peer", .exchange, .read "peer", .read "peer"]

end Setup

end Server

end AgentGateway
