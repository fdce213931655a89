import AgentGateway.Proofs.Server.Watching
import Mathlib.Data.List.TakeWhile

/-!
# How far a connection is

A connection takes the lines that its peer has sent one by one. Of the lines so far there are
those that it has answered, with a block of replies each, one that it may be about now, and those
that it has not taken yet (`Accounts`). Whatever happens, what has been written adds up to the
blocks and the events of the line that the connection is about (`Desk.HasAccount.play`).
-/

namespace AgentGateway.Server

open Bus (Errand Outsider answering)
open Client (saidBy)

/-! ## Taking lines off -/

/-- What comes next is incomplete, or nothing, or a line, with which the segments begin. -/
theorem Connection.nextLine_cases (c : Connection) :
    c.nextLine = (.incomplete, c) ∧ c.finished = false ∧ Framer.newline ∉ c.incoming ∨
    c.nextLine = (.exhausted, c) ∧ c.finished = true ∧ c.incoming = [] ∨
    ∃ line rest,
      c.nextLine = ((textOf? line).elim .notText .text, { c with incoming := rest }) ∧
      rest.length < c.incoming.length ∧ ∀ bytes, (c.finished = true → bytes = []) →
        Framer.segments (c.incoming ++ bytes) = line :: Framer.segments (rest ++ bytes) := by
  obtain ⟨head, hhead⟩ : ∃ head, c.incoming.takeWhile (· != 10) = head := ⟨_, rfl⟩
  have hclean : Framer.newline ∉ head := fun hmem => by
    rw [← hhead] at hmem
    simpa [Framer.newline] using List.mem_takeWhile_imp hmem
  have hsplit : head ++ c.incoming.dropWhile (· != 10) = c.incoming := by
    rw [← hhead]
    exact List.takeWhile_append_dropWhile
  have hdrop : c.incoming.drop head.length = c.incoming.dropWhile (· != 10) :=
    (congrArg (List.drop head.length) hsplit).symm.trans List.drop_left
  unfold nextLine
  dsimp only
  rw [hhead, hdrop]
  cases hrest : c.incoming.dropWhile (· != 10) with
  | cons b rest =>
      have hb : b = Framer.newline := by
        have hnot := List.head?_dropWhile_not (· != (10 : UInt8)) c.incoming
        rw [hrest] at hnot
        simpa [Framer.newline] using hnot
      refine .inr (.inr ⟨head, rest, ?_, ?_, fun bytes _ => ?_⟩)
      · unfold textOf?
        cases Text.Utf8.decode? head <;> rfl
      · rw [← hsplit, hrest, List.length_append, List.length_cons]
        omega
      rw [← hsplit, hrest, hb, List.append_assoc, List.cons_append,
        Framer.segments_newline hclean]
  | nil =>
      rw [hrest, List.append_nil] at hsplit
      subst hsplit
      dsimp only
      by_cases hfinished : c.finished = true
      · rw [if_neg (by simp [hfinished])]
        by_cases hempty : c.incoming = []
        · exact .inr (.inl ⟨by rw [if_pos (by simp [hempty])], hfinished, hempty⟩)
        · rw [if_neg (by simp [hempty])]
          refine .inr (.inr ⟨c.incoming, [], ?_, List.length_pos_iff.mpr hempty,
            fun bytes hbytes => ?_⟩)
          · unfold textOf?
            cases Text.Utf8.decode? c.incoming <;> rfl
          rw [hbytes hfinished, List.append_nil, Framer.segments_tail hclean hempty]
          rfl
      · have hfinished : c.finished = false := by simpa using hfinished
        exact .inl ⟨by rw [if_pos (by simp [hfinished])], hfinished, hclean⟩

theorem Desk.takeLasts_append (count : Nat) (replies : List Reply) :
    (takeLasts count replies).1 ++ (takeLasts count replies).2 = replies := by
  fun_induction takeLasts count replies with
  | case1 | case2 => rfl
  | case3 n r rest taken left heq ih =>
      rw [heq] at ih
      simpa using ih

/-! ## How far a connection is -/

/-- A line commands something to be done for a prompt. -/
structure Commands (line : List UInt8) (verb : String) (errand : Errand) : Prop where
  read : ∃ text command, textOf? line = some text ∧ text ≠ [] ∧
    Command.parse text = .ok command ∧ command.verb = verb ∧
    command.errand? = some (errand.key, errand.prompt)

/-- What a connection is about: the line that it has taken and not answered yet, and the replies to
it that it has written. It ends when all lines have been answered and there will be no more, or
halts at a line that is not text. -/
inductive LineProgress (out : Option Outsider) (want : Errand) (c : Connection) :
    Option (List UInt8) → List Reply → Prop
  | reading (hactivity : c.activity = .reading) (hout : out = none) :
    LineProgress out want c none []
  | running {t : Nat} {line : List UInt8} {errand : Errand} {events : List Event}
      (hactivity : c.activity = .running t) (hline : Commands line "run" errand)
      (hout : out = some ⟨t, ⟨errand.key, errand.prompt, true⟩, events.map .event⟩) :
      LineProgress out want c (some line) (events.map .event)
  | asking {line : List UInt8} (hactivity : c.activity = .asking)
      (hline : Commands line "ask" want) (hout : out = none) :
      LineProgress out want c (some line) []
  | ended (hactivity : c.activity = .ended) (hout : out = none) (hfinished : c.finished = true)
      (hincoming : c.incoming = []) : LineProgress out want c none []
  | halted {line : List UInt8} (hactivity : c.activity = .ended) (hout : out = none)
      (hline : textOf? line = none) : LineProgress out want c (some line) []

/-- The account of a connection whose peer has sent some bytes and received some replies. What has
not been taken yet is still to come, and more bytes may follow it. -/
structure Accounts (s : Client.Settings) (agent : Execution.Agent) (out : Option Outsider)
    (want : Errand) (c : Connection) (sent : List UInt8) (received : List Reply)
    (answered : List (List UInt8)) (blocks : List (List Reply)) (current : Option (List UInt8))
    (begun : List Reply) : Prop where
  lines : ∀ bytes, (c.finished = true → bytes = []) →
    Framer.segments (sent ++ bytes) =
      answered ++ current.toList ++ Framer.segments (c.incoming ++ bytes)
  replies : received ++ c.outgoing = blocks.flatten ++ begun
  answers : List.Forall₂ (Answers s agent) answered blocks
  lineProgress : LineProgress out want c current begun

variable {s : Client.Settings} {agent : Execution.Agent} {sizes : String → Nat}
  {out : Option Outsider} {want : Errand} {c : Connection} {sent : List UInt8}
  {received : List Reply} {answered : List (List UInt8)} {blocks : List (List Reply)}
  {current : Option (List UInt8)} {begun : List Reply} {line : List UInt8}

namespace LineProgress

theorem frame (h : LineProgress out want c current begun) {x : Connection}
    (hactivity : x.activity = c.activity)
    (hdone : c.finished = true → x.finished = true ∧ x.incoming = c.incoming) :
    LineProgress out want x current begun := by
  cases h with
  | reading hreading hout => exact .reading (hactivity.trans hreading) hout
  | running hrunning hline hout => exact .running (hactivity.trans hrunning) hline hout
  | asking hasking hline hout => exact .asking (hactivity.trans hasking) hline hout
  | ended hended hout hfinished hincoming =>
      obtain ⟨hfinished', hincoming'⟩ := hdone hfinished
      exact .ended (hactivity.trans hended) hout hfinished' (hincoming'.trans hincoming)
  | halted hended hout hline => exact .halted (hactivity.trans hended) hout hline

/-- As long as its writer works, a connection does not leave before its peer has sent all. -/
theorem ne_leaving (h : LineProgress out want c current begun) : c.activity ≠ .leaving := by
  cases h with
  | reading hactivity | running hactivity | asking hactivity | ended hactivity
  | halted hactivity => simp [hactivity]

theorem of_reading (h : LineProgress out want c current begun) (hreading : c.activity = .reading) :
    current = none ∧ begun = [] ∧ out = none := by
  cases h with
  | reading _ hout => exact ⟨rfl, rfl, hout⟩
  | running hactivity | asking hactivity | ended hactivity | halted hactivity =>
      rw [hreading] at hactivity
      cases hactivity

theorem of_running (h : LineProgress out want c current begun) {t : Nat}
    (hrunning : c.activity = .running t) :
    ∃ line errand events, current = some line ∧ begun = List.map Reply.event events ∧
      Commands line "run" errand ∧
      out = some ⟨t, ⟨errand.key, errand.prompt, true⟩, events.map .event⟩ := by
  cases h with
  | running hactivity hline hout =>
      obtain rfl := Activity.running.inj (hactivity.symm.trans hrunning)
      exact ⟨_, _, _, rfl, rfl, hline, hout⟩
  | reading hactivity | asking hactivity | ended hactivity | halted hactivity =>
      rw [hrunning] at hactivity
      cases hactivity

theorem of_asking (h : LineProgress out want c current begun) (hasking : c.activity = .asking) :
    ∃ line, current = some line ∧ begun = [] ∧ Commands line "ask" want ∧ out = none := by
  cases h with
  | asking _ hline hout => exact ⟨_, rfl, rfl, hline, hout⟩
  | reading hactivity | running hactivity | ended hactivity | halted hactivity =>
      rw [hasking] at hactivity
      cases hactivity

theorem of_ended (h : LineProgress out want c current begun) (hended : c.activity = .ended) :
    out = none := by
  cases h with
  | ended _ hout | halted _ hout => exact hout
  | reading hactivity | running hactivity | asking hactivity =>
      rw [hended] at hactivity
      cases hactivity

end LineProgress

namespace Accounts

theorem send (h : Accounts s agent out want c sent received answered blocks current begun)
    (hopen : c.finished = false) (bytes : List UInt8) (last : Bool) :
    Accounts s agent out want
      { c with incoming := c.incoming ++ bytes, finished := c.finished || last }
      (sent ++ bytes) received answered blocks current begun where
  lines more _ := by
    simpa only [List.append_assoc] using h.lines (bytes ++ more) (by simp [hopen])
  replies := h.replies
  answers := h.answers
  lineProgress := h.lineProgress.frame rfl (by simp [hopen])

theorem take (h : Accounts s agent out want c sent received answered blocks current begun)
    (count : Nat) :
    Accounts s agent out want { c with outgoing := (Desk.takeLasts count c.outgoing).2 } sent
      (received ++ (Desk.takeLasts count c.outgoing).1) answered blocks current begun where
  lines := h.lines
  replies := by
    rw [List.append_assoc, Desk.takeLasts_append]
    exact h.replies
  answers := h.answers
  lineProgress := h.lineProgress.frame rfl fun hfinished => ⟨hfinished, rfl⟩

/-- The connection has taken a line, and is about it now. -/
theorem begin (h : Accounts s agent out want c sent received answered blocks none [])
    {rest : List UInt8}
    (hline : ∀ bytes, (c.finished = true → bytes = []) →
      Framer.segments (c.incoming ++ bytes) = line :: Framer.segments (rest ++ bytes))
    {activity : Activity} {out' : Option Outsider} {want' : Errand}
    (hprogress : LineProgress out' want' { c with incoming := rest, activity } (some line) []) :
    Accounts s agent out' want' { c with incoming := rest, activity } sent received answered blocks
      (some line) [] where
  lines bytes hbytes := by
    rw [h.lines bytes hbytes, hline bytes hbytes]
    simp
  replies := h.replies
  answers := h.answers
  lineProgress := hprogress

theorem reply (h : Accounts s agent out want c sent received answered blocks none [])
    {rest : List UInt8}
    (hline : ∀ bytes, (c.finished = true → bytes = []) →
      Framer.segments (c.incoming ++ bytes) = line :: Framer.segments (rest ++ bytes))
    {block : List Reply} (hanswers : Answers s agent line block) {want' : Errand} :
    Accounts s agent none want'
      { c with incoming := rest, outgoing := c.outgoing ++ block, activity := .reading }
      sent received (answered ++ [line]) (blocks ++ [block]) none [] where
  lines bytes hbytes := by
    rw [h.lines bytes hbytes, hline bytes hbytes]
    simp
  replies := by
    rw [← List.append_assoc, h.replies]
    simp
  answers := List.rel_append h.answers (List.Forall₂.cons hanswers .nil)
  lineProgress := .reading rfl rfl

theorem conclude (h : Accounts s agent out want c sent received answered blocks (some line) begun)
    {block : List Reply} (hanswers : Answers s agent line (begun ++ block)) {want' : Errand} :
    Accounts s agent none want' { c with outgoing := c.outgoing ++ block, activity := .reading }
      sent received (answered ++ [line]) (blocks ++ [begun ++ block]) none [] where
  lines bytes hbytes := by
    rw [h.lines bytes hbytes]
    simp
  replies := by
    rw [← List.append_assoc, h.replies]
    simp
  answers := List.rel_append h.answers (List.Forall₂.cons hanswers .nil)
  lineProgress := .reading rfl rfl

theorem passOn {t : Nat} {errand : Errand} {events : List Event}
    (h : Accounts s agent out want c sent received answered blocks (some line)
      (events.map .event)) (hrunning : c.activity = .running t)
    (hline : Commands line "run" errand) (more : List Event) :
    Accounts s agent
      (some ⟨t, ⟨errand.key, errand.prompt, true⟩, events.map .event ++ more.map .event⟩) want
      { c with outgoing := c.outgoing ++ more.map .event } sent received answered blocks
      (some line) ((events ++ more).map .event) where
  lines := h.lines
  replies := by
    rw [← List.append_assoc, h.replies, List.append_assoc, List.map_append]
  answers := h.answers
  lineProgress := .running hrunning hline (by rw [List.map_append])

end Accounts

theorem Commands.answers {verb : String} {errand : Errand} {block : List Reply}
    (h : Commands line verb errand)
    (hobeys : ∀ command : Command, command.verb = verb →
      command.errand? = some (errand.key, errand.prompt) → Obeys s agent command block) :
    Answers s agent line block := by
  obtain ⟨text, command, htext, hblank, hparse, hverb, herrand⟩ := h.read
  exact .obeyed htext hblank hparse (hobeys command hverb herrand)

/-! ## One connection at the server -/

/-- The bytes that a move sends to a connection. -/
def Move.bytesTo (name : String) : Move → List UInt8
  | .send n bytes _ => if n = name then bytes else []
  | _ => []

namespace Desk

structure HasAccount (s : Client.Settings) (agent : Execution.Agent) (sizes : String → Nat)
    (name : String) (sent : List UInt8) (received : List Reply) (d : Desk) : Prop where
  crashFree : d.CrashFree
  account : ∃ out want c answered blocks current begun, c.name = name ∧ d.Intact c ∧
    d.AskersTracked s agent sizes out want [] ∧
    Accounts s agent out (want name) c sent received answered blocks current begun

def taken (d : Desk) (name : String) : Move → List Reply
  | .take n count =>
    if n = name then
      (d.connection? name).elim [] fun c =>
        if c.writerFailed then [] else (takeLasts count c.outgoing).1
    else []
  | _ => []

/-- The replies that the peer of a connection receives as things happen. -/
def receipts (d : Desk) (name : String) : List Move → List Reply
  | [] => []
  | m :: moves => d.taken name m ++ (d.move m).receipts name moves

/-- Nothing in a run takes a connection away, its writer or its session. -/
def Spared (d : Desk) (name : String) : List Move → Prop
  | [] => True
  | m :: moves => d.Spares name m ∧ (d.move m).Spared name moves

instance instDecidableSpared (d : Desk) (name : String) :
    (moves : List Move) → Decidable (d.Spared name moves)
  | [] => .isTrue trivial
  | m :: moves =>
    have := instDecidableSpared (d.move m) name moves
    inferInstanceAs (Decidable (d.Spares name m ∧ (d.move m).Spared name moves))

/-- What comes after some events that a call has told are its other events, and what follows
them. -/
theorem eq_append_of_map_event {front events : List Event} {said tail : List Client.Message}
    (htail : ∀ e, .event e ∉ tail) (h : front.map .event ++ said = events.map .event ++ tail) :
    ∃ more, said = List.map Client.Message.event more ++ tail ∧ events = front ++ more := by
  induction front generalizing events with
  | nil => exact ⟨events, h, rfl⟩
  | cons e front ih =>
      cases events with
      | nil =>
          have htail' : tail = .event e :: (front.map .event ++ said) := h.symm
          exact absurd (htail' ▸ List.mem_cons_self) (htail e)
      | cons e' events =>
          obtain ⟨he, hrest⟩ := List.cons.inj h
          obtain rfl := Client.Message.event.inj he
          obtain ⟨more, hsaid, rfl⟩ := ih hrest
          exact ⟨more, hsaid, rfl⟩

structure TakesLine (s : Client.Settings) (agent : Execution.Agent) (sizes : String → Nat)
    (c : Connection) (sent : List UInt8) (received : List Reply) (line rest : List UInt8)
    (d : Desk) : Prop where
  crashFree : d.CrashFree
  intact : d.Intact c
  reading : c.activity = .reading
  line_eq : ∀ bytes, (c.finished = true → bytes = []) →
    Framer.segments (c.incoming ++ bytes) = line :: Framer.segments (rest ++ bytes)
  account : ∃ want answered blocks, d.AskersTracked s agent sizes none want [] ∧
    Accounts s agent none (want c.name) c sent received answered blocks none []

namespace TakesLine

variable {d : Desk} {rest : List UInt8}

theorem held (h : d.TakesLine s agent sizes c sent received line rest) :
    d.registry.contains c.session = true :=
  h.intact.held (by simp [h.reading])

theorem touched (h : d.TakesLine s agent sizes c sent received line rest) (b : Connection) :
    (d.touched b).TakesLine s agent sizes c sent received line rest := by
  obtain ⟨want, answered, blocks, htracked, haccounts⟩ := h.account
  exact ⟨h.crashFree.sub rfl fun _ hx => hx, h.intact.touched b, h.reading, h.line_eq,
    want, answered, blocks, htracked.touched b, haccounts⟩

theorem reply (h : d.TakesLine s agent sizes c sent received line rest) {block : List Reply}
    (hanswers : Answers s agent line block) :
    (d.update { c with
      incoming := rest
      activity := .reading
      outgoing := c.outgoing ++ block }).HasAccount s agent sizes c.name sent received := by
  obtain ⟨want, answered, blocks, htracked, haccounts⟩ := h.account
  refine ⟨h.crashFree.update_idle (.inl (.inl rfl)), none, want, { c with
    incoming := rest
    activity := .reading
    outgoing := c.outgoing ++ block }, _, _, _, _, rfl,
    h.intact.update ⟨rfl, rfl⟩ rfl (fun _ => h.held) nofun,
    htracked.reply h.intact.mem ⟨rfl, rfl⟩ (.inl h.reading) (.inl rfl),
    haccounts.reply h.line_eq hanswers⟩

theorem conclude (h : d.TakesLine s agent sizes c sent received line rest) {r : Reply}
    (hanswers : Answers s agent line [r]) :
    (d.update (({ c with incoming := rest } : Connection).conclude r)).HasAccount s agent sizes
      c.name sent received := by
  have hworks : ({ c with incoming := rest } : Connection).writerFailed = false := h.intact.works
  rw [Connection.conclude_eq hworks]
  exact h.reply hanswers

theorem halt (h : d.TakesLine s agent sizes c sent received line rest)
    (htext : textOf? line = none) :
    (d.leave { c with incoming := rest }).HasAccount s agent sizes c.name sent received := by
  obtain ⟨want, answered, blocks, htracked, haccounts⟩ := h.account
  have hprogress : LineProgress none (want c.name) { c with incoming := rest, activity := .ended }
      (some line) [] := .halted rfl rfl htext
  exact ⟨h.crashFree.leave _, none, want, { c with incoming := rest, activity := .ended }, answered,
    blocks, some line, [], rfl, h.intact.left ⟨rfl, rfl⟩ rfl,
    htracked.leave h.intact.mem ⟨rfl, rfl⟩ (by simp [h.reading]),
    haccounts.begin h.line_eq hprogress⟩

theorem run (h : d.TakesLine s agent sizes c sent received line rest) {key : String}
    {prompt : Prompt}
    (hcommands : Commands line "run" ⟨key, prompt⟩) (hinRange : d.client.CallInRange key prompt) :
    (d.run { c with incoming := rest } key prompt).HasAccount s agent sizes c.name sent
      received := by
  obtain ⟨want, answered, blocks, htracked, haccounts⟩ := h.account
  have hstarted := (htracked.run (c := { c with incoming := rest }) h.intact.mem ⟨rfl, rfl⟩
    (.inl h.reading) key prompt).2
  have hsafe := h.crashFree.run { c with incoming := rest } hinRange
  have hprogress : LineProgress (some ⟨d.client.issued, ⟨key, prompt, true⟩, []⟩) (want c.name)
      { c with incoming := rest, activity := .running d.client.issued } (some line)
      (([] : List Event).map .event) := .running rfl hcommands rfl
  rw [run_eq] at hstarted hsafe ⊢
  refine ⟨hsafe, _, want, { c with incoming := rest, activity := .running d.client.issued },
    answered, blocks, some line, [], rfl, ?_, hstarted,
    haccounts.begin h.line_eq hprogress⟩
  have hclient (client : Client.Desk) : (d.setClient client).Intact c :=
    h.intact.frame rfl id rfl
  refine (hclient _).update ⟨rfl, rfl⟩ rfl (fun _ => h.held) fun t hrunning x hx hxrunning => ?_
  -- The ticket of the call is new, so nobody else runs it.
  obtain rfl := Activity.running.inj hrunning
  exact absurd (h.crashFree.office.handler.issued _ ⟨x, hx, hxrunning⟩) (Nat.lt_irrefl _)

/-- A prompt is asked for, and the connection waits for the outcome. -/
theorem ask (h : d.TakesLine s agent sizes c sent received line rest)
    (hsizes : ∀ key, sizes key ≤ Admission.Limiter.maxCapacity) {key : String} {prompt : Prompt}
    (hcommands : Commands line "ask" ⟨key, prompt⟩) (hshowable : d.DeadlineShowable prompt) :
    (d.ask { c with incoming := rest } key prompt).HasAccount s agent sizes c.name sent
      received := by
  obtain ⟨want, answered, blocks, htracked, haccounts⟩ := h.account
  have hasked := htracked.ask (c := { c with incoming := rest }) h.intact.mem ⟨rfl, rfl⟩
    (.inl h.reading) key (hsizes key) hshowable
  have hsafe : (d.ask { c with incoming := rest } key prompt).CrashFree :=
    h.crashFree.ask _ hshowable
  have hprogress : LineProgress none (Function.update want c.name ⟨key, prompt⟩ c.name)
      { c with incoming := rest, activity := .asking } (some line) [] := by
    rw [Function.update_self]
    exact .asking rfl hcommands rfl
  obtain ⟨deadline, hdeadline, -⟩ := hshowable
  unfold Desk.ask at hasked hsafe ⊢
  rw [hdeadline] at hasked hsafe ⊢
  refine ⟨hsafe, none, _, { c with incoming := rest, activity := .asking }, answered, blocks,
    some line, [], rfl, ?_, hasked, haccounts.begin h.line_eq hprogress⟩
  have hsubmitted (office : Office) : ({ d with office } : Desk).Intact c :=
    h.intact.frame rfl id rfl
  exact (hsubmitted _).update ⟨rfl, rfl⟩ rfl (fun _ => h.held) nofun

theorem dispatch (h : d.TakesLine s agent sizes c sent received line rest)
    (hsizes : ∀ key, sizes key ≤ Admission.Limiter.maxCapacity) {text : List Char}
    (htext : textOf? line = some text) (hblank : text ≠ []) {command : Command}
    (hparse : Command.parse text = .ok command) (hinRange : d.CommandInRange command) :
    (d.dispatch { c with incoming := rest } command).HasAccount s agent sizes c.name sent
      received := by
  have hreply {r : Reply} (hobeys : Obeys s agent command [r]) :
      (d.update (({ c with incoming := rest } : Connection).conclude r)).HasAccount s agent sizes
        c.name sent received :=
    h.conclude (.obeyed htext hblank hparse hobeys)
  have hnone (hverb : command.verb = "run" ∨ command.verb = "ask")
      (herrand : command.errand? = none) : Obeys s agent command [missingPrompt] :=
    .promptless hverb (Option.map_eq_none_iff.mp herrand)
  unfold Desk.dispatch
  split_ifs with hrun hask hlist hping
  · cases herrand : command.errand? with
    | none => exact hreply (hnone (.inl hrun) herrand)
    | some errand =>
        have hcommands : Commands line "run" ⟨errand.1, errand.2⟩ :=
          ⟨text, command, htext, hblank, hparse, hrun, herrand⟩
        exact h.run hcommands ((hinRange _ herrand).1 hrun)
  · cases herrand : command.errand? with
    | none => exact hreply (hnone (.inr hask) herrand)
    | some errand =>
        have hcommands : Commands line "ask" ⟨errand.1, errand.2⟩ :=
          ⟨text, command, htext, hblank, hparse, hask, herrand⟩
        exact h.ask hsizes hcommands ((hinRange _ herrand).2 hask)
  · exact hreply (.list hlist _)
  · exact hreply (.ping hping)
  · exact hreply (.unknown (by simp [hrun, hask, hlist, hping]))

theorem answerLine (h : d.TakesLine s agent sizes c sent received line rest)
    (hsizes : ∀ key, sizes key ≤ Admission.Limiter.maxCapacity) {text : List Char}
    (htext : textOf? line = some text) (hblank : text ≠ [])
    (hinRange : ∀ command, Command.parse text = .ok command → d.CommandInRange command) :
    (d.answerLine { c with incoming := rest } text).HasAccount s agent sizes c.name sent
      received := by
  have htouch : d.registry.touch d.now c.session = ((d.touched c).registry, true) := by
    unfold Desk.touched Session.Registry.touch
    rw [if_pos h.held]
  unfold Desk.answerLine
  rw [htouch]
  dsimp only
  cases hparse : Command.parse text with
  | error problem => exact (h.touched c).conclude (.invalid htext hblank hparse)
  | ok command =>
      exact (h.touched c).dispatch hsizes htext hblank hparse (hinRange command hparse)

end TakesLine

namespace HasAccount

variable {name : String} {d d' : Desk}

theorem others (h : d.HasAccount s agent sizes name sent received)
    (hsizes : ∀ key, sizes key ≤ Admission.Limiter.maxCapacity) {m : Move}
    (hinRange : d.MoveInRange m) (hspares : d.Spares name m) (hactor : m.actor? ≠ some name)
    (hm : m ≠ .exchange) : (d.move m).HasAccount s agent sizes name sent received := by
  obtain ⟨out, want, c, answered, blocks, current, begun, rfl, hintact, htracked, haccounts⟩ :=
    h.account
  obtain ⟨want', hwant, hnext⟩ := htracked.move hsizes hinRange hm
  refine ⟨h.crashFree.move hinRange, out, want', c, answered, blocks, current, begun, rfl,
    hintact.move htracked.sessionsOwned h.crashFree hspares hactor hm, hnext, ?_⟩
  rw [hwant c.name (by rintro rfl; exact hactor rfl)]
  exact haccounts

theorem send (h : d.HasAccount s agent sizes name sent received) {bytes : List UInt8} {last : Bool}
    (hspares : d.Spares name (.send name bytes last)) :
    (d.move (.send name bytes last)).HasAccount s agent sizes name (sent ++ bytes) received := by
  obtain ⟨out, want, c, answered, blocks, current, begun, rfl, hintact, htracked, haccounts⟩ :=
    h.account
  have hmove : d.move (.send c.name bytes last) =
      d.update { c with incoming := c.incoming ++ bytes, finished := c.finished || last } := by
    simp [Desk.move, Desk.on, hintact.here]
  have hsafe := h.crashFree.move (m := .send c.name bytes last) trivial
  rw [hmove] at hsafe ⊢
  exact ⟨hsafe, out, want,
    { c with incoming := c.incoming ++ bytes, finished := c.finished || last },
    answered, blocks, current, begun, rfl, hintact.update ⟨rfl, rfl⟩ rfl hintact.held hintact.sole,
    htracked.amend hintact.mem ⟨rfl, rfl⟩ rfl,
      haccounts.send (hspares rfl c hintact.here) bytes last⟩

theorem take (h : d.HasAccount s agent sizes name sent received) (count : Nat) :
    (d.move (.take name count)).HasAccount s agent sizes name sent
      (received ++ d.taken name (.take name count)) := by
  obtain ⟨out, want, c, answered, blocks, current, begun, rfl, hintact, htracked, haccounts⟩ :=
    h.account
  have hmove : d.move (.take c.name count) =
      d.update { c with outgoing := (takeLasts count c.outgoing).2 } := by
    simp [Desk.move, Desk.on, hintact.here, hintact.works]
  have htaken : d.taken c.name (.take c.name count) = (takeLasts count c.outgoing).1 := by
    simp [Desk.taken, hintact.here, hintact.works]
  have hsafe := h.crashFree.move (m := .take c.name count) trivial
  rw [hmove] at hsafe ⊢
  rw [htaken]
  exact ⟨hsafe, out, want, { c with outgoing := (takeLasts count c.outgoing).2 },
    answered, blocks, current, begun, rfl, hintact.update ⟨rfl, rfl⟩ rfl hintact.held hintact.sole,
    htracked.amend hintact.mem ⟨rfl, rfl⟩ rfl, haccounts.take count⟩

theorem read (h : d.HasAccount s agent sizes name sent received)
    (hsizes : ∀ key, sizes key ≤ Admission.Limiter.maxCapacity)
    (hinRange : d.MoveInRange (.read name)) :
    (d.move (.read name)).HasAccount s agent sizes name sent received := by
  obtain ⟨out, want, c, answered, blocks, current, begun, rfl, hintact, htracked, haccounts⟩ :=
    h.account
  have hmove : d.move (.read c.name) = (d.readLine? c).getD d := by
    simp [Desk.move, Desk.on, hintact.here]
  rw [hmove]
  by_cases hreading : c.activity = .reading
  swap
  · unfold Desk.readLine?
    rw [if_neg haccounts.lineProgress.ne_leaving, if_neg hreading]
    exact h
  obtain ⟨rfl, rfl, rfl⟩ := haccounts.lineProgress.of_reading hreading
  unfold Desk.readLine?
  rw [if_neg haccounts.lineProgress.ne_leaving, if_pos hreading, if_neg (by simp [hintact.admits])]
  obtain ⟨heq, -, -⟩ | ⟨heq, hfinished, hincoming⟩ | ⟨line, rest, heq, -, hline⟩ := c.nextLine_cases
  · rw [heq]
    exact h
  · rw [heq]
    exact ⟨h.crashFree.leave c, none, want, { c with activity := .ended }, answered, blocks, none,
      [],
      rfl, hintact.left (.refl c) rfl, htracked.leave hintact.mem (.refl c) (by simp [hreading]),
      { haccounts with lineProgress := .ended rfl rfl hfinished hincoming }⟩
  · rw [heq]
    have htakes : d.TakesLine s agent sizes c sent received line rest :=
      ⟨h.crashFree, hintact, hreading, hline, want, answered, blocks, htracked, haccounts⟩
    cases htext : textOf? line with
    | none => exact htakes.halt htext
    | some text =>
        cases text with
        | nil =>
            have hskipped := htakes.reply (.blank htext)
            rw [List.append_nil, ← hreading] at hskipped
            exact hskipped
        | cons first more =>
            refine htakes.answerLine hsizes htext (List.cons_ne_nil _ _) fun command hparse => ?_
            refine hinRange c hintact.here command ?_
            simp [Connection.command?, heq, htext, hparse, Except.toOption]

theorem exchange_idle {want : String → Errand} (hsafe : d.CrashFree) (hintact : d.Intact c)
    (htracked : d.AskersTracked s agent sizes none want [])
    (haccounts : Accounts s agent none (want c.name) c sent received answered blocks current begun)
    (hbusy : c.activity ≠ .asking) (hidle : ∀ t, c.activity ≠ .running t) :
    d.exchange.HasAccount s agent sizes c.name sent received := by
  have hacted : d.acted.Intact c := hintact.frame rfl id rfl
  have howned : d.acted.SessionsOwned := htracked.sessionsOwned.same rfl rfl
  have hheard := htracked.acted.relays (d.office.act answering).handler.desk.messages
  have hintact' := (hacted.relays_idle howned _ hidle).hears_idle hheard hbusy
  rw [← exchange_eq] at hintact'
  exact ⟨hsafe.exchange, none, want, c, answered, blocks, current, begun, rfl, hintact',
    htracked.exchange, haccounts⟩

/-- The connection may hear the outcome of what it asks for. -/
theorem exchange_asking {want : String → Errand} (hsafe : d.CrashFree) (hintact : d.Intact c)
    (htracked : d.AskersTracked s agent sizes none want [])
    (haccounts : Accounts s agent none (want c.name) c sent received answered blocks (some line) [])
    (hline : Commands line "ask" (want c.name)) (hasking : c.activity = .asking) :
    d.exchange.HasAccount s agent sizes c.name sent received := by
  have hacted : d.acted.Intact c := hintact.frame rfl id rfl
  have howned : d.acted.SessionsOwned := htracked.sessionsOwned.same rfl rfl
  have hheard := htracked.acted.relays (d.office.act answering).handler.desk.messages
  obtain hintact' | ⟨o, hsettles, hintact'⟩ :=
    (hacted.relays_idle howned _ (by simp [hasking])).hears_asking hheard hasking
  · rw [← exchange_eq] at hintact'
    exact ⟨hsafe.exchange, none, want, c, answered, blocks, some line, [], rfl, hintact',
      htracked.exchange, haccounts⟩
  · rw [← exchange_eq] at hintact'
    have hanswers : Answers s agent line ([] ++ [.ofResult o]) :=
      hline.answers fun command hverb herrand => .asked hverb herrand hsettles
    rw [Connection.conclude_eq hintact.works] at hintact'
    exact ⟨hsafe.exchange, none, want, { c.write (.ofResult o) with activity := .reading }, _, _,
      none, [], rfl, hintact', htracked.exchange, haccounts.conclude hanswers⟩

/-- The connection hears events of the prompt that it runs, and the result once the call is
over. -/
theorem exchange_running {want : String → Errand} {t : Nat} {errand : Errand} {events : List Event}
    (hsafe : d.CrashFree) (hintact : d.Intact c)
    (htracked : d.AskersTracked s agent sizes
      (some ⟨t, ⟨errand.key, errand.prompt, true⟩, events.map .event⟩) want [])
    (haccounts : Accounts s agent (some ⟨t, ⟨errand.key, errand.prompt, true⟩, events.map .event⟩)
      (want c.name) c sent received answered blocks (some line) (events.map .event))
    (hline : Commands line "run" errand) (hrunning : c.activity = .running t) :
    d.exchange.HasAccount s agent sizes c.name sent received := by
  have hacted : d.acted.Intact c := hintact.frame rfl id rfl
  have howned : d.acted.SessionsOwned := htracked.sessionsOwned.same rfl rfl
  have hheard := htracked.acted.relays (d.office.act answering).handler.desk.messages
  have hnext := htracked.exchange
  obtain ⟨told, htold⟩ | ⟨desk, hsettings, hagent, hstory⟩ := htracked.told_of_acted rfl
  · -- The call goes on, and the connection has heard events only.
    rw [← List.append_nil (told.map _)] at htold
    obtain ⟨more, hsaid, -⟩ := eq_append_of_map_event (by simp) htold
    rw [List.append_nil] at hsaid
    have hintact' := (hacted.relays_events howned hrunning hsaid).hears_idle hheard
      (by simp [hrunning])
    rw [← exchange_eq] at hintact'
    rw [Option.map_some, hsaid] at hnext
    exact ⟨hsafe.exchange, _, want, { c with outgoing := c.outgoing ++ more.map .event },
      answered, blocks, some line, _, rfl, hintact', hnext,
      haccounts.passOn hrunning hline more⟩
  · have hcalm : Client.Message.ended .crashed ∉ events.map .event ++
        saidBy t (d.office.act answering).handler.desk.messages := by
      intro hmem
      rcases List.mem_append.mp hmem with hmem | hmem
      · simp at hmem
      · obtain ⟨time, hmessage⟩ := Client.mem_saidBy.mp hmem
        have hoffice := hsafe.office.act (Bus.answering_preserves d.Runs)
        exact hoffice.handler.calm _ hmessage ⟨c, hintact.mem, hrunning⟩ rfl
    obtain ⟨text, command, htext, hblank, hparse, hverb, herrand⟩ := hline.read
    obtain ⟨told, how, result, htold, hresult, hobeys⟩ :=
      Obeys.of_story hverb herrand hsettings hagent hstory hcalm
    obtain ⟨more, hsaid, rfl⟩ := eq_append_of_map_event (by simp) htold
    have hintact' := (hacted.relays_ended howned hrunning hsaid hresult).hears_idle hheard (by simp)
    rw [← exchange_eq] at hintact'
    rw [List.map_append, List.append_assoc] at hobeys
    exact ⟨hsafe.exchange, none, want, { c with
        outgoing := c.outgoing ++ (more.map .event ++ [.ofResult result])
        activity := .reading }, _, _, none, [], rfl, hintact', hnext.disregard,
      haccounts.conclude (.obeyed htext hblank hparse hobeys)⟩

/-- The agent and the bus act, and the connection hears what they tell it. -/
theorem exchange (h : d.HasAccount s agent sizes name sent received) :
    d.exchange.HasAccount s agent sizes name sent received := by
  obtain ⟨out, want, c, answered, blocks, current, begun, rfl, hintact, htracked, haccounts⟩ :=
    h.account
  cases hactivity : c.activity with
  | crashed => exact absurd hactivity (h.crashFree.connections c hintact.mem)
  | leaving => exact absurd hactivity haccounts.lineProgress.ne_leaving
  | reading =>
      obtain ⟨-, -, rfl⟩ := haccounts.lineProgress.of_reading hactivity
      exact exchange_idle h.crashFree hintact htracked haccounts (by simp [hactivity])
        (by simp [hactivity])
  | ended =>
      obtain rfl := haccounts.lineProgress.of_ended hactivity
      exact exchange_idle h.crashFree hintact htracked haccounts (by simp [hactivity])
        (by simp [hactivity])
  | asking =>
      obtain ⟨line, rfl, rfl, hline, rfl⟩ := haccounts.lineProgress.of_asking hactivity
      exact exchange_asking h.crashFree hintact htracked haccounts hline hactivity
  | running t =>
      obtain ⟨line, errand, events, rfl, rfl, hline, rfl⟩ :=
        haccounts.lineProgress.of_running hactivity
      exact exchange_running h.crashFree hintact htracked haccounts hline hactivity

theorem move (h : d.HasAccount s agent sizes name sent received)
    (hsizes : ∀ key, sizes key ≤ Admission.Limiter.maxCapacity) {m : Move}
    (hinRange : d.MoveInRange m) (hspares : d.Spares name m) :
    (d.move m).HasAccount s agent sizes name (sent ++ m.bytesTo name)
    (received ++ d.taken name m) := by
  have hothers (hactor : m.actor? ≠ some name) (hm : m ≠ .exchange)
      (hbytes : m.bytesTo name = []) (htaken : d.taken name m = []) :
      (d.move m).HasAccount s agent sizes name (sent ++ m.bytesTo name)
        (received ++ d.taken name m) := by
    rw [hbytes, htaken, List.append_nil, List.append_nil]
    exact h.others hsizes hinRange hspares hactor hm
  cases m with
  | send n bytes last =>
      by_cases hn : n = name
      · subst hn
        simpa [Move.bytesTo, Desk.taken] using h.send hspares
      · exact hothers (by simpa [Move.actor?] using hn) (by simp) (if_neg hn) rfl
  | read n =>
      by_cases hn : n = name
      · subst hn
        simpa [Move.bytesTo, Desk.taken] using h.read hsizes hinRange
      · exact hothers (by simpa [Move.actor?] using hn) (by simp) rfl rfl
  | take n count =>
      by_cases hn : n = name
      · subst hn
        simpa [Move.bytesTo] using h.take count
      · exact hothers (by simpa [Move.actor?] using hn) (by simp) rfl (if_neg hn)
  | exchange => simpa [Move.bytesTo, Desk.taken, Desk.move] using h.exchange
  | connect | sever | failWriter | forget | elapse | sweep | evict | evictAll | closeLimiter
  | shutdownEngine | stop => exact hothers (by simp [Move.actor?]) (by simp) rfl rfl

theorem play (h : d.HasAccount s agent sizes name sent received)
    (hsizes : ∀ key, sizes key ≤ Admission.Limiter.maxCapacity) {moves : List Move}
    (hrange : d.InRange moves) (hspared : d.Spared name moves) :
    (d.play moves).HasAccount s agent sizes name (sent ++ moves.flatMap (·.bytesTo name))
      (received ++ d.receipts name moves) := by
  induction moves generalizing d sent received with
  | nil => simpa [Desk.receipts, Desk.play] using h
  | cons m moves ih =>
      have hnext := ih (h.move hsizes hrange.1 hspared.1) hrange.2 hspared.2
      simpa [Desk.receipts, Desk.play, List.append_assoc] using hnext

end HasAccount

end Desk

end AgentGateway.Server
