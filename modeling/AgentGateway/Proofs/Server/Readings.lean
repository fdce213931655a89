import AgentGateway.Proofs.Server.Sessions
import AgentGateway.Proofs.Session.Entries

/-!
# What a connection finds when it reads

Reading a line and acting on it are told apart. What is found is one of four things
(`Desk.reading?`), of which each is acted on in its own way (`Desk.heed`). Whether the session is
registered is looked at when the line is read, and looking notes the session as active, unless the
line is blank. Where nothing is found, a connection leaves without a word or waits for more.
-/

namespace AgentGateway.Server

open Correlation (Id)

/-- What a connection finds that reads a line. A line is `expired` if it is not blank and the
session is gone. -/
inductive Reading where
  | blank
  | expired
  | invalid (text : String)
  | command (c : Command)
  deriving Repr, Inhabited

/-- Whether the session was found registered. -/
def Reading.isServed : Reading → Bool
  | .blank | .expired => false
  | .invalid _ | .command _ => true

theorem Connection.nextLine_outgoing (c : Connection) : c.nextLine.2.outgoing = c.outgoing := by
  unfold nextLine
  dsimp only
  split
  next => rfl
  next => split_ifs <;> rfl

namespace Desk

variable {d : Desk} {c : Connection} {r : Reading}

/-- What a connection finds on its next line, if it reads one. -/
def reading? (d : Desk) (c : Connection) : Option Reading :=
  if c.activity = .reading ∧ d.stopped = false then
    match c.nextLine.1 with
    | .text [] => some .blank
    | .text text =>
      if d.registry.contains c.session then
        match Command.parse text with
        | .ok command => some (.command command)
        | .error problem => some (.invalid (problem.describe text))
      else some .expired
    | .notText | .exhausted | .incomplete => none
  else none

/-- Acts on what a connection has found, once the line has been taken off. -/
def heed (d : Desk) (c : Connection) : Reading → Desk
  | .blank => d.update c
  | .expired => d.leave (c.write sessionExpired)
  | .invalid text => (d.touched c).update (c.conclude (invalidLine text))
  | .command command => (d.touched c).dispatch c command

theorem answerLine_eq (d : Desk) (c : Connection) (text : List Char) :
    d.answerLine c text =
      if d.registry.contains c.session then
        match Command.parse text with
        | .ok command => d.heed c (.command command)
        | .error problem => d.heed c (.invalid (problem.describe text))
      else d.heed c .expired := by
  unfold answerLine
  by_cases hthere : d.registry.contains c.session = true
  · have htouch : d.registry.touch d.now c.session = ((d.touched c).registry, true) := by
      unfold touched Session.Registry.touch
      rw [if_pos hthere]
    rw [htouch, if_pos hthere]
    cases Command.parse text <;> rfl
  · have htouch : d.registry.touch d.now c.session = (d.registry, false) := by
      unfold Session.Registry.touch
      rw [if_neg hthere]
    rw [htouch, if_neg hthere]
    rfl

theorem activity_of_reading? (h : d.reading? c = some r) :
    c.activity = .reading ∧ d.stopped = false := by
  by_contra hnot
  rw [reading?, if_neg hnot] at h
  cases h

theorem readLine?_of_reading? (h : d.reading? c = some r) :
    d.readLine? c = some (d.heed c.nextLine.2 r) := by
  obtain ⟨hreading, hstopped⟩ := activity_of_reading? h
  have hsession := c.nextLine_sameSession.1.session
  rw [reading?, if_pos ⟨hreading, hstopped⟩] at h
  rw [readLine?, if_neg (by simp [hreading]), if_pos hreading, if_neg (by simp [hstopped])]
  cases hline : c.nextLine with
  | mk line c' =>
    rw [hline] at h hsession
    cases line with
    | incomplete | exhausted | notText => cases h
    | text text =>
        cases text with
        | nil =>
            obtain rfl := Option.some.inj h
            rfl
        | cons first rest =>
            have hanswer := answerLine_eq d c' (first :: rest)
            rw [hsession] at hanswer
            dsimp only at h ⊢
            rw [hanswer]
            split_ifs at h ⊢ with hthere
            · cases hparse : Command.parse (first :: rest) with
              | ok command =>
                  rw [hparse] at h
                  obtain rfl := Option.some.inj h
                  rfl
              | error problem =>
                  rw [hparse] at h
                  obtain rfl := Option.some.inj h
                  rfl
            · obtain rfl := Option.some.inj h
              rfl

/-- A connection that finds nothing waits, or leaves and writes nothing. -/
theorem readLine?_of_reading?_eq_none (h : d.reading? c = none) :
    d.readLine? c = none ∨
      ∃ x, c.SameSession x ∧ x.outgoing = c.outgoing ∧ d.readLine? c = some (d.leave x) := by
  unfold readLine?
  by_cases hleaving : c.activity = .leaving
  · rw [if_pos hleaving]
    exact .inr ⟨c, .refl c, rfl, rfl⟩
  rw [if_neg hleaving]
  by_cases hreading : c.activity = .reading
  · rw [if_pos hreading]
    by_cases hstopped : d.stopped = true
    · rw [if_pos hstopped]
      exact .inr ⟨c, .refl c, rfl, rfl⟩
    · rw [if_neg hstopped]
      have hsame := c.nextLine_sameSession.1
      have hsilent := c.nextLine_outgoing
      rw [reading?, if_pos ⟨hreading, by simpa using hstopped⟩] at h
      cases hline : c.nextLine with
      | mk line c' =>
        rw [hline] at h hsame hsilent
        cases line with
        | incomplete => exact .inl rfl
        | exhausted | notText => exact .inr ⟨c', hsame, hsilent, rfl⟩
        | text text =>
            cases text with
            | nil => cases h
            | cons first rest =>
                dsimp only at h
                split_ifs at h
                cases hparse : Command.parse (first :: rest) <;> simp [hparse] at h
  · rw [if_neg hreading]
    exact .inl rfl

theorem SessionsOwned.move_read (h : d.SessionsOwned) (hc : c ∈ d.connections) :
    d.move (.read c.name) = (d.readLine? c).getD d := by
  show (d.connection? c.name).elim d _ = _
  rw [h.connection?_of_mem hc]
  rfl

theorem SessionsOwned.move_read_of_some (h : d.SessionsOwned) (hc : c ∈ d.connections)
    (hreads : d.reading? c = some r) : d.move (.read c.name) = d.heed c.nextLine.2 r := by
  rw [h.move_read hc, readLine?_of_reading? hreads]
  rfl

theorem SessionsOwned.move_read_of_none (h : d.SessionsOwned) (hc : c ∈ d.connections)
    (hnone : d.reading? c = none) :
    d.move (.read c.name) = d ∨
      ∃ x, c.SameSession x ∧ x.outgoing = c.outgoing ∧ d.move (.read c.name) = d.leave x := by
  rw [h.move_read hc]
  obtain hwaits | ⟨x, hx, hsilent, hleaves⟩ := readLine?_of_reading?_eq_none hnone
  · rw [hwaits]
    exact .inl rfl
  · rw [hleaves]
    exact .inr ⟨x, hx, hsilent, rfl⟩

/-! ## The registry -/

theorem Dispatched.registry {b : Connection} {command : Command} {d' : Desk}
    (h : Dispatched d b command d') : d'.registry = d.registry := by
  cases h with
  | reply => rfl
  | run => rfl
  | ask =>
      unfold Desk.ask
      split <;> rfl

theorem heed_registry_of_isServed (d : Desk) (c : Connection) (h : r.isServed = true) :
    (d.heed c r).registry = (d.touched c).registry := by
  cases r with
  | blank | expired => cases h
  | invalid text => rfl
  | command command => exact (dispatched (d.touched c) (.refl c) command).registry

theorem find?_heed_of_isServed (d : Desk) (c : Connection) (h : r.isServed = true) (id : Id) :
    (d.heed c r).registry.find? id =
      if id = c.session then
        (d.registry.find? id).map fun e => { e with lastActivity := d.now }
      else d.registry.find? id := by
  rw [heed_registry_of_isServed d c h]
  exact Session.Registry.find?_touch d.registry d.now c.session id

theorem contains_of_isServed (hreads : d.reading? c = some r) (h : r.isServed = true) :
    d.registry.contains c.session = true := by
  rw [reading?, if_pos (activity_of_reading? hreads)] at hreads
  split at hreads
  · obtain rfl := Option.some.inj hreads
    cases h
  · split_ifs at hreads with hthere
    · exact hthere
    · obtain rfl := Option.some.inj hreads
      cases h
  · cases hreads
  · cases hreads
  · cases hreads

/-- A line that is not blank is answered as one of a session that is gone. -/
theorem reading?_of_not_contains (hreading : c.activity = .reading) (hstopped : d.stopped = false)
    (hgone : d.registry.contains c.session = false) {text : List Char}
    (hline : c.nextLine.1 = .text text) (htext : text ≠ []) : d.reading? c = some .expired := by
  rw [reading?, if_pos ⟨hreading, hstopped⟩, hline]
  cases text with
  | nil => exact absurd rfl htext
  | cons first rest => simp [hgone]

end Desk

end AgentGateway.Server
