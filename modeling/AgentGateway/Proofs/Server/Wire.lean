import AgentGateway.Proofs.Json.Whole
import AgentGateway.Proofs.Output.Framing
import AgentGateway.Proofs.Text.RoundTrip
import AgentGateway.Server.Reply

/-!
# One reply is one line

Whatever a reply says, its line has one newline, at its end, and the text before it is read back as
the value of the reply. So cutting the output of a connection at its newlines gives the values of
its replies, one by one (`Server.Reply.carried`). No level of nesting gets in the way: a reader
that refuses some level of nesting reads all the values that nest less deep, and no others.
-/

namespace AgentGateway

open Framer (newline segments)
open Text.Utf8 (encode decodeLossy)

/-! ## Lines of values -/

namespace Json

/-- A line that says a value: a text that is read as the value, and the only newline. -/
structure Says (v : Json) (line : String) (text : List Char) : Prop where
  bytes : encode line.toList = encode text ++ [newline]
  newline_not_mem : newline ∉ encode text
  value : readAny text = .ok v
  nested : ∀ limit, 0 < limit → (readNested limit text = .ok v ↔ v.depth < limit)

/-- The text of the first is read as the second: the members of objects may come in any order. -/
structure Spells (w v : Json) : Prop where
  proper : w.Proper
  readBack : w.readBack = v

/-- A line that may be written for a value. -/
def Writes (v : Json) (line : String) : Prop := ∃ w : Json, w.Spells v ∧ line = w.print ++ "\n"

theorem Writes.says {v : Json} {line : String} (h : v.Writes line) : ∃ text, v.Says line text := by
  obtain ⟨w, ⟨hw, rfl⟩, rfl⟩ := h
  have hclean : '\n' ∉ w.chars := fun hmem => absurd (space_le_of_mem_chars w hw hmem) (by decide)
  refine ⟨w.chars, ?_, Text.Utf8.newline_not_mem_encode hclean, readAny_chars hw,
    fun limit hlimit => ?_⟩
  · rw [print, String.toList_append, String.toList_ofList, Text.Utf8.encode_append]
    rfl
  · rw [depth_readBack hw]
    refine ⟨fun hread => ?_, readNested_chars hw⟩
    by_contra hdeep
    obtain ⟨p, hp⟩ := readNested_refuses hw hlimit (Nat.le_of_not_lt hdeep)
    cases hp.symm.trans hread

theorem Whole.spells {v : Json} (h : v.Whole) : v.Spells v := ⟨h.proper, h.readBack_eq⟩

/-- Members that spell others, in any order, make an object that spells the one of the others. -/
theorem spells_object {written members : Members} (hkeys : (written.map Prod.fst).Nodup)
    (h : List.Forall₂ (fun w m => w.1 = m.1 ∧ w.2.Spells m.2) written members) :
    (object written).Spells (.ofMembers members) := by
  have hmembers : ProperMembers written ∧ readBackMembers written = members := by
    clear hkeys
    induction h with
    | nil => exact ⟨trivial, rfl⟩
    | @cons w m written members hfirst _ ih =>
        obtain ⟨hkey, hproper, hread⟩ := hfirst
        exact ⟨⟨hproper, ih.1⟩, congrArg₂ List.cons (Prod.ext hkey hread) ih.2⟩
  exact ⟨⟨hkeys, hmembers.1⟩, by rw [readBack, hmembers.2]⟩

theorem forall₂_spells {members : Members} (h : ∀ m ∈ members, m.2.Whole) :
    List.Forall₂ (fun w m => w.1 = m.1 ∧ w.2.Spells m.2) members members :=
  List.forall₂_same.mpr fun m hm => ⟨rfl, (h m hm).spells⟩

/-- What a peer gets out of the output of a connection: the values of its lines. -/
def messages (output : List UInt8) : List (Except Problem Json) :=
  (segments output).map fun line => readAny (decodeLossy line)

/-- The value of a line is the first message, whatever follows. -/
theorem Says.messages_append {v : Json} {line : String} {text : List Char} (h : v.Says line text)
    (rest : List UInt8) : messages (encode line.toList ++ rest) = .ok v :: messages rest := by
  rw [messages, h.bytes, List.append_assoc, List.singleton_append,
    Framer.segments_newline h.newline_not_mem, List.map_cons, Text.Utf8.decodeLossy_encode, h.value,
    messages]

theorem messages_join {values : List Json} {lines : List String}
    (h : List.Forall₂ Writes values lines) :
    messages (encode (String.join lines).toList) = values.map .ok := by
  induction h with
  | nil => rfl
  | @cons v line values lines hline _ ih =>
      obtain ⟨text, hsays⟩ := hline.says
      rw [String.join_cons, String.toList_append, Text.Utf8.encode_append, hsays.messages_append,
        ih, List.map_cons]

/-- The value is an object with these members, in any order, and no others. -/
def HasMembers (v : Json) (expected : Members) : Prop :=
  ∃ members : Members, v = .object members ∧ members.Perm expected

theorem hasMembers_ofMembers {members : Members} (h : (members.map Prod.fst).Nodup) :
    (Json.ofMembers members).HasMembers members :=
  ⟨_, rfl, Members.foldl_insert_perm [] (by simpa using h)⟩

end Json

/-! ## What replies say -/

/-- The numbers are in range and none has a fraction. A cost that is not finite is no number. -/
structure Usage.Whole (u : Usage) : Prop where
  input : u.inputTokens ≤ maxWord64
  output : u.outputTokens ≤ maxWord64
  cost : ∀ cost ∈ u.cost, cost.isFinite = false

inductive Event.Shows : Event → Json → Prop
  | partialContent {text : String} {v : Json}
      (h : v.HasMembers [("type", .string "partial_content"), ("text", .string text)]) :
      Shows (.partialContent text) v
  | toolInvocation {call : ToolCall} {v : Json}
      (h : v.HasMembers [("type", .string "tool_invocation"), ("name", .string call.name),
        ("arguments", .object call.arguments)]) : Shows (.toolInvocation call) v
  | completion {usage : Usage} {v : Json}
      (h : v.HasMembers [("type", .string "completion"), ("terminal", .bool true),
        ("usage", usage.toJson)]) : Shows (.completion usage) v
  | failed {message : String} {v : Json}
      (h : v.HasMembers [("type", .string "error"), ("message", .string message),
        ("decode_failure", .bool false)]) : Shows (.failed message) v
  | undecodable {message line : String} {v : Json}
      (h : v.HasMembers [("type", .string "error"), ("message", .string message),
        ("raw_line", .string line), ("decode_failure", .bool true)]) :
      Shows (.undecodable message line) v

theorem Event.shows_toJson (e : Event) : e.Shows e.toJson := by
  cases e with
  | partialContent => exact .partialContent (Json.hasMembers_ofMembers (by simp))
  | toolInvocation => exact .toolInvocation (Json.hasMembers_ofMembers (by simp))
  | completion => exact .completion (Json.hasMembers_ofMembers (by simp))
  | failed => exact .failed (Json.hasMembers_ofMembers (by simp))
  | undecodable => exact .undecodable (Json.hasMembers_ofMembers (by simp))

def Event.Whole : Event → Prop
  | toolInvocation call => (Json.object call.arguments).Whole
  | completion usage => usage.Whole
  | partialContent _ | failed _ | undecodable _ _ => True

structure Response.Whole (r : Response) : Prop where
  calls : ∀ call ∈ r.toolCalls, (Json.object call.arguments).Whole
  usage : r.usage.Whole
  decodeFailures : r.decodeFailures ≤ maxWord64

theorem Usage.Whole.members {u : Usage} (h : u.Whole) : ∀ m ∈ u.members, m.2.Whole := by
  have hcost : ∀ cost ∈ u.cost, (Json.ofBinary64 cost).Whole := by
    intro cost hcost
    rw [Json.ofBinary64, h.cost cost hcost]
    exact trivial
  rw [Usage.members]
  refine List.forall_mem_append.mpr ⟨?_, ?_⟩
  · simp [Json.whole_ofNat h.input, Json.whole_ofNat h.output]
  · cases hsome : u.cost with
    | none => simp
    | some cost => simp [hcost cost hsome]

theorem Usage.nodup_keys (u : Usage) : (u.members.map Prod.fst).Nodup := by
  rw [Usage.members]
  cases u.cost <;> simp

theorem Verdict.whole_toJson (v : Verdict) : v.toJson.Whole := by
  cases v <;> exact Json.whole_ofMembers (by simp)

theorem Response.Whole.toJson {r : Response} (h : r.Whole) : r.toJson.Whole := by
  have hcalls : (Json.array (r.toolCalls.map ToolCall.toJson)).Whole := by
    refine Json.wholeItems_iff.mpr fun v hv => ?_
    obtain ⟨call, hcall, rfl⟩ := List.mem_map.mp hv
    exact Json.whole_ofMembers (by simp [h.calls call hcall])
  have husage : r.usage.toJson.Whole := Json.whole_ofMembers h.usage.members
  refine Json.whole_ofMembers ?_
  simp [hcalls, husage, r.outcome.whole_toJson, Json.whole_ofNat h.decodeFailures]

/-- An event is written as a value with its members in an order of their own. -/
theorem Event.Whole.spells {e : Event} (h : e.Whole) : (e.shape .object).Spells e.toJson := by
  cases e with
  | partialContent text => exact Json.spells_object (by simp) (Json.forall₂_spells (by simp))
  | toolInvocation call =>
      have hcall : (Json.object call.arguments).Whole := h
      exact Json.spells_object (by simp) (Json.forall₂_spells (by simp [hcall]))
  | completion usage =>
      have husage :=
        Json.spells_object usage.nodup_keys (Json.forall₂_spells (Usage.Whole.members h))
      have hkind := (Json.whole_string "completion").spells
      have hterminal := (Json.whole_bool true).spells
      exact Json.spells_object (by simp)
        (.cons ⟨rfl, hkind⟩ (.cons ⟨rfl, hterminal⟩ (.cons ⟨rfl, husage⟩ .nil)))
  | failed message => exact Json.spells_object (by simp) (Json.forall₂_spells (by simp))
  | undecodable message line => exact Json.spells_object (by simp) (Json.forall₂_spells (by simp))

namespace Server

open Correlation (Id)

namespace Reply

/-- All numbers of a reply are integers; identifiers and moments are written as values, too. -/
def Whole (name : Id → Json) (stamp : Duration → Json) : Reply → Prop
  | event e => e.Whole
  | response r => r.Whole
  | sessions infos => ∀ i ∈ infos,
      (name i.id).Whole ∧ (stamp i.connectedAt).Whole ∧ i.idleSeconds ≤ maxWord64
  | pong | error _ => True

theorem whole_sessionsJson {name : Id → Json} {stamp : Duration → Json}
    {infos : List (Session.Info Id)} (h : (sessions infos).Whole name stamp) :
    (sessionsJson name stamp infos).Whole := by
  have hitems : (Json.array (infos.map fun i => .ofMembers [("session_id", name i.id),
      ("connected_at", stamp i.connectedAt), ("idle_seconds", .ofNat i.idleSeconds)])).Whole := by
    refine Json.wholeItems_iff.mpr fun v hv => ?_
    obtain ⟨i, hi, rfl⟩ := List.mem_map.mp hv
    obtain ⟨hname, hstamp, hidle⟩ := h i hi
    exact Json.whole_ofMembers (by simp [hname, hstamp, Json.whole_ofNat hidle])
  exact Json.whole_ofMembers (by simpa using hitems)

theorem spells_members {ok : Bool} {key : String} {w v : Json} (hkey : key ≠ "ok")
    (h : w.Spells v) : (Json.object (members ok key w)).Spells (.ofMembers (members ok key v)) := by
  refine Json.spells_object (by simp [members, hkey.symm]) ?_
  exact .cons ⟨rfl, (Json.whole_bool ok).spells⟩ (.cons ⟨rfl, h⟩ .nil)

theorem Whole.writes {name : Id → Json} {stamp : Duration → Json} {r : Reply}
    (h : r.Whole name stamp) : (r.toJson name stamp).Writes (r.line name stamp) := by
  refine ⟨r.shape .object name stamp, ?_, rfl⟩
  cases r with
  | event e => exact spells_members (by decide) (Event.Whole.spells h)
  | pong =>
      exact spells_members (by decide) (Json.whole_ofMembers (by simp)).spells
  | response r =>
      have hdata : (Json.ofMembers [("response", r.toJson)]).Whole :=
        Json.whole_ofMembers (by simpa using Response.Whole.toJson h)
      exact spells_members (by decide) hdata.spells
  | sessions infos => exact spells_members (by decide) (whole_sessionsJson h).spells
  | error text => exact spells_members (by decide) (Json.whole_string text).spells

/-- What the value of a reply says: whether the command has not failed, the key of what else there
is to say, and that. -/
inductive Tells (name : Id → Json) (stamp : Duration → Json) : Reply → Bool → String → Json → Prop
  | event {e : Event} {v : Json} (h : e.Shows v) : Tells name stamp (.event e) true "event" v
  | pong {v : Json} (h : v.HasMembers [("pong", .bool true)]) :
      Tells name stamp .pong true "data" v
  | response {r : Response} {v : Json} (h : v.HasMembers [("response", r.toJson)]) :
      Tells name stamp (.response r) true "data" v
  | sessions {infos : List (Session.Info Id)} {v : Json} {items : List Json}
      (h : v.HasMembers [("sessions", .array items)])
      (hitems : List.Forall₂ (fun (i : Session.Info Id) item => item.HasMembers
        [("session_id", name i.id), ("connected_at", stamp i.connectedAt),
          ("idle_seconds", .ofNat i.idleSeconds)]) infos items) :
      Tells name stamp (.sessions infos) true "data" v
  | error {text : String} : Tells name stamp (.error text) false "error" (.string text)

theorem exists_tells (name : Id → Json) (stamp : Duration → Json) (r : Reply) :
    ∃ ok key v, (r.toJson name stamp).HasMembers [("ok", .bool ok), (key, v)] ∧
      r.Tells name stamp ok key v := by
  have hmembers : ∀ {ok : Bool} {key : String} {v : Json}, key ≠ "ok" →
      (Json.ofMembers (members ok key v)).HasMembers [("ok", .bool ok), (key, v)] := by
    intro ok key v hkey
    exact Json.hasMembers_ofMembers (by simp [members, hkey.symm])
  cases r with
  | event e => exact ⟨_, _, _, hmembers (by decide), .event e.shows_toJson⟩
  | pong => exact ⟨_, _, _, hmembers (by decide), .pong (Json.hasMembers_ofMembers (by simp))⟩
  | response r =>
      exact ⟨_, _, _, hmembers (by decide), .response (Json.hasMembers_ofMembers (by simp))⟩
  | sessions infos =>
      refine ⟨_, _, _, hmembers (by decide), .sessions (Json.hasMembers_ofMembers (by simp)) ?_⟩
      rw [List.forall₂_map_right_iff]
      exact List.forall₂_same.mpr fun i _ => Json.hasMembers_ofMembers (by simp)
  | error text => exact ⟨_, _, _, hmembers (by decide), .error⟩

/-- What a connection carries to its peer. Each reply is one line, and the line says its value; so
it is for a success with any data. The value has two members: `ok`, and one for the event, the data
or the error. It does not matter in which order the members of objects are written. Cut at its
newlines, the output of a connection gives the values of its replies. -/
structure Carried (name : Id → Json) (stamp : Duration → Json) : Prop where
  reply : ∀ r : Reply, r.Whole name stamp →
    ∃ text, (r.toJson name stamp).Says (r.line name stamp) text
  shown : ∀ r : Reply, ∃ ok key v,
    (r.toJson name stamp).HasMembers [("ok", .bool ok), (key, v)] ∧ r.Tells name stamp ok key v
  data : ∀ data : Json, data.Whole → ∃ text, (Json.ofMembers (members true "data" data)).Says
    ((Json.object (members true "data" data)).print ++ "\n") text
  anyOrder : ∀ (v : Json) (line : String), v.Writes line → ∃ text, v.Says line text
  output : ∀ replies : List Reply, (∀ r ∈ replies, r.Whole name stamp) →
    Json.messages (encode (String.join (replies.map (line name stamp))).toList) =
      replies.map fun r => .ok (r.toJson name stamp)

/-- Every reply without fractions is one line that is read back as the reply. -/
theorem carried (name : Id → Json) (stamp : Duration → Json) : Carried name stamp where
  reply _ h := h.writes.says
  shown := exists_tells name stamp
  data _ h := Json.Writes.says ⟨_, spells_members (by decide) h.spells, rfl⟩
  anyOrder _ _ h := h.says
  output replies h := by
    have hlines : List.Forall₂ Json.Writes (replies.map (toJson name stamp))
        (replies.map (line name stamp)) := by
      rw [List.forall₂_map_left_iff, List.forall₂_map_right_iff]
      exact List.forall₂_same.mpr fun r hr => (h r hr).writes
    rw [Json.messages_join hlines, List.map_map]
    rfl

/-- A newline of the text is none of the line. -/
example : (error "two\nlines").line (fun _ => .null) (fun _ => .null) =
    "\x7b\"ok\":false,\"error\":\"two\\nlines\"\x7d\n" := by decide

end Reply

end Server

end AgentGateway
