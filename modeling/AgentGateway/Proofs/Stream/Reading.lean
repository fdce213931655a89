import AgentGateway.Proofs.Stream.Envelope
import AgentGateway.Text.Blank

/-!
# The record that an object holds

A line that is the compact text of an object (`CompactObject`) is decoded from its members alone,
whatever their order. What record the members make (`RecordOf`) and what usage (`UsageOf`) is said
member by member; decoding the line gives that record with that usage, and nothing else
(`CompactObject.decode_iff`).
-/

namespace AgentGateway

open Json

/-! ## Decoding a field -/

namespace Json

def members? : Json → Option Members
  | object members =>
    some ((readBackMembers members).foldl (fun done m => Members.insert done m.1 m.2) [])
  | _ => none

theorem asText_readBack (v : Json) : (asText v.readBack).toOption = v.string? := by
  cases v <;> rfl

theorem asBool_readBack (v : Json) : (asBool v.readBack).toOption = v.bool? := by
  cases v <;> rfl

theorem asMembers_readBack (v : Json) : (asMembers v.readBack).toOption = v.members? := by
  cases v <;> rfl

theorem asReal_readBack (v : Json) : (asReal v.readBack).toOption = v.real? := by
  cases v <;> rfl

theorem toOption_map {ε α β : Type} (f : α → β) (x : Except ε α) :
    (x.map f).toOption = x.toOption.map f := by
  cases x <;> rfl

theorem toOption_bind {ε α β : Type} (x : Except ε α) (f : α → Except ε β) :
    (x >>= f).toOption = x.toOption.bind fun a => (f a).toOption := by
  cases x <;> rfl

theorem toOption_require {α : Type} (name : String) (a : Option α) :
    (require name a).toOption = a := by
  cases a <;> rfl

/-- A field that must be there is there and of the right kind. -/
theorem slot_bind {α β : Type} (name : String) (of : Json → Option α)
    (members : List (String × Json)) (f : α → Option β) :
    ((slot none name of members).bind fun a => a.bind f) =
      ((members.lookup name).bind of).bind f := by
  unfold slot
  cases members.lookup name with
  | none => rfl
  | some v => simp [Option.bind_map]

theorem asOption_readBack {α : Type} {decode : Json → Except Cause α} {of : Json → Option α}
    (h : ∀ v, (decode v.readBack).toOption = of v) (v : Json) :
    (asOption decode v.readBack).toOption = optional? of v := by
  cases v with
  | null => rfl
  | _ => exact (toOption_map some _).trans (congrArg (Option.map some) (h _))

end Json

namespace Record

theorem field?_gathered {α : Type} {members : List (String × Json)}
    (h : (members.map Prod.fst).Nodup) (name : String) (hkind : name ≠ "type")
    (husage : name ≠ "usage") {decode : Json → Except Cause α} {of : Json → Option α}
    (hof : ∀ v, (decode v.readBack).toOption = of v) :
    (field? (Envelope.gathered [] members) name decode).toOption = slot none name of members := by
  rw [field?, Envelope.get?_gathered h name hkind husage, slot]
  cases members.lookup name with
  | none => rfl
  | some v => exact (toOption_map some _).trans (congrArg (Option.map some) (hof v))

variable {members : List (String × Json)}

theorem ofFragment_gathered (h : (members.map Prod.fst).Nodup) :
    (ofFragment (Envelope.gathered [] members)).toOption =
      ((members.lookup "text").bind string?).map .fragment := by
  have htext := field?_gathered h "text" (by decide) (by decide) asText_readBack
  simp only [ofFragment, toOption_bind, htext, toOption_require]
  rw [slot_bind, Option.map_eq_bind]
  rfl

theorem ofError_gathered (h : (members.map Prod.fst).Nodup) :
    (ofError (Envelope.gathered [] members)).toOption =
      ((members.lookup "message").bind string?).map .error := by
  have hmessage := field?_gathered h "message" (by decide) (by decide) asText_readBack
  simp only [ofError, toOption_bind, hmessage, toOption_require]
  rw [slot_bind, Option.map_eq_bind]
  rfl

theorem ofResult_gathered (h : (members.map Prod.fst).Nodup) :
    (ofResult (Envelope.gathered [] members)).toOption = (do
      let isError ← slot none "is_error" bool? members
      let text ← slot none "result" (optional? string?) members
      let totalCost ← slot none "total_cost_usd" (optional? real?) members
      return .result (isError.getD false) text.join totalCost.join) := by
  have hflag := field?_gathered h "is_error" (by decide) (by decide) asBool_readBack
  have htext := field?_gathered h "result" (by decide) (by decide)
    (asOption_readBack asText_readBack)
  have hcost := field?_gathered h "total_cost_usd" (by decide) (by decide)
    (asOption_readBack asReal_readBack)
  simp only [ofResult, toOption_bind, hflag, htext, hcost]
  rfl

/-- The arguments of a tool call, which may stand under either of two names. -/
def arguments? (members : List (String × Json)) : Option Members :=
  match members.lookup "arguments", members.lookup "input" with
  | some v, none | none, some v => v.members?
  | none, none => some []
  | some _, some _ => none

theorem arguments_gathered (h : (members.map Prod.fst).Nodup) :
    (Record.arguments (Envelope.gathered [] members)).toOption = arguments? members := by
  have hgiven := field?_gathered h "arguments" (by decide) (by decide)
    asMembers_readBack
  have hinput := Envelope.get?_gathered h "input" (by decide) (by decide) []
  rw [Record.arguments, toOption_bind, hgiven, hinput, slot, arguments?]
  cases members.lookup "arguments" with
  | none =>
      cases members.lookup "input" with
      | none => rfl
      | some v => exact asMembers_readBack v
  | some v =>
      cases members.lookup "input" with
      | none =>
          change ((v.members?.map some).bind _) = v.members?
          cases v.members? <;> rfl
      | some w =>
          change ((v.members?.map some).bind _) = none
          cases v.members? <;> rfl

theorem ofToolUse_gathered (h : (members.map Prod.fst).Nodup) :
    (ofToolUse (Envelope.gathered [] members)).toOption =
      (arguments? members).bind fun arguments =>
        ((members.lookup "name").bind string?).map fun name => .toolUse ⟨name, arguments⟩ := by
  have hname := field?_gathered h "name" (by decide) (by decide) asText_readBack
  simp only [ofToolUse, toOption_bind, hname, arguments_gathered h, toOption_require, slot_bind,
    Option.map_eq_bind]
  rfl

def ofMembers? (members : List (String × Json)) : Option (Record × Option Usage) :=
  (Envelope.ofMembers? members).bind fun e => (ofEnvelope e).toOption.map fun r => (r, e.usage)

theorem decode_chars (hv : (Json.object members).Proper)
    (hdepth : (Json.object members).depth < depthLimit) :
    (Record.decode (Json.object members).chars).toOption = ofMembers? members := by
  rw [ofMembers?, ← Envelope.parse_chars hv hdepth, Record.decode]
  cases Envelope.parse (Json.object members).chars with
  | error p => rfl
  | ok e =>
      simp only [Except.toOption, Option.bind_some]
      cases ofEnvelope e <;> rfl

end Record

/-! ## What the members say -/

/-- The line is the compact text of an object, possibly between blanks. No key stands twice, and
the nesting is within the limit of the reader. -/
structure CompactObject (line : List Char) (members : List (String × Json)) : Prop where
  text : Text.trim line = (Json.object members).chars
  proper : (Json.object members).Proper
  depth : (Json.object members).depth < depthLimit

/-- The value of a field that may be left out. -/
inductive DefaultedField {α : Type} (members : List (String × Json)) (name : String)
    (of : Json → Option α) (default : α) : α → Prop
  | absent (h : members.lookup name = none) : DefaultedField members name of default default
  | given {v : Json} {a : α} (h : members.lookup name = some v) (ha : of v = some a) :
      DefaultedField members name of default a

/-- The value of a field that may be left out or `null`. -/
inductive NullableField {α : Type} (members : List (String × Json)) (name : String)
    (of : Json → Option α) : Option α → Prop
  | absent (h : members.lookup name = none) : NullableField members name of none
  | null (h : members.lookup name = some .null) : NullableField members name of none
  | given {v : Json} {a : α} (h : members.lookup name = some v) (ha : of v = some a) :
      NullableField members name of (some a)

/-- What a tool call is given: an object under one of two names, or nothing. -/
inductive GivenArguments (members : List (String × Json)) : Members → Prop
  | none (harguments : members.lookup "arguments" = none) (hinput : members.lookup "input" = none) :
      GivenArguments members []
  | arguments {given : List (String × Json)} {arguments : Members}
      (harguments : members.lookup "arguments" = some (.object given))
      (hinput : members.lookup "input" = none)
      (hread : (Json.object given).readBack = .object arguments) : GivenArguments members arguments
  | input {given : List (String × Json)} {arguments : Members}
      (harguments : members.lookup "arguments" = none)
      (hinput : members.lookup "input" = some (.object given))
      (hread : (Json.object given).readBack = .object arguments) : GivenArguments members arguments

/-- The record that the members make. -/
inductive RecordOf (members : List (String × Json)) : Record → Prop
  | fragment {kind text : String} (htype : members.lookup "type" = some (.string kind))
      (hkind : kind = "delta" ∨ kind = "text")
      (htext : members.lookup "text" = some (.string text)) : RecordOf members (.fragment text)
  | toolUse {call : ToolCall} (htype : members.lookup "type" = some (.string "tool_use"))
      (hname : members.lookup "name" = some (.string call.name))
      (harguments : GivenArguments members call.arguments) : RecordOf members (.toolUse call)
  | stop (htype : members.lookup "type" = some (.string "stop")) : RecordOf members .stop
  | result {isError : Bool} {text : Option String} {totalCost : Option Binary64}
      (htype : members.lookup "type" = some (.string "result"))
      (hflag : DefaultedField members "is_error" bool? false isError)
      (htext : NullableField members "result" string? text)
      (hcost : NullableField members "total_cost_usd" real? totalCost) :
      RecordOf members (.result isError text totalCost)
  | error {message : String} (htype : members.lookup "type" = some (.string "error"))
      (hmessage : members.lookup "message" = some (.string message)) :
      RecordOf members (.error message)
  | unknown {kind : String} (htype : members.lookup "type" = some (.string kind))
      (hkind : kind ∉ ["delta", "text", "tool_use", "stop", "result", "error"]) :
      RecordOf members (.unknown kind)

/-- The usage that the members of a report make: counts of 64 bits, zero where they are left out,
and a cost that may be left out or `null`. -/
structure ReportOf (fields : List (String × Json)) (u : Usage) : Prop where
  input : DefaultedField fields "input_tokens" count? 0 u.inputTokens
  output : DefaultedField fields "output_tokens" count? 0 u.outputTokens
  cost : NullableField fields "cost_usd" real? u.cost

/-- The usage that a report makes which is the list of its fields: two counts and a cost, of which
the last ones may be left out. -/
inductive ReportOfItems : List Json → Usage → Prop
  | none : ReportOfItems [] ⟨0, 0, none⟩
  | input {v : Json} {n : Nat} (hinput : count? v = some n) : ReportOfItems [v] ⟨n, 0, none⟩
  | output {v w : Json} {n m : Nat} (hinput : count? v = some n) (houtput : count? w = some m) :
      ReportOfItems [v, w] ⟨n, m, none⟩
  | cost {v w x : Json} {n m : Nat} {cost : Option Binary64} (hinput : count? v = some n)
      (houtput : count? w = some m) (hcost : optional? real? x = some cost) :
      ReportOfItems [v, w, x] ⟨n, m, cost⟩

/-- The usage that the members of a line report. -/
inductive UsageOf (members : List (String × Json)) : Option Usage → Prop
  | absent (h : members.lookup "usage" = none) : UsageOf members none
  | null (h : members.lookup "usage" = some .null) : UsageOf members none
  | report {fields : List (String × Json)} {u : Usage}
      (h : members.lookup "usage" = some (.object fields)) (hu : ReportOf fields u) :
      UsageOf members (some u)
  | items {items : List Json} {u : Usage} (h : members.lookup "usage" = some (.array items))
      (hu : ReportOfItems items u) : UsageOf members (some u)

/-! ## Decoding the members -/

namespace Json

theorem string?_eq_some {v : Json} {s : String} : v.string? = some s ↔ v = .string s := by
  cases v <;> simp [string?]

theorem bind_string?_eq_some {name s : String} {members : List (String × Json)} :
    (members.lookup name).bind string? = some s ↔ members.lookup name = some (.string s) := by
  rw [Option.bind_eq_some_iff]
  constructor
  · rintro ⟨v, hv, hs⟩
    rw [hv, string?_eq_some.mp hs]
  · intro h
    exact ⟨.string s, h, rfl⟩

theorem members?_eq_some {v : Json} {read : Members} :
    v.members? = some read ↔
      ∃ given, v = .object given ∧ (Json.object given).readBack = .object read := by
  cases v with
  | object given =>
      constructor
      · intro h
        exact ⟨given, rfl, congrArg Json.object (Option.some.inj h)⟩
      · rintro ⟨_, heq, hread⟩
        cases heq
        exact congrArg some (Json.object.inj hread)
  | _ => simp [members?]

theorem getD_slot {α : Type} {members : List (String × Json)} {name : String}
    {of : Json → Option α} {default a : α} :
    (slot none name of members).map (·.getD default) = some a ↔
      DefaultedField members name of default a := by
  unfold slot
  constructor
  · intro h
    split at h
    next hlookup =>
      cases h
      exact .absent hlookup
    next v hlookup =>
      rw [Option.map_map] at h
      obtain ⟨b, hb, rfl⟩ := Option.map_eq_some_iff.mp h
      exact .given hlookup hb
  · rintro (hlookup | ⟨hlookup, ha⟩)
    · rw [hlookup]
      rfl
    · rw [hlookup]
      simp [ha]

theorem join_slot {α : Type} {members : List (String × Json)} {name : String}
    {of : Json → Option α} (hnull : of .null = none) {a : Option α} :
    (slot none name (optional? of) members).map Option.join = some a ↔
      NullableField members name of a := by
  unfold slot
  constructor
  · intro h
    split at h
    next hlookup =>
      cases h
      exact .absent hlookup
    next v hlookup =>
      rw [Option.map_map] at h
      obtain ⟨b, hb, rfl⟩ := Option.map_eq_some_iff.mp h
      cases v with
      | null =>
          cases hb
          exact .null hlookup
      | _ =>
          obtain ⟨c, hc, rfl⟩ := Option.map_eq_some_iff.mp hb
          exact .given hlookup hc
  · rintro (hlookup | hlookup | ⟨hlookup, ha⟩)
    · rw [hlookup]
      rfl
    · rw [hlookup]
      rfl
    · rw [hlookup]
      rename_i v _
      cases v with
      | null => rw [hnull] at ha; cases ha
      | _ => simp [optional?, ha]

end Json

theorem Record.arguments?_eq_some {members : List (String × Json)} {read : Members} :
    Record.arguments? members = some read ↔ GivenArguments members read := by
  unfold Record.arguments?
  constructor
  · intro h
    split at h
    · next v harguments hinput =>
      obtain ⟨given, rfl, hread⟩ := members?_eq_some.mp h
      exact .arguments harguments hinput hread
    · next v harguments hinput =>
      obtain ⟨given, rfl, hread⟩ := members?_eq_some.mp h
      exact .input harguments hinput hread
    · next harguments hinput =>
      cases h
      exact .none harguments hinput
    · cases h
  · rintro (⟨harguments, hinput⟩ | ⟨harguments, hinput, hread⟩ | ⟨harguments, hinput, hread⟩)
    · rw [harguments, hinput]
    · rw [harguments, hinput]
      exact members?_eq_some.mpr ⟨_, rfl, hread⟩
    · rw [harguments, hinput]
      exact members?_eq_some.mpr ⟨_, rfl, hread⟩

theorem Record.ofResult_iff {members : List (String × Json)} (h : (members.map Prod.fst).Nodup)
    {r : Record} : (ofResult (Envelope.gathered [] members)).toOption = some r ↔
      ∃ isError text totalCost, r = .result isError text totalCost ∧
        DefaultedField members "is_error" bool? false isError ∧
        NullableField members "result" string? text ∧
        NullableField members "total_cost_usd" real? totalCost := by
  rw [ofResult_gathered h]
  simp only [← getD_slot, ← join_slot (show string? .null = none from rfl),
    ← join_slot (show real? .null = none from rfl)]
  cases slot none "is_error" bool? members <;>
    cases slot none "result" (optional? string?) members <;>
    cases slot none "total_cost_usd" (optional? real?) members <;> simp [eq_comm]

theorem DefaultedField.bool_iff {members : List (String × Json)} {name : String} {b : Bool}
    (h : DefaultedField members name bool? false b) :
    b = true ↔ members.lookup name = some (.bool true) := by
  cases h with
  | absent hlookup => simp [hlookup]
  | @given v _ hlookup hb =>
      cases v with
      | bool b' =>
          cases hb
          simp [hlookup]
      | _ => cases hb

theorem NullableField.eq_bind {α : Type} {members : List (String × Json)} {name : String}
    {of : Json → Option α} (hnull : of .null = none) {a : Option α}
    (h : NullableField members name of a) : a = (members.lookup name).bind of := by
  cases h with
  | absent hlookup => simp [hlookup]
  | null hlookup => simp [hlookup, hnull]
  | given hlookup ha => simp [hlookup, ha]

theorem RecordOf.exists_result {members : List (String × Json)} {r : Record}
    (h : RecordOf members r) (htype : members.lookup "type" = some (.string "result")) :
    ∃ isError text totalCost, r = .result isError text totalCost ∧
      DefaultedField members "is_error" bool? false isError ∧
      NullableField members "result" string? text ∧
      NullableField members "total_cost_usd" real? totalCost := by
  cases h with
  | result _ hflag htext hcost => exact ⟨_, _, _, rfl, hflag, htext, hcost⟩
  | fragment | toolUse | stop | error | unknown => simp_all

theorem RecordOf.exists_type {members : List (String × Json)} {r : Record}
    (h : RecordOf members r) : ∃ kind, members.lookup "type" = some (.string kind) := by
  cases h <;> exact ⟨_, ‹_›⟩

theorem Record.ofEnvelope_iff {members : List (String × Json)}
    (h : (members.map Prod.fst).Nodup) {kind : String}
    (hkind : members.lookup "type" = some (.string kind)) (usage : Option Usage) (r : Record) :
    (ofEnvelope ⟨kind, usage, Envelope.gathered [] members⟩).toOption = some r ↔
      RecordOf members r := by
  constructor
  · intro hr
    unfold ofEnvelope at hr
    split_ifs at hr with hfragment htool hstop hresult herror
    · rw [ofFragment_gathered h] at hr
      obtain ⟨text, htext, rfl⟩ := Option.map_eq_some_iff.mp hr
      exact .fragment hkind hfragment (bind_string?_eq_some.mp htext)
    · rw [ofToolUse_gathered h] at hr
      obtain ⟨arguments, harguments, hr⟩ := Option.bind_eq_some_iff.mp hr
      obtain ⟨name, hname, rfl⟩ := Option.map_eq_some_iff.mp hr
      exact .toolUse (htool ▸ hkind) (bind_string?_eq_some.mp hname)
        (arguments?_eq_some.mp harguments)
    · cases hr
      exact .stop (hstop ▸ hkind)
    · obtain ⟨_, _, _, rfl, hflag, htext, hcost⟩ := (ofResult_iff h).mp hr
      exact .result (hresult ▸ hkind) hflag htext hcost
    · rw [ofError_gathered h] at hr
      obtain ⟨message, hmessage, rfl⟩ := Option.map_eq_some_iff.mp hr
      exact .error (herror ▸ hkind) (bind_string?_eq_some.mp hmessage)
    · cases hr
      refine .unknown hkind ?_
      obtain ⟨hdelta, htext⟩ := not_or.mp hfragment
      simpa using ⟨hdelta, htext, htool, hstop, hresult, herror⟩
  · have hsame : ∀ {kind'}, members.lookup "type" = some (.string kind') → kind = kind' :=
      fun h' => Json.string.inj (Option.some.inj (hkind.symm.trans h'))
    rintro (⟨htype, hfragment, htext⟩ | ⟨htype, hname, harguments⟩ | htype |
      ⟨htype, hflag, htext, hcost⟩ | ⟨htype, hmessage⟩ | ⟨htype, hother⟩)
    · cases hsame htype
      rw [ofEnvelope, if_pos hfragment, ofFragment_gathered h, bind_string?_eq_some.mpr htext]
      rfl
    · cases hsame htype
      change (ofToolUse _).toOption = _
      rw [ofToolUse_gathered h, arguments?_eq_some.mpr harguments,
        bind_string?_eq_some.mpr hname]
      rfl
    · cases hsame htype
      rfl
    · cases hsame htype
      exact (ofResult_iff h).mpr ⟨_, _, _, rfl, hflag, htext, hcost⟩
    · cases hsame htype
      change (ofError _).toOption = _
      rw [ofError_gathered h, bind_string?_eq_some.mpr hmessage]
      rfl
    · cases hsame htype
      simp only [List.mem_cons, List.not_mem_nil, or_false, not_or] at hother
      obtain ⟨hdelta, htext, htool, hstop, hresult, herror⟩ := hother
      simp [ofEnvelope, hdelta, htext, htool, hstop, hresult, herror, Except.toOption]

theorem Envelope.usage?_iff {fields : List (String × Json)} {u : Usage} :
    Envelope.usage? (.object fields) = some u ↔ ReportOf fields u := by
  have hreport : ReportOf fields u ↔
      DefaultedField fields "input_tokens" count? 0 u.inputTokens ∧
        DefaultedField fields "output_tokens" count? 0 u.outputTokens ∧
        NullableField fields "cost_usd" real? u.cost :=
    ⟨fun h => ⟨h.input, h.output, h.cost⟩, fun h => ⟨h.1, h.2.1, h.2.2⟩⟩
  have hfields : Envelope.usage? (.object fields) = (do
      let input ← slot none "input_tokens" count? fields
      let output ← slot none "output_tokens" count? fields
      let cost ← slot none "cost_usd" (optional? real?) fields
      return ⟨input.getD 0, output.getD 0, cost.join⟩) := by
    change Option.map _ (Option.bind _ fun input => Option.bind _ fun output =>
      Option.bind _ fun cost => _) = _
    cases slot none "input_tokens" count? fields <;>
      cases slot none "output_tokens" count? fields <;>
      cases slot none "cost_usd" (optional? real?) fields <;> rfl
  rw [hreport, hfields, ← getD_slot, ← getD_slot, ← join_slot (show real? .null = none from rfl)]
  obtain ⟨input, output, cost⟩ := u
  cases slot none "input_tokens" count? fields <;>
    cases slot none "output_tokens" count? fields <;>
    cases slot none "cost_usd" (optional? real?) fields <;> simp

theorem Envelope.usage?_items_iff {items : List Json} {u : Usage} :
    Envelope.usage? (.array items) = some u ↔ ReportOfItems items u := by
  constructor
  · intro h
    obtain ⟨u', hread, hend⟩ := Option.bind_eq_some_iff.mp h
    obtain ⟨hnone, heq⟩ := Option.ite_none_right_eq_some.mp hend
    cases heq
    obtain ⟨input, hinput, hread⟩ := Option.bind_eq_some_iff.mp hread
    obtain ⟨output, houtput, hread⟩ := Option.bind_eq_some_iff.mp hread
    obtain ⟨cost, hcost, hread⟩ := Option.bind_eq_some_iff.mp hread
    cases hread
    match items, hnone with
    | [], _ =>
        cases hinput
        cases houtput
        cases hcost
        exact .none
    | [v], _ =>
        obtain ⟨n, hn, rfl⟩ := Option.map_eq_some_iff.mp hinput
        cases houtput
        cases hcost
        exact .input hn
    | [v, w], _ =>
        obtain ⟨n, hn, rfl⟩ := Option.map_eq_some_iff.mp hinput
        obtain ⟨m, hm, rfl⟩ := Option.map_eq_some_iff.mp houtput
        cases hcost
        exact .output hn hm
    | [v, w, x], _ =>
        obtain ⟨n, hn, rfl⟩ := Option.map_eq_some_iff.mp hinput
        obtain ⟨m, hm, rfl⟩ := Option.map_eq_some_iff.mp houtput
        obtain ⟨c, hc, rfl⟩ := Option.map_eq_some_iff.mp hcost
        exact .cost hn hm hc
  · rintro (_ | hn | ⟨hn, hm⟩ | ⟨hn, hm, hc⟩)
    · rfl
    · simp [usage?, usageItems?, item?, hn]
    · simp [usage?, usageItems?, item?, hn, hm]
    · simp [usage?, usageItems?, item?, hn, hm, hc]

theorem Envelope.reported?_iff {members : List (String × Json)} {u : Option Usage} :
    Envelope.reported? members = some u ↔ UsageOf members u := by
  unfold Envelope.reported?
  constructor
  · intro h
    split at h
    next hlookup =>
      cases h
      exact .absent hlookup
    next v hlookup =>
      cases v with
      | null =>
          cases h
          exact .null hlookup
      | object fields =>
          obtain ⟨u, hu, rfl⟩ := Option.map_eq_some_iff.mp h
          exact .report hlookup (usage?_iff.mp hu)
      | array items =>
          obtain ⟨u, hu, rfl⟩ := Option.map_eq_some_iff.mp h
          exact .items hlookup (usage?_items_iff.mp hu)
      | _ => cases h
  · rintro (hlookup | hlookup | ⟨hlookup, hu⟩ | ⟨hlookup, hu⟩)
    · rw [hlookup]
    · rw [hlookup]
      rfl
    · rw [hlookup]
      change (Envelope.usage? _).map some = _
      rw [usage?_iff.mpr hu]
      rfl
    · rw [hlookup]
      change (Envelope.usage? _).map some = _
      rw [usage?_items_iff.mpr hu]
      rfl

theorem Record.ofMembers?_iff {members : List (String × Json)}
    (h : (members.map Prod.fst).Nodup) {r : Record} {u : Option Usage} :
    Record.ofMembers? members = some (r, u) ↔ RecordOf members r ∧ UsageOf members u := by
  rw [Record.ofMembers?, ← Envelope.reported?_iff]
  constructor
  · intro hd
    obtain ⟨e, he, hr⟩ := Option.bind_eq_some_iff.mp hd
    obtain ⟨kind, hkind, he⟩ := Option.bind_eq_some_iff.mp he
    obtain ⟨usage, husage, he⟩ := Option.bind_eq_some_iff.mp he
    cases he
    obtain ⟨r', hr', heq⟩ := Option.map_eq_some_iff.mp hr
    cases heq
    exact ⟨(ofEnvelope_iff h (bind_string?_eq_some.mp hkind) usage r).mp hr', husage⟩
  · rintro ⟨hr, hu⟩
    obtain ⟨kind, hkind⟩ := hr.exists_type
    rw [Envelope.ofMembers?, bind_string?_eq_some.mpr hkind, hu]
    simp only [Option.bind_eq_bind, Option.bind_some]
    exact Option.map_eq_some_iff.mpr ⟨r, (ofEnvelope_iff h hkind u r).mpr hr, rfl⟩

theorem Text.trim_of_ends {c d : Char} (hc : Text.isBlank c = false) (hd : Text.isBlank d = false)
    (middle : List Char) : Text.trim (c :: (middle ++ [d])) = c :: (middle ++ [d]) := by
  rw [Text.trim, List.dropWhile_cons_of_neg (by simp [hc]), Text.trimEnd]
  simp [hd]

theorem trim_chars_object (members : List (String × Json)) :
    Text.trim (Json.object members).chars = (Json.object members).chars := by
  simp only [chars, List.cons_append]
  exact Text.trim_of_ends (by decide) (by decide) _

namespace CompactObject

variable {line : List Char} {members : List (String × Json)}

theorem of_chars (hv : (Json.object members).Proper)
    (hdepth : (Json.object members).depth < depthLimit) :
    CompactObject (Json.object members).chars members :=
  ⟨trim_chars_object members, hv, hdepth⟩

theorem trim_isEmpty (h : CompactObject line members) : (Text.trim line).isEmpty = false := by
  obtain ⟨c, tail, hchars, -⟩ := exists_cons_chars h.proper
  rw [h.text, hchars]
  rfl

theorem decode_iff (h : CompactObject line members) (r : Record) (u : Option Usage) :
    Record.decode (Text.trim line) = .ok (r, u) ↔ RecordOf members r ∧ UsageOf members u := by
  rw [← Record.ofMembers?_iff h.proper.1, ← Record.decode_chars h.proper h.depth, h.text]
  cases Record.decode (Json.object members).chars <;> simp [Except.toOption]

end CompactObject

end AgentGateway
