import AgentGateway.Proofs.Stream.Consumption

/-!
# What an object is as a record

A line that is the compact text of an object gives an event that can be said of the members alone,
in whatever order they stand (`Transcript.Classified`): the type must be a string and the
usage sound, and then the fields that the type asks for decide between the event of that type and
a refusal. All other members are without effect.
-/

namespace AgentGateway

open Json

/-! ## The conditions on the members -/

/-- A usage report: counts of 64 bits, and a cost that is a number or `null`. -/
structure Measured (fields : List (String × Json)) : Prop where
  input : ∀ v ∈ fields.lookup "input_tokens", ∃ n ≤ maxWord64, v = .ofNat n
  output : ∀ v ∈ fields.lookup "output_tokens", ∃ n ≤ maxWord64, v = .ofNat n
  cost : ∀ v ∈ fields.lookup "cost_usd", v = .null ∨ ∃ n, v = .number n

/-- The members have a type, and a usage that is a report, `null` or left out. -/
structure Tagged (kind : String) (members : List (String × Json)) : Prop where
  type : members.lookup "type" = some (.string kind)
  usage : ∀ v ∈ members.lookup "usage", v = .null ∨ ∃ fields, v = .object fields ∧ Measured fields

/-- The fields of a result are of the right kinds. -/
structure Concluding (members : List (String × Json)) : Prop where
  isError : ∀ v ∈ members.lookup "is_error", ∃ b, v = .bool b
  text : ∀ v ∈ members.lookup "result", v = .null ∨ ∃ s, v = .string s
  totalCost : ∀ v ∈ members.lookup "total_cost_usd", v = .null ∨ ∃ n, v = .number n

namespace Json

theorem isSome_count? (v : Json) : v.count?.isSome = true ↔ ∃ n ≤ maxWord64, v = .ofNat n := by
  constructor
  · intro h
    match v with
    | .number (.integer n) =>
        rw [count?] at h
        split_ifs at h with hrange
        · exact ⟨n.toNat, by omega, by rw [ofNat, Int.toNat_of_nonneg hrange.1]⟩
        · cases h
    | .number (.real _) | .null | .bool _ | .string _ | .array _ | .object _ => cases h
  · rintro ⟨n, hn, rfl⟩
    have hrange : (0 : Int) ≤ n ∧ (n : Int) ≤ maxWord64 := by omega
    rw [ofNat, count?, if_pos hrange]
    rfl

theorem isSome_real? (v : Json) : v.real?.isSome = true ↔ ∃ n, v = .number n := by
  cases v <;> simp [real?]

theorem isSome_bool? (v : Json) : v.bool?.isSome = true ↔ ∃ b, v = .bool b := by
  cases v <;> simp [bool?]

theorem isSome_string? (v : Json) : v.string?.isSome = true ↔ ∃ s, v = .string s := by
  cases v <;> simp [string?]

theorem isSome_optional? {α : Type} (of : Json → Option α) (v : Json) :
    (optional? of v).isSome = true ↔ v = .null ∨ (of v).isSome = true := by
  cases v <;> simp [optional?]

theorem isSome_slot {α : Type} (name : String) (of : Json → Option α)
    (members : List (String × Json)) :
    (slot none name of members).isSome = true ↔
      ∀ v ∈ members.lookup name, (of v).isSome = true := by
  unfold slot
  cases members.lookup name <;> simp

end Json

theorem isSome_defaultedField {α : Type} {members : List (String × Json)} {name : String}
    {of : Json → Option α} (default : α) :
    (∃ a, DefaultedField members name of default a) ↔
      ∀ v ∈ members.lookup name, (of v).isSome = true := by
  simp only [← getD_slot, ← isSome_slot, ← Option.isSome_iff_exists, Option.isSome_map]

theorem isSome_nullableField {α : Type} {members : List (String × Json)} {name : String}
    {of : Json → Option α} (hnull : of .null = none) :
    (∃ a, NullableField members name of a) ↔
      ∀ v ∈ members.lookup name, v = .null ∨ (of v).isSome = true := by
  simp only [← join_slot hnull, ← isSome_optional?, ← isSome_slot, ← Option.isSome_iff_exists,
    Option.isSome_map]

theorem concluding_iff {members : List (String × Json)} :
    Concluding members ↔ (∃ flag, DefaultedField members "is_error" bool? false flag) ∧
      (∃ text, NullableField members "result" string? text) ∧
      (∃ cost, NullableField members "total_cost_usd" real? cost) := by
  rw [isSome_defaultedField, isSome_nullableField rfl, isSome_nullableField rfl]
  simp only [isSome_bool?, isSome_string?, isSome_real?]
  exact ⟨fun h => ⟨h.isError, h.text, h.totalCost⟩, fun ⟨h, h', h''⟩ => ⟨h, h', h''⟩⟩

theorem measured_iff {fields : List (String × Json)} :
    Measured fields ↔ ∃ u, ReportOf fields u := by
  have hparts : (∃ u, ReportOf fields u) ↔
      (∃ n, DefaultedField fields "input_tokens" count? 0 n) ∧
        (∃ n, DefaultedField fields "output_tokens" count? 0 n) ∧
        (∃ cost, NullableField fields "cost_usd" real? cost) :=
    ⟨fun ⟨_, h⟩ => ⟨⟨_, h.input⟩, ⟨_, h.output⟩, ⟨_, h.cost⟩⟩,
      fun ⟨⟨n, h⟩, ⟨n', h'⟩, ⟨cost, h''⟩⟩ => ⟨⟨n, n', cost⟩, h, h', h''⟩⟩
  rw [hparts, isSome_defaultedField, isSome_defaultedField, isSome_nullableField rfl]
  simp only [isSome_count?, isSome_real?]
  exact ⟨fun h => ⟨h.input, h.output, h.cost⟩, fun ⟨h, h', h''⟩ => ⟨h, h', h''⟩⟩

theorem UsageOf.measured {members : List (String × Json)} {u : Option Usage}
    (h : UsageOf members u) (hlist : ∀ items, members.lookup "usage" ≠ some (.array items)) :
    ∀ v ∈ members.lookup "usage",
      v = .null ∨ ∃ fields, v = .object fields ∧ Measured fields := by
  intro v hv
  cases h with
  | absent hlookup =>
      rw [hlookup] at hv
      cases hv
  | null hlookup =>
      rw [hlookup] at hv
      cases hv
      exact .inl rfl
  | report hlookup hu =>
      rw [hlookup] at hv
      cases hv
      exact .inr ⟨_, rfl, measured_iff.mpr ⟨_, hu⟩⟩
  | items hlookup => exact absurd hlookup (hlist _)

theorem Tagged.exists_usageOf {kind : String} {members : List (String × Json)}
    (h : Tagged kind members) : ∃ u, UsageOf members u := by
  cases hlookup : members.lookup "usage" with
  | none => exact ⟨none, .absent hlookup⟩
  | some v =>
      obtain rfl | ⟨fields, rfl, hmeasured⟩ := h.usage v hlookup
      · exact ⟨none, .null hlookup⟩
      · obtain ⟨u, hu⟩ := measured_iff.mp hmeasured
        exact ⟨some u, .report hlookup hu⟩

/-! ## Feeding the line -/

namespace Transcript

variable {t : Transcript} {members : List (String × Json)}

/-- The line of an object gives an event. -/
def Yields (t : Transcript) (members : List (String × Json)) (event : Event) : Prop :=
  (t.feed (Json.object members).chars).2 = some event

/-- The line of an object is refused. -/
def Refuses (t : Transcript) (members : List (String × Json)) : Prop :=
  ∃ message, t.Yields members (.undecodable message (String.ofList (Json.object members).chars))

/-- The event of an object, type by type: the fields that the type asks for are of the right kinds
and there is an event of that type, or they are not and the line is refused. -/
structure Classified (t : Transcript) (members : List (String × Json)) : Prop where
  untagged : (¬ ∃ kind, Tagged kind members) → t.Refuses members
  fragment : ∀ kind, kind = "delta" ∨ kind = "text" → Tagged kind members →
    (∀ text, t.Yields members (.partialContent text) ↔
      members.lookup "text" = some (.string text)) ∧
    ((¬ ∃ text, members.lookup "text" = some (.string text)) → t.Refuses members)
  toolUse : Tagged "tool_use" members →
    (∀ call, t.Yields members (.toolInvocation call) ↔
      members.lookup "name" = some (.string call.name) ∧ GivenArguments members call.arguments) ∧
    ((¬ ∃ call : ToolCall, members.lookup "name" = some (.string call.name) ∧
      GivenArguments members call.arguments) → t.Refuses members)
  stop : Tagged "stop" members →
    t.Yields members (.completion (t.feed (Json.object members).chars).1.usage)
  result : Tagged "result" members →
    (Concluding members → members.lookup "is_error" = some (.bool true) →
      t.Yields members (.failed (((members.lookup "result").bind string?).getD unnamedError))) ∧
    (Concluding members → members.lookup "is_error" ≠ some (.bool true) →
      t.Yields members (.completion (t.feed (Json.object members).chars).1.usage)) ∧
    (¬ Concluding members → t.Refuses members)
  error : Tagged "error" members →
    (∀ message, t.Yields members (.failed message) ↔
      members.lookup "message" = some (.string message)) ∧
    ((¬ ∃ message, members.lookup "message" = some (.string message)) → t.Refuses members)
  unknown : ∀ kind, kind ∉ ["delta", "text", "tool_use", "stop", "result", "error"] →
    Tagged kind members → (t.feed (Json.object members).chars).2 = none

/-- Where a refusal is the only other answer, an event tells what the members hold. -/
theorem yields_iff {α : Type} {event : α → Event} {Holds : α → Prop}
    (hinjective : Function.Injective event)
    (hdecoded : ∀ a message line, event a ≠ .undecodable message line)
    (hsome : ∀ a, Holds a → t.Yields members (event a))
    (hnone : (¬ ∃ a, Holds a) → t.Refuses members) :
    (∀ a, t.Yields members (event a) ↔ Holds a) ∧
      ((¬ ∃ a, Holds a) → t.Refuses members) := by
  refine ⟨fun a => ⟨fun h => ?_, hsome a⟩, hnone⟩
  -- The line gives one event, so it is the one that the members call for.
  by_cases hexists : ∃ b, Holds b
  · obtain ⟨b, hb⟩ := hexists
    have heq : some (event a) = some (event b) := h.symm.trans (hsome b hb)
    rwa [hinjective (Option.some.inj heq)]
  · obtain ⟨message, hrefused⟩ := hnone hexists
    exact absurd (Option.some.inj (h.symm.trans hrefused)) (hdecoded a message _)

section Fed

variable (ht : t.isClosed = false) (h : CompactObject (Json.object members).chars members)

include ht h

theorem feed_recordOf {r : Record} {u : Option Usage} (hr : RecordOf members r)
    (hu : UsageOf members u) :
    t.feed (Json.object members).chars = (t.addUsage u).apply r :=
  feed_of_decoded ht ((decoded?_iff h r u).mpr ⟨hr, hu⟩)

theorem refuses_of_no_record (hnone : ¬ ∃ r u, RecordOf members r ∧ UsageOf members u) :
    t.Refuses members := by
  have htrim := trim_chars_object members
  have hblank := h.trim_isEmpty
  cases hdecode : Record.decode (Text.trim (Json.object members).chars) with
  | ok d => exact absurd ⟨d.1, d.2, (h.decode_iff d.1 d.2).mp hdecode⟩ hnone
  | error message =>
      rw [htrim] at hblank hdecode
      exact ⟨message, by simp [Yields, feed, htrim, hblank, ht, hdecode]⟩

theorem feed_fragment {kind : String} (hkind : kind = "delta" ∨ kind = "text")
    (htag : Tagged kind members) :
    (∀ text, t.Yields members (.partialContent text) ↔
      members.lookup "text" = some (.string text)) ∧
    ((¬ ∃ text, members.lookup "text" = some (.string text)) → t.Refuses members) := by
  obtain ⟨u, hu⟩ := htag.exists_usageOf
  refine yields_iff (fun a b h => Event.partialContent.inj h) (by simp) ?_ ?_
  · intro text htext
    rw [Yields, feed_recordOf ht h (.fragment htag.type hkind htext) hu]
    rfl
  · intro habsent
    refine refuses_of_no_record ht h ?_
    rintro ⟨r, -, hr, -⟩
    have htype := htag.type
    cases hr with
    | fragment _ _ htext => exact habsent ⟨_, htext⟩
    | toolUse | stop | result | error | unknown => rcases hkind with rfl | rfl <;> simp_all

theorem feed_error (htag : Tagged "error" members) :
    (∀ message, t.Yields members (.failed message) ↔
      members.lookup "message" = some (.string message)) ∧
    ((¬ ∃ message, members.lookup "message" = some (.string message)) → t.Refuses members) := by
  obtain ⟨u, hu⟩ := htag.exists_usageOf
  refine yields_iff (fun a b h => Event.failed.inj h) (by simp) ?_ ?_
  · intro message hmessage
    rw [Yields, feed_recordOf ht h (.error htag.type hmessage) hu]
    rfl
  · intro habsent
    refine refuses_of_no_record ht h ?_
    rintro ⟨r, -, hr, -⟩
    have htype := htag.type
    cases hr with
    | error _ hmessage => exact habsent ⟨_, hmessage⟩
    | fragment | toolUse | stop | result | unknown => simp_all

theorem feed_toolUse (htag : Tagged "tool_use" members) :
    (∀ call, t.Yields members (.toolInvocation call) ↔
      members.lookup "name" = some (.string call.name) ∧ GivenArguments members call.arguments) ∧
    ((¬ ∃ call : ToolCall, members.lookup "name" = some (.string call.name) ∧
      GivenArguments members call.arguments) → t.Refuses members) := by
  obtain ⟨u, hu⟩ := htag.exists_usageOf
  refine yields_iff (fun a b h => Event.toolInvocation.inj h) (by simp) ?_ ?_
  · rintro call ⟨hname, harguments⟩
    rw [Yields, feed_recordOf ht h (.toolUse htag.type hname harguments) hu]
    rfl
  · intro habsent
    refine refuses_of_no_record ht h ?_
    rintro ⟨r, -, hr, -⟩
    have htype := htag.type
    cases hr with
    | toolUse _ hname harguments => exact habsent ⟨_, hname, harguments⟩
    | fragment | stop | result | error | unknown => simp_all

theorem feed_stop (htag : Tagged "stop" members) :
    t.Yields members (.completion (t.feed (Json.object members).chars).1.usage) := by
  obtain ⟨u, hu⟩ := htag.exists_usageOf
  rw [Yields, feed_recordOf ht h (.stop htag.type) hu]
  rfl

theorem feed_unknown {kind : String}
    (hkind : kind ∉ ["delta", "text", "tool_use", "stop", "result", "error"])
    (htag : Tagged kind members) : (t.feed (Json.object members).chars).2 = none := by
  obtain ⟨u, hu⟩ := htag.exists_usageOf
  rw [feed_recordOf ht h (.unknown htag.type hkind) hu]
  rfl

theorem feed_result (htag : Tagged "result" members) :
    (Concluding members → members.lookup "is_error" = some (.bool true) →
      t.Yields members (.failed (((members.lookup "result").bind string?).getD unnamedError))) ∧
    (Concluding members → members.lookup "is_error" ≠ some (.bool true) →
      t.Yields members (.completion (t.feed (Json.object members).chars).1.usage)) ∧
    (¬ Concluding members → t.Refuses members) := by
  obtain ⟨u, hu⟩ := htag.exists_usageOf
  refine ⟨fun hsound herror => ?_, fun hsound herror => ?_, fun hunsound => ?_⟩
  · obtain ⟨⟨flag, hflag⟩, ⟨text, htext⟩, cost, hcost⟩ := concluding_iff.mp hsound
    obtain rfl := hflag.bool_iff.mpr herror
    rw [Yields, feed_recordOf ht h (.result htag.type hflag htext hcost) hu,
      ← htext.eq_bind rfl]
    cases cost <;> rfl
  · obtain ⟨⟨flag, hflag⟩, ⟨text, htext⟩, cost, hcost⟩ := concluding_iff.mp hsound
    obtain rfl : flag = false := Bool.eq_false_iff.mpr fun hset => herror (hflag.bool_iff.mp hset)
    rw [Yields, feed_recordOf ht h (.result htag.type hflag htext hcost) hu]
    rfl
  · refine refuses_of_no_record ht h ?_
    rintro ⟨r, -, hr, -⟩
    obtain ⟨_, _, _, -, hflag, htext, hcost⟩ := hr.exists_result htag.type
    exact hunsound (concluding_iff.mpr ⟨⟨_, hflag⟩, ⟨_, htext⟩, _, hcost⟩)

end Fed

/-- The line of an object without duplicate keys is classified by its members, in whatever order
they stand. -/
theorem feed_classified (ht : t.isClosed = false) (hv : (Json.object members).Proper)
    (hdepth : (Json.object members).depth < depthLimit)
    (hlist : ∀ items, members.lookup "usage" ≠ some (.array items)) : t.Classified members where
  untagged hnone := by
    refine refuses_of_no_record ht (.of_chars hv hdepth) ?_
    rintro ⟨r, u, hr, hu⟩
    obtain ⟨kind, hkind⟩ := hr.exists_type
    exact hnone ⟨kind, hkind, hu.measured hlist⟩
  fragment _ hkind htag := feed_fragment ht (.of_chars hv hdepth) hkind htag
  toolUse htag := feed_toolUse ht (.of_chars hv hdepth) htag
  stop htag := feed_stop ht (.of_chars hv hdepth) htag
  result htag := feed_result ht (.of_chars hv hdepth) htag
  error htag := feed_error ht (.of_chars hv hdepth) htag
  unknown _ hkind htag := feed_unknown ht (.of_chars hv hdepth) hkind htag

/-- A fragment whose type comes last, behind a usage report and a member without effect. -/
def lateFragment : List (String × Json) :=
  [("usage", .object [("cost_usd", .number (.real (.finite false 6755399441055744 (-53)))),
      ("output_tokens", .ofNat 3)]),
    ("note", .array [.null, .bool true]), ("text", .string "say \"hi\"\n"),
    ("type", .string "delta")]

theorem classified_lateFragment :
    (⟨"so far", [], {}, none, 1⟩ : Transcript).isClosed = false ∧
      (Json.object lateFragment).Proper ∧ (Json.object lateFragment).depth < depthLimit ∧
      (∀ items, lateFragment.lookup "usage" ≠ some (.array items)) ∧
      (⟨"so far", [], {}, none, 1⟩ : Transcript).Classified lateFragment := by
  have hproper : (Json.object lateFragment).Proper :=
    ⟨by decide, ⟨by decide, ⟨rfl, by decide, by decide, by decide, .inl (by decide)⟩,
      ⟨by decide, by decide⟩, trivial⟩, ⟨trivial, trivial, trivial⟩, trivial, trivial, trivial⟩
  have hdepth : (Json.object lateFragment).depth < depthLimit := by decide
  have hlist : ∀ items, lateFragment.lookup "usage" ≠ some (.array items) := by
    intro items
    simp [lateFragment]
  exact ⟨rfl, hproper, hdepth, hlist, feed_classified rfl hproper hdepth hlist⟩

end Transcript

end AgentGateway
