import AgentGateway.Proofs.Json.Typed
import AgentGateway.Stream.Record

/-!
# Lines are taken apart whatever the order of their members

A line that is the compact text of an object gives its type, its usage and its other fields, each
read from its own member (`Envelope.parse_chars`). It is refused exactly if there is no type, the
type is no string, or the usage is of the wrong kind. The other fields are gathered as they are,
and each is found under its name.
-/

namespace AgentGateway

open Json

namespace Envelope

/-! ## Usage -/

def usageStep (f : UsageFields) (m : String × Json) : Option UsageFields :=
  if m.1 = "input_tokens" then (fill? f.input count? m.2).map fun x => { f with input := x }
  else if m.1 = "output_tokens" then
    (fill? f.output count? m.2).map fun x => { f with output := x }
  else if m.1 = "cost_usd" then
    (fill? f.cost (optional? real?) m.2).map fun x => { f with cost := x }
  else some f

theorem usageMember_chars {m : String × Json} (hm : m.2.Proper) (f : UsageFields) :
    ReadsMember (usageMember f m.1) m.2 (usageStep f m) := by
  intro rest hrest offset
  have hinput := readField_chars m.1 f.input (readUnsigned64_chars hm) rest hrest offset
  have houtput := readField_chars m.1 f.output (readUnsigned64_chars hm) rest hrest offset
  have hcost := readField_chars m.1 f.cost (readOption_chars hm (readReal_chars hm)) rest hrest
    offset
  unfold usageMember usageStep
  split_ifs
  · rw [Option.map_eq_bind]
    exact hinput.bind fun a _ offset => ⟨offset, rfl⟩
  · rw [Option.map_eq_bind]
    exact houtput.bind fun a _ offset => ⟨offset, rfl⟩
  · rw [Option.map_eq_bind]
    exact hcost.bind fun a _ offset => ⟨offset, rfl⟩
  · obtain ⟨next, hnext⟩ := skipField_chars hm hrest offset
    exact ⟨next, by rw [hnext]; rfl⟩

/-- What a usage report says once all its members have been looked at. -/
def usageFields? (f : UsageFields) (members : List (String × Json)) : Option UsageFields := do
  let input ← slot f.input "input_tokens" count? members
  let output ← slot f.output "output_tokens" count? members
  let cost ← slot f.cost "cost_usd" (optional? real?) members
  return ⟨input, output, cost⟩

/-- No field has been filled whose member is still to come. -/
structure UsageFields.Fresh (f : UsageFields) (members : List (String × Json)) : Prop where
  input : f.input.isSome → "input_tokens" ∉ members.map Prod.fst
  output : f.output.isSome → "output_tokens" ∉ members.map Prod.fst
  cost : f.cost.isSome → "cost_usd" ∉ members.map Prod.fst

theorem UsageFields.Fresh.later {f : UsageFields} {m : String × Json}
    {members : List (String × Json)} (h : f.Fresh (m :: members)) : f.Fresh members where
  input hsome hmem := h.input hsome (List.mem_cons_of_mem _ hmem)
  output hsome hmem := h.output hsome (List.mem_cons_of_mem _ hmem)
  cost hsome hmem := h.cost hsome (List.mem_cons_of_mem _ hmem)

/-- The member at the front fills its field, which no later member does. -/
theorem slot_cons_fill {α : Type} {filled : Option α} {name : String} {v : Json}
    {members : List (String × Json)}
    (hfresh : filled.isSome → name ∉ ((name, v) :: members).map Prod.fst)
    (hname : name ∉ members.map Prod.fst) (of : Json → Option α) :
    slot filled name of ((name, v) :: members) =
      (fill? filled of v).bind fun x => slot x name of members := by
  have hnone : ¬ filled.isSome := fun hsome => hfresh hsome (by simp)
  rw [slot_cons_self, fill?, if_neg hnone]
  cases of v with
  | none => rfl
  | some a => exact (slot_of_not_mem hname (some a) of).symm

theorem UsageFields.Fresh.step {f f' : UsageFields} {m : String × Json}
    {members : List (String × Json)} (h : f.Fresh (m :: members))
    (hm : m.1 ∉ members.map Prod.fst) (hf' : usageStep f m = some f') : f'.Fresh members := by
  have hlater := h.later
  unfold usageStep at hf'
  split_ifs at hf' with hinput houtput hcost
  · obtain ⟨x, -, rfl⟩ := Option.map_eq_some_iff.mp hf'
    exact ⟨fun _ => hinput ▸ hm, hlater.output, hlater.cost⟩
  · obtain ⟨x, -, rfl⟩ := Option.map_eq_some_iff.mp hf'
    exact ⟨hlater.input, fun _ => houtput ▸ hm, hlater.cost⟩
  · obtain ⟨x, -, rfl⟩ := Option.map_eq_some_iff.mp hf'
    exact ⟨hlater.input, hlater.output, fun _ => hcost ▸ hm⟩
  · cases hf'
    exact hlater

theorem usageFields?_cons {f : UsageFields} {m : String × Json} {members : List (String × Json)}
    (hf : f.Fresh (m :: members)) (hm : m.1 ∉ members.map Prod.fst) :
    usageFields? f (m :: members) = (usageStep f m).bind fun f' => usageFields? f' members := by
  obtain ⟨k, v⟩ := m
  simp only at hm
  rw [usageFields?, usageStep]
  simp only
  split_ifs with hinput houtput hcost
  · subst hinput
    rw [slot_cons_fill hf.input hm, slot_cons_ne (by decide), slot_cons_ne (by decide)]
    cases fill? f.input count? v <;> rfl
  · subst houtput
    rw [slot_cons_ne (by decide), slot_cons_fill hf.output hm, slot_cons_ne (by decide)]
    -- Where the member is refused, the fields asked for before it do not matter.
    cases fill? f.output count? v with
    | none => cases slot f.input "input_tokens" count? members <;> rfl
    | some x => rfl
  · subst hcost
    rw [slot_cons_ne (by decide), slot_cons_ne (by decide), slot_cons_fill hf.cost hm]
    cases fill? f.cost (optional? real?) v with
    | none =>
        cases slot f.input "input_tokens" count? members <;>
          cases slot f.output "output_tokens" count? members <;> rfl
    | some x => rfl
  · rw [slot_cons_ne hinput, slot_cons_ne houtput, slot_cons_ne hcost]
    rfl

/-- The fields of a usage report are each what their own member gives. -/
theorem foldlM_usageStep {members : List (String × Json)} (h : (members.map Prod.fst).Nodup)
    {f : UsageFields} (hf : f.Fresh members) :
    members.foldlM usageStep f = usageFields? f members := by
  induction members generalizing f with
  | nil => rfl
  | cons m members ih =>
      rw [List.map_cons, List.nodup_cons] at h
      obtain ⟨hm, hnodup⟩ := h
      rw [List.foldlM_cons, usageFields?_cons hf hm]
      exact Option.bind_congr fun f' hf' => ih hnodup (hf.step hm hf')

/-- What a usage report says that is written as the list of its fields. -/
def usageItems? (items : List Json) : Option Usage := do
  let input ← item? count? items
  let output ← item? count? items.tail
  let cost ← item? (optional? real?) items.tail.tail
  return ⟨input.getD 0, output.getD 0, cost.join⟩

theorem usageItems_chars {items : List Json} (h : ProperItems items) (rest : List Char)
    (offset : Nat) :
    Gives (usageItems ⟨charsItems true items ++ ']' :: rest, offset⟩) (usageItems? items)
      (charsItems false items.tail.tail.tail ++ ']' :: rest) := by
  have hcount (v : Json) (hv : v.Proper) := readUnsigned64_chars hv
  have hcost (v : Json) (hv : v.Proper) := readOption_chars hv (readReal_chars hv)
  refine (readItem_chars hcount h true rest offset).bind fun input hinput next => ?_
  rw [← charsItems_tail hinput]
  refine (readItem_chars hcount (properItems_tail h) _ rest next).bind fun output houtput next => ?_
  rw [← charsItems_tail houtput]
  exact (readItem_chars hcost (properItems_tail (properItems_tail h)) _ rest next).bind
    fun cost _ next => ⟨next, rfl⟩

/-- The usage that a value reports, if it is of the right kind. -/
def usage? : Json → Option Usage
  | .object members => (usageFields? {} members).map UsageFields.usage
  | .array items =>
    (usageItems? items).bind fun u => if items.tail.tail.tail = [] then some u else none
  | _ => none

theorem readUsage_chars {v : Json} (hv : v.Proper) : Reads readUsage v (usage? v) := by
  have hscalar : ¬ v.Starts '\x7b' → ¬ v.Starts '[' → Reads readUsage v none := fun h h' =>
    readStruct_scalar "struct WireUsage" usageMember {} (fun f => .ok f.usage) usageItems hv h h'
  cases v with
  | object members =>
      have hfold := foldlM_usageStep hv.1
        (⟨by simp, by simp, by simp⟩ : UsageFields.Fresh {} members)
      have hread := readStruct_object "struct WireUsage" members
        (fun m hm f => usageMember_chars (proper_of_mem hv.2 hm) f) {} (fun f => .ok f.usage)
        usageItems
      rw [hfold] at hread
      have husage : usage? (.object members) = (usageFields? {} members).bind fun f =>
          (Except.ok f.usage : Except Cause Usage).toOption := by
        rw [usage?, Option.map_eq_bind]
        rfl
      rw [husage]
      exact hread
  | array items =>
      exact readStruct_list "struct WireUsage" usageMember {} (fun f => .ok f.usage)
        (usageItems_chars hv)
  | bool b => exact hscalar (by cases b <;> simp [Starts]) (by cases b <;> simp [Starts])
  | number n => exact hscalar (by simp [Starts, isDigit]) (by simp [Starts, isDigit])
  | _ => exact hscalar (by simp [Starts]) (by simp [Starts])

/-! ## Lines -/

/-- What a member adds to the parts of a line. -/
def partsStep (p : Parts) (m : String × Json) : Option Parts :=
  if m.1 = "type" then (fill? p.kind string? m.2).map fun x => { p with kind := x }
  else if m.1 = "usage" then
    (fill? p.usage (optional? usage?) m.2).map fun x => { p with usage := x }
  else some { p with fields := p.fields.insert m.1 m.2.readBack }

theorem member_chars {m : String × Json} (hm : m.2.Proper) (hdepth : m.2.depth < depthLimit - 1)
    (p : Parts) : ReadsMember (member p m.1) m.2 (partsStep p m) := by
  intro rest hrest offset
  unfold member partsStep
  split_ifs with hkind husage
  · rw [Option.map_eq_bind]
    exact (readField_chars m.1 p.kind (readText_chars hm) rest hrest offset).bind
      fun a _ offset => ⟨offset, rfl⟩
  · rw [Option.map_eq_bind]
    have hread := readOption_chars hm (readUsage_chars hm)
    exact (readField_chars m.1 p.usage hread rest hrest offset).bind
      fun a _ offset => ⟨offset, rfl⟩
  · have hread := readValue_chars m.2 hm ((m.2.chars ++ rest).length + 1) (depthLimit - 1)
      (by simp only [List.length_append]; omega) hdepth hrest (offset + 1)
    obtain ⟨next, hnext⟩ := hread
    refine ⟨next, ?_⟩
    rw [readColon_colon, ok_bind]
    simp only [hnext, ok_bind]
    rfl

/-- The fields of a line besides its type and its usage, as they are gathered. -/
def gathered (fields : Members) (members : List (String × Json)) : Members :=
  members.foldl (fun fields m =>
    if m.1 = "type" ∨ m.1 = "usage" then fields else fields.insert m.1 m.2.readBack) fields

/-- The parts of a line once all its members have been looked at. -/
def parts? (p : Parts) (members : List (String × Json)) : Option Parts := do
  let kind ← slot p.kind "type" string? members
  let usage ← slot p.usage "usage" (optional? usage?) members
  return ⟨kind, usage, gathered p.fields members⟩

/-- Neither the type nor the usage has been filled while its member is still to come. -/
structure Parts.Fresh (p : Parts) (members : List (String × Json)) : Prop where
  kind : p.kind.isSome → "type" ∉ members.map Prod.fst
  usage : p.usage.isSome → "usage" ∉ members.map Prod.fst

theorem Parts.Fresh.later {p : Parts} {m : String × Json} {members : List (String × Json)}
    (h : p.Fresh (m :: members)) : p.Fresh members where
  kind hsome hmem := h.kind hsome (List.mem_cons_of_mem _ hmem)
  usage hsome hmem := h.usage hsome (List.mem_cons_of_mem _ hmem)

theorem Parts.Fresh.step {p p' : Parts} {m : String × Json} {members : List (String × Json)}
    (h : p.Fresh (m :: members)) (hm : m.1 ∉ members.map Prod.fst)
    (hp' : partsStep p m = some p') : p'.Fresh members := by
  have hlater := h.later
  unfold partsStep at hp'
  split_ifs at hp' with hkind husage
  · obtain ⟨x, -, rfl⟩ := Option.map_eq_some_iff.mp hp'
    exact ⟨fun _ => hkind ▸ hm, hlater.usage⟩
  · obtain ⟨x, -, rfl⟩ := Option.map_eq_some_iff.mp hp'
    exact ⟨hlater.kind, fun _ => husage ▸ hm⟩
  · cases hp'
    exact ⟨hlater.kind, hlater.usage⟩

theorem parts?_cons {p : Parts} {m : String × Json} {members : List (String × Json)}
    (hp : p.Fresh (m :: members)) (hm : m.1 ∉ members.map Prod.fst) :
    parts? p (m :: members) = (partsStep p m).bind fun p' => parts? p' members := by
  obtain ⟨k, v⟩ := m
  simp only at hm
  rw [parts?, partsStep, gathered, List.foldl_cons]
  simp only
  by_cases hkind : k = "type"
  · subst hkind
    rw [if_pos (Or.inl rfl), if_pos rfl, slot_cons_fill hp.kind hm, slot_cons_ne (by decide)]
    cases fill? p.kind string? v <;> rfl
  by_cases husage : k = "usage"
  · subst husage
    rw [if_pos (Or.inr rfl), if_neg hkind, if_pos rfl, slot_cons_ne (by decide),
      slot_cons_fill hp.usage hm]
    cases fill? p.usage (optional? usage?) v with
    | none => cases slot p.kind "type" string? members <;> rfl
    | some x => rfl
  · rw [if_neg (not_or.mpr ⟨hkind, husage⟩), if_neg hkind, if_neg husage, slot_cons_ne hkind,
      slot_cons_ne husage]
    rfl

theorem foldlM_partsStep {members : List (String × Json)} (h : (members.map Prod.fst).Nodup)
    {p : Parts} (hp : p.Fresh members) : members.foldlM partsStep p = parts? p members := by
  induction members generalizing p with
  | nil => rfl
  | cons m members ih =>
      rw [List.map_cons, List.nodup_cons] at h
      obtain ⟨hm, hnodup⟩ := h
      rw [List.foldlM_cons, parts?_cons hp hm]
      exact Option.bind_congr fun p' hp' => ih hnodup (hp.step hm hp')

/-- The usage that a line reports, if its usage is of the right kind. -/
def reported? (members : List (String × Json)) : Option (Option Usage) :=
  match members.lookup "usage" with
  | none => some none
  | some v => optional? usage? v

/-- A line taken apart, if its type and its usage are of the right kind. -/
def ofMembers? (members : List (String × Json)) : Option Envelope := do
  let kind ← (members.lookup "type").bind string?
  let usage ← reported? members
  return ⟨kind, usage, gathered [] members⟩

theorem slot_usage (members : List (String × Json)) :
    (slot none "usage" (optional? usage?) members).map Option.join = reported? members := by
  unfold slot reported?
  cases members.lookup "usage" with
  | none => rfl
  | some v =>
      change ((optional? usage? v).map some).map Option.join = optional? usage? v
      cases optional? usage? v <;> rfl

theorem envelope_parts? (members : List (String × Json)) :
    ((parts? {} members).bind fun p => p.envelope.toOption) = ofMembers? members := by
  have hparts : parts? {} members = (do
      let kind ← slot none "type" string? members
      let usage ← slot none "usage" (optional? usage?) members
      return ⟨kind, usage, gathered [] members⟩) := rfl
  rw [hparts, ofMembers?, ← slot_usage]
  generalize slot none "usage" (optional? usage?) members = usage
  unfold slot
  cases members.lookup "type" with
  | none => cases usage <;> rfl
  | some v =>
      change ((((string? v).map some).bind fun kind => usage.bind fun usage => _).bind _) =
        (string? v).bind _
      cases string? v with
      | none => rfl
      | some kind => cases usage <;> rfl

/-- Reading a line gives the parts of its object, or is refused where one is of the wrong kind. -/
theorem parse_chars {members : List (String × Json)} (hv : (Json.object members).Proper)
    (hdepth : (Json.object members).depth < depthLimit) :
    (Envelope.parse (Json.object members).chars).toOption = ofMembers? members := by
  obtain ⟨hnodup, hmembers⟩ := hv
  have hmember : ∀ m ∈ members, ∀ p, ReadsMember (member p m.1) m.2 (partsStep p m) := by
    intro m hm p
    refine member_chars (proper_of_mem hmembers hm) ?_ p
    have := depth_le_of_mem hm
    rw [Json.depth] at hdepth
    omega
  have hread := readObject_chars members hmember {} Parts.envelope [] 0
  rw [foldlM_partsStep hnodup ⟨by simp, by simp⟩, envelope_parts?, List.append_nil] at hread
  have hstart : Envelope.read (.start (Json.object members).chars) =
      readObject member {} Parts.envelope ⟨(Json.object members).chars, 0⟩ := by
    simp only [chars, List.cons_append, Cursor.start]
    rw [Envelope.read, Cursor.skipBlank_cons rfl]
    rfl
  rw [Envelope.parse, readWhole, hstart]
  cases hparts : ofMembers? members with
  | none =>
      obtain ⟨p, hp⟩ := hparts ▸ hread
      rw [hp]
      rfl
  | some e =>
      obtain ⟨next, hnext⟩ := hparts ▸ hread
      rw [hnext]
      rfl

theorem get?_gathered {members : List (String × Json)} (h : (members.map Prod.fst).Nodup)
    (name : String) (hkind : name ≠ "type") (husage : name ≠ "usage") (fields : Members) :
    (gathered fields members).get? name =
      ((members.lookup name).map readBack).or (fields.get? name) := by
  induction members generalizing fields with
  | nil => rfl
  | cons m members ih =>
      obtain ⟨k, v⟩ := m
      rw [List.map_cons, List.nodup_cons] at h
      obtain ⟨hk, hnodup⟩ := h
      rw [gathered, List.foldl_cons, ← gathered, ih hnodup]
      by_cases hname : name = k
      · subst hname
        rw [lookup_of_not_mem hk, List.lookup_cons_self, if_neg (by simp [hkind, husage]),
          get?_insert, if_pos rfl]
        rfl
      · rw [lookup_cons_ite, if_neg hname]
        split_ifs
        · rfl
        · rw [get?_insert, if_neg hname]

end Envelope

end AgentGateway
