import AgentGateway.Proofs.Stream.Ending
import AgentGateway.Proofs.Stream.Reading

/-!
# The response told by its events

Whoever has seen the events of a stream knows its response. Tool calls, lines that could not be
decoded, the outcome and the usage can be read off the events. The content can be read off them
as well unless no fragment had any text: then it is the text of the result record that ended the
stream, if there was one, and no event carries that text.

What record a line holds is read off its members (`CompactObject.record?_iff`), so the content is
told by the lines themselves where the events do not tell it.

The proof looks at one line on an open transcript (`Transcript.Fed`) and at the record on it
(`Transcript.Applied`), says what they add to each part of the transcript, and goes through the
lines from the first to the one that closes the transcript. After that nothing is added.
-/

namespace AgentGateway

namespace Event

def call? : Event → Option ToolCall
  | toolInvocation call => some call
  | partialContent _ | completion _ | failed _ | undecodable _ _ => none

def fragment : Event → String
  | partialContent text => text
  | toolInvocation _ | completion _ | failed _ | undecodable _ _ => ""

def isUndecodable : Event → Bool
  | undecodable _ _ => true
  | partialContent _ | toolInvocation _ | completion _ | failed _ => false

theorem fragment_of_isTerminal {e : Event} (h : e.isTerminal = true) : e.fragment = "" := by
  cases e <;> first | rfl | cases h

end Event

namespace Record

def ends : Record → Bool
  | stop | result _ _ _ | error _ => true
  | fragment _ | toolUse _ | unknown _ => false

/-- The text of a result that is no error. -/
def finalText? : Record → Option String
  | result false text _ => text
  | result true _ _ | fragment _ | toolUse _ | stop | error _ | unknown _ => none

def call? : Record → Option ToolCall
  | toolUse call => some call
  | fragment _ | stop | result _ _ _ | error _ | unknown _ => none

def text : Record → String
  | fragment text => text
  | toolUse _ | stop | result _ _ _ | error _ | unknown _ => ""

theorem call?_of_ends {r : Record} (h : r.ends = true) : r.call? = none := by
  cases r <;> first | rfl | cases h

theorem text_of_ends {r : Record} (h : r.ends = true) : r.text = "" := by
  cases r <;> first | rfl | cases h

end Record

namespace Transcript

def fragments (events : List Event) : String := String.join (events.map Event.fragment)

def record? (line : List Char) : Option Record :=
  if (Text.trim line).isEmpty then none
  else (Record.decode (Text.trim line)).toOption.map (·.1)

def decoded? (line : List Char) : Option (Record × Option Usage) :=
  if (Text.trim line).isEmpty then none else (Record.decode (Text.trim line)).toOption

/-- The records of a stream: those that decode, up to and including the one that ends it. -/
def records : List (List Char) → List (Record × Option Usage)
  | [] => []
  | line :: rest =>
    match decoded? line with
    | none => records rest
    | some r => if r.1.ends then [r] else r :: records rest

/-- The record that ends a stream with these lines. -/
def endRecord? (lines : List (List Char)) : Option Record :=
  (lines.filterMap record?).find? Record.ends

theorem record?_eq (line : List Char) : record? line = (decoded? line).map (·.1) := by
  unfold record? decoded?
  split_ifs <;> rfl

theorem fragments_append (front back : List Event) :
    fragments (front ++ back) = fragments front ++ fragments back := by
  rw [fragments, List.map_append, String.join_append]
  rfl

theorem endRecord?_append {front : List (List Char)} (h : endRecord? front = none)
    (back : List (List Char)) : endRecord? (front ++ back) = endRecord? back := by
  rw [endRecord?] at h ⊢
  rw [List.filterMap_append, List.find?_append, h]
  rfl

theorem endRecord?_cons (line : List Char) (lines : List (List Char)) :
    endRecord? (line :: lines) = ((record? line).filter Record.ends).or (endRecord? lines) := by
  cases h : record? line with
  | none => simp [endRecord?, h]
  | some r => cases hr : r.ends <;> simp [endRecord?, h, hr, Option.filter]

/-! ## One line -/

inductive Fed (t : Transcript) (line : List Char) : Transcript × Option Event → Prop
  | blank (hrecord : record? line = none) : Fed t line (t, none)
  | undecodable (hrecord : record? line = none) (message text : String) :
      Fed t line ({ t with decodeFailures := t.decodeFailures + 1 },
        some (.undecodable message text))
  | decoded {r : Record} (hrecord : record? line = some r) (usage : Option Usage) :
      Fed t line ((t.addUsage usage).apply r)

theorem fed {t : Transcript} (h : t.isClosed = false) (line : List Char) :
    Fed t line (t.feed line) := by
  cases hblank : (Text.trim line).isEmpty with
  | true =>
      have hfeed : t.feed line = (t, none) := by simp [feed, hblank]
      rw [hfeed]
      exact .blank (by simp [record?, hblank])
  | false =>
      cases hdecode : Record.decode (Text.trim line) with
      | error message =>
          have hfeed : t.feed line = ({ t with decodeFailures := t.decodeFailures + 1 },
              some (.undecodable message (String.ofList (Text.trim line)))) := by
            simp [feed, hblank, h, hdecode]
          rw [hfeed]
          exact .undecodable (by simp [record?, hblank, hdecode, Except.toOption]) _ _
      | ok decoded =>
          obtain ⟨r, usage⟩ := decoded
          have hfeed : t.feed line = (t.addUsage usage).apply r := by
            simp [feed, hblank, h, hdecode]
          rw [hfeed]
          exact .decoded (by simp [record?, hblank, hdecode, Except.toOption]) usage

theorem addUsage_eq (t : Transcript) (usage : Option Usage) :
    ∃ u, t.addUsage usage = { t with usage := u } := by
  cases usage with
  | none => exact ⟨t.usage, rfl⟩
  | some u => exact ⟨t.usage.accumulate u, rfl⟩

/-- Events account for the tool calls and the undecodable lines between two transcripts. -/
structure Adds (t : Transcript) (events : List Event) (t' : Transcript) : Prop where
  toolCalls : t'.toolCalls = t.toolCalls ++ events.filterMap Event.call?
  decodeFailures : t'.decodeFailures = t.decodeFailures + events.countP Event.isUndecodable

theorem Adds.refl (t : Transcript) : Adds t [] t := by
  constructor <;> simp

theorem Adds.trans {t t' t'' : Transcript} {front back : List Event} (h : Adds t front t')
    (h' : Adds t' back t'') : Adds t (front ++ back) t'' := by
  constructor
  · rw [h'.toolCalls, h.toolCalls, List.filterMap_append, List.append_assoc]
  · have hback := h'.decodeFailures
    have hfront := h.decodeFailures
    rw [List.countP_append]
    omega

/-- What becomes of a transcript that takes in a record whose usage has been added. A record that
completes the stream fills in an empty content. -/
inductive Applied (t : Transcript) : Record → Transcript × Option Event → Prop
  | fragment (text : String) :
      Applied t (.fragment text)
        ({ t with content := t.content ++ text }, some (.partialContent text))
  | toolUse (call : ToolCall) :
      Applied t (.toolUse call)
        ({ t with toolCalls := t.toolCalls ++ [call] }, some (.toolInvocation call))
  | completed {r : Record} (hends : r.ends = true) (u : Usage) :
      Applied t r
        ({ t with
          content := if t.content = "" then r.finalText?.getD "" else t.content
          usage := u
          outcome := some .completed }, some (.completion u))
  | failed {r : Record} (hends : r.ends = true) (htext : r.finalText? = none) (u : Usage)
      (message : String) :
      Applied t r ({ t with usage := u, outcome := some (.failed message) },
        some (.failed message))
  | unknown (kind : String) : Applied t (.unknown kind) (t, none)

/-- A result that is no error fills in an empty content and completes the stream. -/
theorem apply_result_completed (t : Transcript) (text : Option String)
    (totalCost : Option Binary64) :
    ∃ u, t.apply (.result false text totalCost) =
      ({ t with
        content := if t.content = "" then text.getD "" else t.content
        usage := u
        outcome := some .completed }, some (.completion u)) := by
  cases totalCost <;> by_cases hempty : t.content = "" <;>
    exact ⟨_, by simp [apply, complete, hempty]; rfl⟩

theorem apply_result_failed (t : Transcript) (text : Option String)
    (totalCost : Option Binary64) :
    ∃ u message, t.apply (.result true text totalCost) =
      ({ t with usage := u, outcome := some (.failed message) }, some (.failed message)) := by
  cases totalCost <;> exact ⟨_, _, rfl⟩

theorem applied (t : Transcript) (r : Record) : Applied t r (t.apply r) := by
  cases r with
  | fragment text => exact .fragment text
  | toolUse call => exact .toolUse call
  | unknown kind => exact .unknown kind
  | error message => exact .failed rfl rfl t.usage message
  | stop =>
      have hcompleted := Applied.completed (t := t) (r := .stop) rfl t.usage
      by_cases hempty : t.content = "" <;>
        simpa [apply, complete, Record.finalText?, hempty] using hcompleted
  | result isError text totalCost =>
      cases isError with
      | true =>
          obtain ⟨u, message, hu⟩ := t.apply_result_failed text totalCost
          rw [hu]
          exact .failed rfl rfl u message
      | false =>
          obtain ⟨u, hu⟩ := t.apply_result_completed text totalCost
          rw [hu]
          exact .completed rfl u

theorem Applied.adds {t : Transcript} {r : Record} {out : Transcript × Option Event}
    (h : Applied t r out) : Adds t out.2.toList out.1 := by
  cases h <;> constructor <;> simp [Event.call?, Event.isUndecodable]

theorem Fed.adds {t : Transcript} {line : List Char} {out : Transcript × Option Event}
    (h : Fed t line out) : Adds t out.2.toList out.1 := by
  cases h with
  | blank => exact .refl t
  | undecodable => constructor <;> simp [Event.call?, Event.isUndecodable]
  | @decoded r _ usage =>
      obtain ⟨u, hu⟩ := t.addUsage_eq usage
      have happlied := (applied { t with usage := u } r).adds
      rw [hu]
      exact ⟨happlied.toolCalls, happlied.decodeFailures⟩

/-- A record that does not end its stream adds its fragment; one that does adds nothing, except
that a final text takes the place of no text. -/
theorem Applied.content {t : Transcript} {r : Record} {out : Transcript × Option Event}
    (h : Applied t r out) :
    out.1.content =
      if r.ends = true ∧ t.content = "" then r.finalText?.getD ""
      else t.content ++ fragments out.2.toList := by
  cases h with
  | fragment | toolUse | unknown =>
      simp [Record.ends, fragments, Event.fragment, String.join_cons]
  | completed hends u =>
      by_cases hempty : t.content = "" <;>
        simp [hends, hempty, fragments, Event.fragment, String.join_cons]
  | failed hends htext u message =>
      by_cases hempty : t.content = "" <;>
        simp [hends, htext, hempty, fragments, Event.fragment, String.join_cons]

/-- What a record announces is a tool call or a piece of text, and the event says which. -/
theorem Applied.told {t : Transcript} {r : Record} {out : Transcript × Option Event}
    (h : Applied t r out) :
    out.2.bind Event.call? = r.call? ∧ fragments out.2.toList = r.text := by
  cases h with
  | fragment | toolUse | unknown =>
      simp [Event.call?, Record.call?, fragments, Event.fragment, String.join_cons, Record.text]
  | completed hends | failed hends =>
      simp [Event.call?, Record.call?_of_ends hends, fragments, Event.fragment, String.join_cons,
        Record.text_of_ends hends]

theorem Applied.isClosed {t : Transcript} {r : Record} {out : Transcript × Option Event}
    (h : Applied t r out) (hopen : t.isClosed = false) : out.1.isClosed = r.ends := by
  cases h with
  | fragment | toolUse | unknown => exact hopen
  | completed hends | failed hends => exact hends.symm

theorem Applied.usage {t : Transcript} {r : Record} {out : Transcript × Option Event}
    (h : Applied t r out) {u : Usage} (hevent : out.2 = some (.completion u)) :
    out.1.usage = u := by
  cases h with
  | completed => exact Event.completion.inj (Option.some.inj hevent)
  | fragment | toolUse | failed | unknown => cases hevent

theorem Applied.ne_undecodable {t : Transcript} {r : Record} {out : Transcript × Option Event}
    (h : Applied t r out) (message text : String) :
    out.2 ≠ some (.undecodable message text) := by
  cases h <;> simp

/-- A line closes an open transcript just when it holds a record that ends the stream. -/
theorem feed_isClosed {t : Transcript} (h : t.isClosed = false) (line : List Char) :
    (t.feed line).1.isClosed = (record? line).any Record.ends := by
  have hfed := fed h line
  generalize t.feed line = out at hfed
  cases hfed with
  | blank hrecord => simp [hrecord, h]
  | undecodable hrecord =>
      rw [hrecord]
      exact h
  | @decoded r hrecord usage =>
      rw [hrecord]
      exact (applied _ r).isClosed (by rw [isClosed, addUsage_outcome]; exact h)

theorem feed_content {t : Transcript} (h : t.isClosed = false) (line : List Char) :
    (t.feed line).1.content =
      if (record? line).any Record.ends = true ∧ t.content = "" then
        ((record? line).bind Record.finalText?).getD ""
      else t.content ++ fragments (t.feed line).2.toList := by
  have hfed := fed h line
  generalize t.feed line = out at hfed
  cases hfed with
  | blank hrecord => simp [hrecord, fragments]
  | undecodable hrecord => simp [hrecord, fragments, Event.fragment, String.join_cons]
  | @decoded r hrecord usage =>
      obtain ⟨u, hu⟩ := t.addUsage_eq usage
      rw [hrecord, hu]
      exact (applied { t with usage := u } r).content

theorem feed_told {t : Transcript} (h : t.isClosed = false) (line : List Char) :
    (t.feed line).2.bind Event.call? = (record? line).bind Record.call? ∧
      fragments (t.feed line).2.toList = (record? line).elim "" Record.text := by
  have hfed := fed h line
  generalize t.feed line = out at hfed
  cases hfed with
  | blank hrecord => simp [hrecord, fragments]
  | undecodable hrecord =>
      simp [hrecord, Event.call?, fragments, Event.fragment, String.join_cons]
  | @decoded r hrecord usage =>
      rw [hrecord]
      exact (applied _ r).told

theorem feed_usage {t : Transcript} (h : t.isClosed = false) {line : List Char} {u : Usage}
    (hevent : (t.feed line).2 = some (.completion u)) :
    (t.feed line).1.isClosed = true ∧ (t.feed line).1.usage = u := by
  constructor
  · have hout := feed_outcome h line
    rw [hevent] at hout
    rw [isClosed, hout]
    rfl
  · have hfed := fed h line
    generalize t.feed line = out at hfed hevent
    cases hfed with
    | blank => cases hevent
    | undecodable => cases hevent
    | decoded => exact (applied _ _).usage hevent

/-! ## All lines -/

theorem feedAll_of_closed {t : Transcript} (h : t.isClosed = true) (lines : List (List Char)) :
    t.feedAll lines = (t, []) := by
  induction lines with
  | nil => rfl
  | cons line lines ih =>
      have hfeed : t.feed line = (t, none) := answer_of_closed h (.feed line)
      simp only [feedAll, hfeed, ih]
      rfl

theorem adds_feedAll (t : Transcript) (lines : List (List Char)) :
    Adds t (t.feedAll lines).2 (t.feedAll lines).1 := by
  induction lines generalizing t with
  | nil => exact .refl t
  | cons line lines ih =>
      cases h : t.isClosed with
      | true =>
          rw [feedAll_of_closed h]
          exact .refl t
      | false => exact (fed h line).adds.trans (ih _)

theorem fragments_of_closed {t : Transcript} (h : t.isClosed = false) {line : List Char}
    (hclosed : (t.feed line).1.isClosed = true) : fragments (t.feed line).2.toList = "" := by
  rw [isClosed, feed_outcome h] at hclosed
  cases he : (t.feed line).2 with
  | none => rfl
  | some e =>
      rw [he] at hclosed
      have hterminal : e.isTerminal = true := by rw [← e.isSome_verdict?]; exact hclosed
      simp [fragments, String.join_cons, Event.fragment_of_isTerminal hterminal]

/-- The content is the text of the fragments; without any text it is that of the last record. -/
theorem feedAll_content {t : Transcript} (h : t.isClosed = false) (lines : List (List Char)) :
    (t.feedAll lines).1.content =
      if t.content ++ fragments (t.feedAll lines).2 = "" then
        ((endRecord? lines).bind Record.finalText?).getD ""
      else t.content ++ fragments (t.feedAll lines).2 := by
  induction lines generalizing t with
  | nil => by_cases hempty : t.content = "" <;> simp [feedAll, fragments, endRecord?, hempty]
  | cons line lines ih =>
      have hline := feed_content h line
      have hclosed := feed_isClosed h line
      have hrecord := endRecord?_cons line lines
      simp only [feedAll, fragments_append]
      cases hends : (record? line).any Record.ends with
      | false =>
          -- The transcript stays open, and the record that ends the stream is yet to come.
          have hnone : (record? line).filter Record.ends = none := by
            cases hr : record? line with
            | none => rfl
            | some r => simp_all [Option.filter]
          rw [hends] at hline hclosed
          rw [hnone, Option.none_or] at hrecord
          rw [hrecord, ih hclosed, hline]
          simp [String.append_assoc]
      | true =>
          -- The transcript is closed, by this record, and the lines that follow do nothing.
          have hsome : (record? line).filter Record.ends = record? line := by
            cases hr : record? line with
            | none => rfl
            | some r => simp_all [Option.filter]
          have hhere : endRecord? (line :: lines) = record? line := by
            cases hr : record? line with
            | none => simp [hr] at hends
            | some r => rw [hrecord, hsome, hr, Option.some_or]
          rw [hends] at hline hclosed
          rw [feedAll_of_closed hclosed, fragments_of_closed h hclosed, hhere, hline,
            fragments_of_closed h hclosed]
          simp [fragments]

/-- The events announce the tool calls and the pieces of text that the records hold. -/
theorem feedAll_told {t : Transcript} (h : t.isClosed = false) (lines : List (List Char)) :
    (t.feedAll lines).2.filterMap Event.call? =
        (records lines).filterMap (fun d => d.1.call?) ∧
      fragments (t.feedAll lines).2 = String.join ((records lines).map fun d => d.1.text) := by
  induction lines generalizing t with
  | nil => exact ⟨rfl, rfl⟩
  | cons line lines ih =>
      obtain ⟨hcall, htext⟩ := feed_told h line
      have hclosed := feed_isClosed h line
      rw [record?_eq] at hcall htext hclosed
      have hhere : (t.feed line).2.toList.filterMap Event.call? =
          ((t.feed line).2.bind Event.call?).toList := by
        cases (t.feed line).2 with
        | none => rfl
        | some e => cases he : e.call? <;> simp [he]
      simp only [feedAll, List.filterMap_append, fragments_append, htext, hhere, hcall]
      cases hd : decoded? line with
      | none =>
          rw [hd] at hclosed
          obtain ⟨hcalls, htexts⟩ := ih hclosed
          simp [records, hd, hcalls, htexts]
      | some d =>
          rw [hd] at hclosed
          cases hends : d.1.ends with
          | false =>
              obtain ⟨hcalls, htexts⟩ := ih (hclosed.trans hends)
              cases hc : d.1.call? <;>
                simp [records, hd, hends, hc, hcalls, htexts, String.join_cons]
          | true =>
              rw [feedAll_of_closed (hclosed.trans hends)]
              cases hc : d.1.call? <;>
                simp [records, hd, hends, hc, fragments, String.join_cons]

/-- The completion among the events carries the usage of the whole stream. -/
theorem feedAll_usage {t : Transcript} (h : t.isClosed = false) {lines : List (List Char)}
    {u : Usage} (hmem : Event.completion u ∈ (t.feedAll lines).2) :
    (t.feedAll lines).1.usage = u := by
  induction lines generalizing t with
  | nil => cases hmem
  | cons line lines ih =>
      simp only [feedAll, List.mem_append, Option.mem_toList] at hmem ⊢
      cases hclosed : (t.feed line).1.isClosed with
      | false =>
          rcases hmem with hmem | hmem
          · have hthen := (feed_usage h hmem).1
            rw [hclosed] at hthen
            cases hthen
          · exact ih hclosed hmem
      | true =>
          rw [feedAll_of_closed hclosed] at hmem ⊢
          rcases hmem with hmem | hmem
          · exact (feed_usage h hmem).2
          · cases hmem

/-- The events of all lines are the answers that are events. -/
theorem feedAll_eq_play (t : Transcript) (lines : List (List Char)) :
    t.feedAll lines = ((t.play (lines.map .feed)).1,
      (t.play (lines.map .feed)).2.filterMap id) := by
  induction lines generalizing t with
  | nil => rfl
  | cons line lines ih =>
      simp only [feedAll, List.map_cons, play, answer, ih]
      cases (t.feed line).2 <;> rfl

/-- The events of a stream that is ended after all its lines, if it has not ended before. -/
def eventsUntil (lines : List (List Char)) (message : String) : List Event :=
  (({} : Transcript).feedAll lines).2 ++
    ((({} : Transcript).feedAll lines).1.abort message).2.toList

/-- The last event is the one that ends the stream, and it tells the outcome. -/
theorem eventsUntil_eq (lines : List (List Char)) (message : String) :
    ∃ front last, eventsUntil lines message = front ++ [last] ∧
      (∀ e ∈ front, e.isTerminal = false) ∧ last.isTerminal = true ∧
      ((({} : Transcript).feedAll lines).1.abort message).1.outcome = last.verdict? := by
  have hplay : ({} : Transcript).play (lines.map .feed ++ [.abort message]) =
      (((({} : Transcript).feedAll lines).1.abort message).1,
        (({} : Transcript).play (lines.map .feed)).2 ++
          [((({} : Transcript).feedAll lines).1.abort message).2]) := by
    rw [play_append, feedAll_eq_play]
    rfl
  have hevents : eventsUntil lines message =
      (({} : Transcript).play (lines.map .feed ++ [.abort message])).2.filterMap id := by
    rw [hplay, List.filterMap_append, eventsUntil, feedAll_eq_play]
    cases (((({} : Transcript).play (lines.map .feed)).1.abort message).2) <;> rfl
  obtain ⟨hcalls, -⟩ | ⟨before, e, n, heq, hbefore, he, hout⟩ :=
    play_of_open (t := {}) rfl (lines.map .feed ++ [.abort message])
  · have hends := hcalls (.abort message) (by simp)
    cases hends
  · refine ⟨before.filterMap id, e, ?_, ?_, he, ?_⟩
    · rw [hevents, heq]
      simp
    · intro x hx
      have hnone := hbefore (some x) (by simpa using hx)
      rw [← x.isSome_verdict?]
      simpa using hnone
    · rw [hplay] at hout
      exact hout

/-! ## The response -/

theorem decoded?_iff {line : List Char} {members : List (String × Json)}
    (h : CompactObject line members) (r : Record) (report : Option Usage) :
    decoded? line = some (r, report) ↔ RecordOf members r ∧ UsageOf members report := by
  rw [← h.decode_iff, decoded?, if_neg (by simp [h.trim_isEmpty])]
  cases Record.decode (Text.trim line) <;> simp [Except.toOption]

theorem record?_iff {line : List Char} {members : List (String × Json)}
    (h : CompactObject line members) (r : Record) :
    record? line = some r ↔ RecordOf members r ∧ ∃ u, UsageOf members u := by
  rw [record?_eq, Option.map_eq_some_iff]
  constructor
  · rintro ⟨⟨r', u⟩, hd, rfl⟩
    obtain ⟨hr, hu⟩ := (decoded?_iff h r' u).mp hd
    exact ⟨hr, u, hu⟩
  · rintro ⟨hr, u, hu⟩
    exact ⟨(r, u), (decoded?_iff h r u).mpr ⟨hr, hu⟩, rfl⟩

theorem finalText?_of_recordOf {members : List (String × Json)} {r : Record}
    (h : RecordOf members r) (htype : members.lookup "type" = some (.string "result"))
    (hflag : members.lookup "is_error" ≠ some (.bool true)) :
    r.ends = true ∧ r.finalText? = (members.lookup "result").bind Json.string? := by
  obtain ⟨isError, text, totalCost, rfl, hisError, htext, -⟩ := h.exists_result htype
  obtain rfl : isError = false :=
    Bool.eq_false_iff.mpr fun hset => hflag (hisError.bool_iff.mp hset)
  exact ⟨rfl, htext.eq_bind rfl⟩

/-- The events of a stream tell its response, and the records of the stream are announced by them.
The content is the text of the fragments, or without any text that of the record that ended the
stream. The record on a line is the one that its members make; so a result that ends the stream and
is no error gives the content under `result` when there is no text of fragments. The last event is
the only one that ends the stream, and the outcome is its outcome. -/
structure Accounted (lines : List (List Char)) (events : List Event) (r : Response) : Prop where
  toolCalls : r.toolCalls = events.filterMap Event.call?
  decodeFailures : r.decodeFailures = events.countP Event.isUndecodable ∧
    r.decodeFailures ≤ lines.length
  calls : events.filterMap Event.call? = (records lines).filterMap fun d => d.1.call?
  texts : fragments events = String.join ((records lines).map fun d => d.1.text)
  content : r.content =
    if fragments events = "" then ((endRecord? lines).bind Record.finalText?).getD ""
    else fragments events
  record : ∀ line members, CompactObject line members → ∀ held,
    record? line = some held ↔ RecordOf members held ∧ ∃ u, UsageOf members u
  result : ∀ front line back members, lines = front ++ line :: back → endRecord? front = none →
    CompactObject line members → record? line ≠ none →
    members.lookup "type" = some (.string "result") →
    members.lookup "is_error" ≠ some (.bool true) → fragments events = "" →
      r.content = ((members.lookup "result").bind Json.string?).getD ""
  outcome : ∃ front last, events = front ++ [last] ∧ (∀ e ∈ front, e.isTerminal = false) ∧
    last.verdict? = some r.outcome
  usage : ∀ u, .completion u ∈ events → u = r.usage

theorem length_feedAll (t : Transcript) (lines : List (List Char)) :
    (t.feedAll lines).2.length ≤ lines.length := by
  induction lines generalizing t with
  | nil => exact Nat.le_refl _
  | cons line lines ih =>
      have hrest := ih (t.feed line).1
      have hline : (t.feed line).2.toList.length ≤ 1 := by cases (t.feed line).2 <;> simp
      simp only [feedAll, List.length_append, List.length_cons]
      omega

/-- Ending a stream changes its outcome only, and gives at most an error event. -/
theorem abort_eq (t : Transcript) (message : String) :
    ∃ o, (t.abort message).1 = { t with outcome := o } ∧
      ((t.abort message).2 = none ∨ (t.abort message).2 = some (.failed message)) := by
  cases h : t.isClosed with
  | true => exact ⟨t.outcome, by simp [abort, h]⟩
  | false => exact ⟨some (.failed message), by simp [abort, h, fail]⟩

theorem adds_abort (t : Transcript) (message : String) :
    Adds t (t.abort message).2.toList (t.abort message).1 := by
  obtain ⟨o, ht, he | he⟩ := t.abort_eq message <;> rw [ht, he] <;> constructor <;>
    simp [Event.call?, Event.isUndecodable]

theorem fragments_abort (t : Transcript) (message : String) :
    fragments (t.abort message).2.toList = "" := by
  obtain ⟨o, -, he | he⟩ := t.abort_eq message <;> rw [he]
  · rfl
  · simp [fragments, String.join_cons, Event.fragment]

/-- Whatever lines a stream has, its events account for the response once it is closed. -/
theorem feedAll_accounted (lines : List (List Char)) :
    Accounted lines
      ((({} : Transcript).feedAll lines).2 ++ (({} : Transcript).feedAll lines).1.close.2.toList)
      (({} : Transcript).feedAll lines).1.close.1.response := by
  have hadds : Adds {} (eventsUntil lines Response.noTerminal)
      (({} : Transcript).feedAll lines).1.close.1 :=
    (adds_feedAll {} lines).trans (adds_abort _ Response.noTerminal)
  have hfront := adds_feedAll {} lines
  have hcontent := feedAll_content (t := {}) rfl lines
  obtain ⟨hcalls, htexts⟩ := feedAll_told (t := {}) rfl lines
  have hlength := length_feedAll {} lines
  obtain ⟨o, hclose, hevent⟩ := (({} : Transcript).feedAll lines).1.abort_eq Response.noTerminal
  have htold : (({} : Transcript).feedAll lines).1.close.1.response.content =
      if fragments (eventsUntil lines Response.noTerminal) = "" then
        ((endRecord? lines).bind Record.finalText?).getD ""
      else fragments (eventsUntil lines Response.noTerminal) := by
    rw [eventsUntil, fragments_append, fragments_abort, String.append_empty, close, hclose]
    simpa [response] using hcontent
  constructor
  · exact hadds.toolCalls.trans (List.nil_append _)
  · constructor
    · exact hadds.decodeFailures.trans (Nat.zero_add _)
    · -- The event that ends the stream after its lines is no undecodable line.
      have hcount := hfront.decodeFailures
      have hle := List.countP_le_length (p := Event.isUndecodable)
        (l := (({} : Transcript).feedAll lines).2)
      have hkept : (({} : Transcript).feedAll lines).1.close.1.response.decodeFailures =
          (({} : Transcript).feedAll lines).1.decodeFailures := by
        rw [close, hclose]
        rfl
      simp only [Nat.zero_add] at hcount
      omega
  · rw [List.filterMap_append, hcalls, close]
    rcases hevent with hevent | hevent <;> simp [hevent, Event.call?]
  · rw [fragments_append, close, fragments_abort, String.append_empty, htexts]
  · exact htold
  · exact fun _ _ h => record?_iff h
  · intro front line back members hlines hopen h hrecord htype hflag hempty
    obtain ⟨r, hr⟩ := Option.ne_none_iff_exists'.mp hrecord
    obtain ⟨hends, htext⟩ := finalText?_of_recordOf ((record?_iff h r).mp hr).1 htype hflag
    have hlast : endRecord? lines = some r := by
      rw [hlines, endRecord?_append hopen, endRecord?_cons, hr]
      simp [Option.filter, hends]
    exact htold.trans (by rw [eventsUntil, ← close, if_pos hempty, hlast, Option.bind_some, htext])
  · obtain ⟨front, last, heq, hopen, hlast, hout⟩ := eventsUntil_eq lines Response.noTerminal
    refine ⟨front, last, heq, hopen, ?_⟩
    have hverdict : last.verdict?.isSome = true := by rw [last.isSome_verdict?]; exact hlast
    obtain ⟨v, hv⟩ := Option.isSome_iff_exists.mp hverdict
    rw [hv] at hout
    rw [hv, response, close, hout]
    rfl
  · intro u hmem
    rw [List.mem_append] at hmem
    rcases hmem with hmem | hmem
    · rw [close, hclose]
      exact (feedAll_usage rfl hmem).symm
    · rcases hevent with hevent | hevent <;> simp [close, hevent] at hmem

end Transcript

end AgentGateway
