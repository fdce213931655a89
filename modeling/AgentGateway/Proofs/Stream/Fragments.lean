import AgentGateway.Proofs.Output.Agreement
import AgentGateway.Proofs.Stream.Classification
import AgentGateway.Proofs.Text.RoundTrip

/-!
# Fragments arrive as they were sent

An agent writes each fragment as a record on a line of its own, and ends the stream with a record
that says so. Whatever the texts of the fragments are, a record is one line, so cutting the output
gives back the records, and each of them gives back its text (`Fragment.Delivered`).
-/

namespace AgentGateway

open Json

/-- The text of an object is one line: nothing below the space is in it, and it ends in a brace. -/
theorem Json.isLine_chars {members : List (String × Json)} (hv : (Json.object members).Proper) :
    Text.IsLine (Json.object members).chars where
  ne_nil := chars_ne_nil hv
  newline_not_mem h := absurd (space_le_of_mem_chars _ hv h) (by decide)
  dropReturn_eq := by
    have hlast : (Json.object members).chars.getLast? = some '\x7d' := by
      rw [chars, List.getLast?_concat]
    rw [Text.dropReturn, hlast]
    rfl

namespace Framer

open Text (IsLine joined)
open Text.Utf8 (encode)

theorem segments_joined {written : List (List Char)} (hne : written ≠ [])
    (h : ∀ line ∈ written, IsLine line) (terminated : Bool) :
    segments (encode (joined written terminated)) = written.map encode := by
  induction written with
  | nil => exact absurd rfl hne
  | cons line written ih =>
      obtain ⟨hline, hwritten⟩ := List.forall_mem_cons.mp h
      have hclean := Text.Utf8.newline_not_mem_encode hline.newline_not_mem
      cases written with
      | nil =>
          rw [Text.joined_singleton]
          cases terminated with
          | true =>
              rw [if_pos rfl, Text.Utf8.encode_append]
              exact segments_newline hclean []
          | false =>
              rw [if_neg Bool.false_ne_true, List.append_nil]
              exact segments_tail hclean (Text.Utf8.encode_eq_nil.not.mpr hline.ne_nil)
      | cons next written =>
          rw [Text.joined_cons_cons, Text.Utf8.encode_append, List.map_cons,
            ← ih (List.cons_ne_nil _ _) hwritten]
          exact segments_newline hclean _

theorem lineText_encode {line : List Char} (h : IsLine line) : lineText (encode line) = line := by
  rw [lineText_eq, Text.Utf8.decodeLossy_encode, h.dropReturn_eq]

/-- Framed in any chunks, joined lines give the lines, provided that none is too long. -/
theorem frameChunks_joined {limit : Nat} {written : List (List Char)} (hne : written ≠ [])
    (h : ∀ line ∈ written, IsLine line) (hfits : ∀ line ∈ written, (encode line).length ≤ limit)
    {terminated : Bool} {chunks : List (List UInt8)}
    (hcut : chunks.flatten = encode (joined written terminated)) :
    frameChunks limit {} chunks = written.map .line := by
  have hframes : frameChunks limit {} chunks = framesOf limit chunks.flatten :=
    frameChunks_toCome limit (.fresh [] false) chunks
  rw [hframes, hcut, framesOf, segments_joined hne h, List.map_map]
  refine List.map_congr_left fun line hline => ?_
  rw [Function.comp_apply, segmentFrame_eq, if_neg (Nat.not_lt.mpr (hfits line hline)),
    lineText_encode (h line hline)]

end Framer

/-! ## What is sent -/

/-- A piece of an answer. It stands in a record of either of two types. -/
structure Fragment where
  whole : Bool
  text : String

namespace Fragment

def kind (f : Fragment) : String := if f.whole then "text" else "delta"

def members (f : Fragment) : List (String × Json) :=
  [("type", .string f.kind), ("text", .string f.text)]

def stopMembers : List (String × Json) := [("type", .string "stop")]

/-- The lines that are sent: a record for each fragment, and the end. -/
def written (sent : List Fragment) : List (List Char) :=
  sent.map (fun f => (Json.object f.members).chars) ++ [(Json.object stopMembers).chars]

/-- The response that has all of the text, in order, and nothing else. -/
def response (sent : List Fragment) : Response where
  content := String.join (sent.map text)
  toolCalls := []
  usage := {}
  outcome := .completed
  decodeFailures := 0

theorem proper (f : Fragment) : (Json.object f.members).Proper :=
  ⟨(by decide : ["type", "text"].Nodup), trivial, trivial, trivial⟩

theorem proper_stopMembers : (Json.object stopMembers).Proper := ⟨by decide, trivial, trivial⟩

theorem isLine_of_mem_written {sent : List Fragment} : ∀ line ∈ written sent, Text.IsLine line := by
  intro line h
  obtain h | h := List.mem_append.mp h
  · obtain ⟨f, -, rfl⟩ := List.mem_map.mp h
    exact isLine_chars f.proper
  · rw [List.mem_singleton.mp h]
    exact isLine_chars proper_stopMembers

end Fragment

/-! ## What arrives -/

namespace Transcript

variable {t : Transcript}

theorem feed_members (h : t.isClosed = false) (f : Fragment) :
    t.feed (Json.object f.members).chars =
      ({ t with content := t.content ++ f.text }, some (.partialContent f.text)) := by
  have hdepth : (Json.object f.members).depth = 1 := rfl
  have husage : f.members.lookup "usage" = none :=
    lookup_of_not_mem (by decide : "usage" ∉ ["type", "text"])
  have hkind : f.kind = "delta" ∨ f.kind = "text" := by
    unfold Fragment.kind
    split <;> simp
  exact feed_recordOf h (.of_chars f.proper (by rw [hdepth]; decide)) (.fragment rfl hkind rfl)
    (.absent husage)

theorem feed_stopMembers (h : t.isClosed = false) :
    t.feed (Json.object Fragment.stopMembers).chars =
      ({ t with outcome := some .completed }, some (.completion t.usage)) := by
  have husage : Fragment.stopMembers.lookup "usage" = none := lookup_of_not_mem (by decide)
  exact feed_recordOf h (.of_chars Fragment.proper_stopMembers (by decide)) (.stop rfl)
    (.absent husage)

/-- An open transcript takes in the fragments one after the other and ends. -/
theorem feedAll_written (h : t.isClosed = false) (sent : List Fragment) :
    t.feedAll (Fragment.written sent) =
      ({ t with
          content := t.content ++ String.join (sent.map Fragment.text)
          outcome := some .completed },
        sent.map (fun f => .partialContent f.text) ++ [.completion t.usage]) := by
  induction sent generalizing t with
  | nil =>
      simp [Fragment.written, feedAll, feed_stopMembers h]
  | cons f sent ih =>
      have hopen : ({ t with content := t.content ++ f.text } : Transcript).isClosed = false := h
      have hrest := ih hopen
      rw [Fragment.written] at hrest ⊢
      simp [feedAll, feed_members h, hrest, String.join_cons, String.append_assoc]

end Transcript

namespace Fragment

open Text (joined)
open Text.Utf8 (encode decodeLossy)

/-- No line is above the limit of a streamed execution. -/
def Fits (sent : List Fragment) : Prop :=
  ∀ line ∈ written sent, (encode line).length ≤ Framer.maxLine

/-- What becomes of some fragments whose lines come in as bytes, `output`, with or without a newline
at the very end. Captured, or framed however it is cut, the output has just the lines that were
sent. Each fragment is an event, and the end is another. Whoever asked for the output of a process
gets the whole text, whatever its exit code. -/
structure Delivered (sent : List Fragment) (output : List UInt8) : Prop where
  lines : Text.lines (decodeLossy output) = written sent
  frames : Fits sent → ∀ chunks : List (List UInt8), chunks.flatten = output →
    Framer.frameChunks Framer.maxLine {} chunks = (written sent).map .line
  events : (({} : Transcript).feedAll (written sent)).2 =
    sent.map (fun f => .partialContent f.text) ++ [.completion {}]
  gathered : (({} : Transcript).feedAll (written sent)).1.response = response sent
  captured : ∀ r : Execution.Result, r.stdout = decodeLossy output → Client.answer r = response sent
  streamed : Fits sent → ∀ chunks : List (List UInt8), chunks.flatten = output → ∀ exitCode,
    Execution.Course.streamed chunks exitCode = .ok (response sent)

/-- Fragments of any text arrive as they were sent. -/
theorem written_delivered (sent : List Fragment) (terminated : Bool) :
    Delivered sent (encode (joined (written sent) terminated)) := by
  have hne : written sent ≠ [] := by simp [written]
  have hlines : Text.lines (decodeLossy (encode (joined (written sent) terminated))) =
      written sent := by
    rw [Text.Utf8.decodeLossy_encode, Text.lines_joined hne isLine_of_mem_written]
  have hframes : Fits sent → ∀ chunks : List (List UInt8),
      chunks.flatten = encode (joined (written sent) terminated) →
      Framer.frameChunks Framer.maxLine {} chunks = (written sent).map .line :=
    fun hfits chunks hcut => Framer.frameChunks_joined hne isLine_of_mem_written hfits hcut
  have hfeed := Transcript.feedAll_written (t := {}) rfl sent
  have hgathered : (({} : Transcript).feedAll (written sent)).1.response = response sent := by
    rw [hfeed]
    simp [Transcript.response, response]
  -- The stream has ended, so neither way of ending it has any more to say.
  have hclosed : (({} : Transcript).feedAll (written sent)).1.isClosed = true := by
    rw [hfeed]
    rfl
  refine ⟨hlines, hframes, ?_, hgathered, ?_, ?_⟩
  · rw [hfeed]
  · intro r hr
    rw [Client.answer, hr, hlines, ← hgathered]
    simp [Client.finish, Transcript.close, Transcript.abort, hclosed]
  · intro hfits chunks hcut exitCode
    have hback : Execution.Course.linesOf ((written sent).map .line) = written sent := by
      simp [Execution.Course.linesOf, List.filterMap_map]
    rw [Execution.Course.streamed, hframes hfits chunks hcut, hback, ← hgathered]
    simp [Client.endStream, Transcript.close, Transcript.abort, hclosed]

/-- A quote, a newline and a line separator. Only the first two are escaped. -/
example : written [⟨false, "\"\n\u2028"⟩] =
    ["\x7b\"type\":\"delta\",\"text\":\"\\\"\\n\u2028\"\x7d".toList,
      "\x7b\"type\":\"stop\"\x7d".toList] := by
  decide

end Fragment

end AgentGateway
