import AgentGateway.Client.Basic
import AgentGateway.Execution.Process
import AgentGateway.Proofs.Output.Framing
import AgentGateway.Proofs.Text.Lossy

/-!
# Captured and streamed output agree

The output of a process reaches a transcript in two ways. When it is captured, all of it is read
as text and the text is cut into lines; when it is streamed, its bytes are framed and each line is
read as text by itself. The two lists of lines differ at most in a carriage return at the end of
a last line without a newline (`map_trim_lines`), and a transcript does not look at blanks there.
The ends differ in form only (`Client.endStream_eq_finish`), so both ways give one answer.
-/

namespace AgentGateway

namespace Text

theorem trimEnd_concat_blank {c : Char} (hc : isBlank c = true) (chars : List Char) :
    trimEnd (chars ++ [c]) = trimEnd chars := by
  simp [trimEnd, hc]

theorem trim_concat_blank {c : Char} (hc : isBlank c = true) (chars : List Char) :
    trim (chars ++ [c]) = trim chars := by
  rw [trim, trim, List.dropWhile_append]
  split
  next hnil =>
    rw [List.isEmpty_iff.mp hnil]
    simp [hc]
  next => exact trimEnd_concat_blank hc _

theorem trim_dropReturn (line : List Char) : trim (dropReturn line) = trim line := by
  unfold dropReturn
  split
  next hlast =>
    obtain ⟨front, rfl⟩ := List.getLast?_eq_some_iff.mp hlast
    rw [List.dropLast_concat, trim_concat_blank (by decide)]
  next => rfl

end Text

namespace Framer

theorem lineText_eq (bytes : List UInt8) :
    lineText bytes = Text.dropReturn (Text.Utf8.decodeLossy bytes) :=
  (Text.Utf8.dropReturn_decodeLossy bytes).symm

theorem map_trim_lines (bytes : List UInt8) :
    (Text.lines (Text.Utf8.decodeLossy bytes)).map Text.trim =
      (segments bytes).map fun s => Text.trim (lineText s) := by
  have hne : bytes.splitOn newline ≠ [] := List.splitOn_ne_nil newline bytes
  -- Both lists come from one split, and leave out its last part if that is empty.
  have hparts : Text.split (· == '\n') (Text.Utf8.decodeLossy bytes) =
      (bytes.splitOn newline).map Text.Utf8.decodeLossy := by
    rw [Text.split_eq, ← List.splitOn_eq_splitOnP]
    exact Text.Utf8.splitOn_decodeLossy bytes
  simp only [Text.lines, segments, hparts, List.getLast?_map, ← List.map_dropLast,
    List.getLast?_eq_some_getLast hne, Option.map_some, Option.getD_some, List.isEmpty_iff,
    Text.Utf8.decodeLossy_eq_nil]
  split
  next => simp [lineText_eq, Function.comp_def]
  next => simp [lineText_eq, Text.trim_dropReturn, Function.comp_def]

theorem mem_splitOn_of_mem_segments {bytes s : List UInt8} (h : s ∈ segments bytes) :
    s ∈ bytes.splitOn newline := by
  have hne : bytes.splitOn newline ≠ [] := List.splitOn_ne_nil newline bytes
  simp only [segments, List.getLast?_eq_some_getLast hne, Option.getD_some] at h
  obtain h | h := List.mem_append.mp h
  · exact List.dropLast_subset _ h
  · split at h
    next => simp at h
    next =>
      rw [List.mem_singleton.mp h]
      exact List.getLast_mem hne

theorem linesOf_framesOf {limit : Nat} {bytes : List UInt8}
    (hshort : ∀ s ∈ bytes.splitOn newline, s.length ≤ limit) :
    Execution.Course.linesOf (framesOf limit bytes) = (segments bytes).map lineText := by
  have hframes : framesOf limit bytes = (segments bytes).map fun s => Frame.line (lineText s) :=
    List.map_congr_left fun s hs =>
      if_neg (Nat.not_lt.mpr (hshort s (mem_splitOn_of_mem_segments hs)))
  rw [hframes]
  simp [Execution.Course.linesOf, List.filterMap_map]

end Framer

namespace Transcript

theorem feed_congr (t : Transcript) {line line' : List Char}
    (h : Text.trim line = Text.trim line') : t.feed line = t.feed line' := by
  simp only [feed, h]

theorem feedAll_congr (t : Transcript) {ls ls' : List (List Char)}
    (h : ls.map Text.trim = ls'.map Text.trim) : t.feedAll ls = t.feedAll ls' := by
  induction ls generalizing t ls' with
  | nil =>
      rw [List.map_nil, eq_comm, List.map_eq_nil_iff] at h
      rw [h]
  | cons l ls ih =>
      cases ls' with
      | nil => simp at h
      | cons l' ls' =>
          obtain ⟨hl, hls⟩ := List.cons.inj h
          simp only [feedAll, feed_congr t hl, ih _ hls]

end Transcript

namespace Client

/-- Where nothing is said in the error output, both ways of ending a transcript say the same of
an exit. -/
theorem endStream_eq_finish (t : Transcript) {r : Execution.Result}
    (hblank : Text.trim r.stderr = []) :
    (endStream t (.ok r.exitCode)).2 = .ok (finish t r).response := by
  have htext : exitFailure r = exitText r.exitCode := by
    unfold exitFailure
    rw [hblank]
  simp only [endStream, finish, htext, Execution.Result.isSuccess, beq_iff_eq]
  split <;> rfl

end Client

namespace Execution.Course

/-- The answer of a streamed execution whose output comes in some chunks: every line is taken in
as soon as it has been framed, and the exit code ends the stream. -/
def streamed (chunks : List (List UInt8)) (exitCode : Int) : Except Failure Response :=
  let lines := linesOf (Framer.frameChunks Framer.maxLine {} chunks)
  (Client.endStream (({} : Transcript).feedAll lines).1 (.ok exitCode)).2

/-- However the output of a process is cut into chunks, streaming it gives the answer that
capturing it gives, provided that no line is above the limit and the error output is blank. -/
theorem streamed_eq_captured (c : Course) {chunks : List (List UInt8)}
    (hcut : chunks.flatten = c.output.all)
    (hshort : ∀ s ∈ c.output.all.splitOn Framer.newline, s.length ≤ Framer.maxLine)
    (hblank : Text.trim c.result.stderr = []) :
    streamed chunks c.exitCode = .ok (Client.answer c.result) := by
  have hlines : linesOf (Framer.frameChunks Framer.maxLine {} chunks) =
      (Framer.segments c.output.all).map Framer.lineText := by
    rw [Framer.frameChunks_toCome _ (.fresh [] false), hcut]
    exact Framer.linesOf_framesOf hshort
  have hfeed : ({} : Transcript).feedAll ((Framer.segments c.output.all).map Framer.lineText) =
      ({} : Transcript).feedAll (Text.lines c.result.stdout) := by
    refine Transcript.feedAll_congr _ ?_
    rw [result, Framer.map_trim_lines, List.map_map]
    rfl
  rw [streamed, hlines, hfeed]
  exact Client.endStream_eq_finish _ hblank

def recordStart : List UInt8 :=
  [123, 34, 116, 121, 112, 101, 34, 58, 34, 116, 101, 120,
    116, 34, 44, 34, 116, 101, 120, 116, 34, 58, 34, 195]

/-- The rest of the record, and a last line that is no text and ends in a carriage return. -/
def recordRest : List UInt8 := [169, 34, 125, 13, 10, 255, 13]

def failing : Course where
  output := .ofBytes (recordStart ++ recordRest)
  errors := .ofBytes [32, 10]
  finish := some .zero
  exitCode := 3

theorem streamed_failing :
    [recordStart, recordRest].flatten = failing.output.all ∧
      (∀ s ∈ failing.output.all.splitOn Framer.newline, s.length ≤ Framer.maxLine) ∧
      Text.trim failing.result.stderr = [] ∧
      streamed [recordStart, recordRest] failing.exitCode =
        .ok (Client.answer failing.result) := by
  have hcut : [recordStart, recordRest].flatten = failing.output.all := by decide
  have hshort : ∀ s ∈ failing.output.all.splitOn Framer.newline, s.length ≤ Framer.maxLine := by
    decide
  have hblank : Text.trim failing.result.stderr = [] := by decide
  exact ⟨hcut, hshort, hblank, streamed_eq_captured failing hcut hshort hblank⟩

end Execution.Course

end AgentGateway
