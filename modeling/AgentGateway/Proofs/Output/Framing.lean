import AgentGateway.Framing
import Mathlib.Data.List.Basic

/-!
# Frames are the segments of the stream

What a framer gives is said here of the stream alone: one frame for each segment that a newline
ends, and one for what stands behind the last newline, if anything does. Framing a stream in
chunks gives exactly these frames, wherever the stream is cut.

The argument carries one quantity along: the frames that are still to come from a framer when
some more bytes follow its buffer (`Framer.toCome`). A step takes its frame off the front of them
and leaves the rest (`Framer.toCome_next`), whatever follows, so it does not matter whether the
bytes that follow are there already.
-/

namespace AgentGateway.Framer

/-- What a segment is framed as: a segment within the limit is read as text, without one carriage
return at its end. -/
def segmentFrame (limit : Nat) (segment : List UInt8) : Frame :=
  if limit < segment.length then .oversized
  else .line (Text.Utf8.decodeLossy
    (if segment.getLast? = some carriageReturn then segment.dropLast else segment))

theorem segmentFrame_eq (limit : Nat) (segment : List UInt8) : segmentFrame limit segment =
    if limit < segment.length then .oversized else .line (lineText segment) := rfl

/-- The segments of a stream that are lines: all that a newline ends, and the last one unless it
is empty. -/
def segments (stream : List UInt8) : List (List UInt8) :=
  let parts := stream.splitOn newline
  let last := parts.getLast?.getD []
  parts.dropLast ++ if last.isEmpty then [] else [last]

/-- The frames of a stream. -/
def framesOf (limit : Nat) (stream : List UInt8) : List Frame :=
  (segments stream).map (segmentFrame limit)

def afterNewline (bytes : List UInt8) : List UInt8 := (bytes.dropWhile (· != newline)).tail

theorem segments_nil : segments [] = [] := rfl

theorem segments_newline {s : List UInt8} (hs : newline ∉ s) (rest : List UInt8) :
    segments (s ++ newline :: rest) = s :: segments rest := by
  have hne : rest.splitOn newline ≠ [] := List.splitOn_ne_nil newline rest
  simp only [segments, List.splitOn_append_cons_self_of_not_mem hs,
    List.dropLast_cons_of_ne_nil hne, List.getLast?_cons, List.cons_append, Option.getD_some,
    List.getLast?_eq_some_getLast hne]

theorem segments_tail {s : List UInt8} (hs : newline ∉ s) (hne : s ≠ []) : segments s = [s] := by
  simp [segments, List.splitOn_eq_singleton hs, hne]

theorem dropWhile_of_not_mem {s : List UInt8} (hs : newline ∉ s) (rest : List UInt8) :
    (s ++ rest).dropWhile (· != newline) = rest.dropWhile (· != newline) :=
  List.dropWhile_append_of_pos fun b hb => by
    simpa using ne_of_mem_of_not_mem hb hs

theorem afterNewline_append {s : List UInt8} (hs : newline ∉ s) (rest : List UInt8) :
    afterNewline (s ++ rest) = afterNewline rest := by
  rw [afterNewline, dropWhile_of_not_mem hs, afterNewline]

theorem afterNewline_newline (rest : List UInt8) : afterNewline (newline :: rest) = rest := by
  simp [afterNewline]

/-- A segment above the limit gives one frame, wherever it ends. -/
theorem framesOf_oversized {limit : Nat} {bytes : List UInt8}
    (hclean : newline ∉ bytes.take (limit + 1)) (hlong : limit < bytes.length) :
    framesOf limit bytes = .oversized :: framesOf limit (afterNewline bytes) := by
  by_cases hmem : newline ∈ bytes
  · obtain ⟨s, rest, rfl, hs⟩ := List.eq_append_cons_of_mem hmem
    have hlen : limit < s.length := by
      by_contra hle
      refine hclean (List.mem_take_iff_getElem.mpr ⟨s.length, ?_, ?_⟩)
      · simp only [List.length_append, List.length_cons]
        omega
      · simp
    rw [framesOf, segments_newline hs, List.map_cons, afterNewline_append hs,
      afterNewline_newline, segmentFrame_eq, if_pos hlen, framesOf]
  · have hne : bytes ≠ [] := by
      rintro rfl
      simp at hlong
    have hafter : afterNewline bytes = [] := by
      have h := afterNewline_append hmem []
      rwa [List.append_nil] at h
    rw [hafter, framesOf, segments_tail hmem hne, List.map_singleton, segmentFrame_eq, if_pos hlong,
      framesOf, segments_nil, List.map_nil]

/-- What a framer remembers of its search is true. -/
structure Sound (f : Framer) : Prop where
  searched_le : f.searched ≤ f.buffer.length
  clean : newline ∉ f.buffer.take f.searched

theorem Sound.fresh (bytes : List UInt8) (discarding : Bool) :
    Sound { buffer := bytes, discarding } :=
  ⟨Nat.zero_le _, by simp⟩

theorem Sound.append {f : Framer} (h : f.Sound) (chunk : List UInt8) : (f.append chunk).Sound where
  searched_le := by
    have := h.searched_le
    simp only [Framer.append, List.length_append]
    omega
  clean := by
    rw [Framer.append, List.take_append_of_le_length h.searched_le]
    exact h.clean

/-- The newline that is found is the first one, and no further off than the limit. -/
theorem Sound.of_newlineAt?_eq_some {limit n : Nat} {f : Framer} (h : f.Sound)
    (hn : f.newlineAt? limit = some n) :
    f.buffer = f.buffer.take n ++ newline :: f.buffer.drop (n + 1) ∧
      newline ∉ f.buffer.take n ∧ (f.buffer.take n).length ≤ limit := by
  have hlt := newlineAt?_lt hn
  obtain ⟨i, hi, rfl⟩ := Option.map_eq_some_iff.mp hn
  obtain ⟨hil, hat, hbefore⟩ := List.findIdx?_eq_some_iff_getElem.mp hi
  simp only [List.length_drop, List.length_take] at hil
  have hnewline : f.buffer[f.searched + i] = newline := by simpa using hat
  refine ⟨?_, ?_, ?_⟩
  · rw [← hnewline, List.getElem_cons_drop, List.take_append_drop]
  · intro hmem
    obtain ⟨j, hj, hjn⟩ := List.mem_take_iff_getElem.mp hmem
    by_cases hjs : j < f.searched
    · exact h.clean (List.mem_take_iff_getElem.mpr ⟨j, by omega, hjn⟩)
    · have hskip := hbefore (j - f.searched) (by omega)
      simp only [List.getElem_drop, List.getElem_take, Nat.add_sub_cancel' (Nat.le_of_not_lt hjs),
        hjn, beq_self_eq_true, not_true_eq_false] at hskip
  · simp only [List.length_take]
    omega

theorem Sound.of_newlineAt?_eq_none {limit : Nat} {f : Framer} (h : f.Sound)
    (hn : f.newlineAt? limit = none) : newline ∉ f.buffer.take (limit + 1) := by
  have hnone := List.findIdx?_eq_none_iff.mp (Option.map_eq_none_iff.mp hn)
  intro hmem
  rw [← List.take_append_drop f.searched (f.buffer.take (limit + 1)), List.take_take] at hmem
  obtain hmem | hmem := List.mem_append.mp hmem
  · exact h.clean ((List.take_prefix_take_left (Nat.min_le_left _ _)).mem hmem)
  · simpa using hnone newline hmem

/-- The frames that are still to come from a framer when some more bytes follow. -/
def toCome (limit : Nat) (f : Framer) (more : List UInt8) : List Frame :=
  framesOf limit
    (if f.discarding then afterNewline (f.buffer ++ more) else f.buffer ++ more)

/-- A step gives the first of the frames to come and leaves the others. -/
theorem toCome_next (limit : Nat) {f : Framer} (h : f.Sound) (more : List UInt8) :
    f.toCome limit more = (f.next limit).1.toList ++ (f.next limit).2.toCome limit more := by
  fun_induction next limit f with
  | case1 f n hn hd ih =>
      obtain ⟨hsplit, hclean, -⟩ := h.of_newlineAt?_eq_some hn
      rw [← ih (.fresh _ _)]
      simp only [toCome, hd, if_true, Bool.false_eq_true, if_false]
      rw [hsplit, List.append_assoc, afterNewline_append hclean, List.cons_append,
        afterNewline_newline, ← hsplit]
  | case2 f n hn hd =>
      obtain ⟨hsplit, hclean, hle⟩ := h.of_newlineAt?_eq_some hn
      simp only [toCome, hd, Bool.false_eq_true, if_false, Option.toList_some,
        List.singleton_append]
      rw [hsplit, List.append_assoc, List.cons_append, framesOf, segments_newline hclean,
        List.map_cons, segmentFrame_eq, if_neg (Nat.not_lt.mpr hle), ← hsplit, framesOf]
  | case3 f hn hd hl =>
      have hclean := h.of_newlineAt?_eq_none hn
      rw [List.take_of_length_le hl] at hclean
      simp [toCome, hd, afterNewline_append hclean]
  | case4 f hn hd hl ih =>
      have hclean := h.of_newlineAt?_eq_none hn
      rw [← ih (.fresh _ _)]
      simp only [toCome, hd, if_true]
      conv_lhs => rw [← List.take_append_drop (limit + 1) f.buffer, List.append_assoc,
        afterNewline_append hclean]
  | case5 f hn hd hl =>
      have hclean := h.of_newlineAt?_eq_none hn
      simp only [toCome, hd, Bool.false_eq_true, if_false, if_true, Option.toList_some,
        List.singleton_append]
      refine framesOf_oversized ?_ (by simp only [List.length_append]; omega)
      rwa [List.take_append_of_le_length hl]
  | case6 f hn hd hl => simp [toCome, hd]

theorem Sound.next (limit : Nat) {f : Framer} (h : f.Sound) : (f.next limit).2.Sound := by
  fun_induction Framer.next limit f with
  | case1 f n hn hd ih => exact ih (.fresh _ _)
  | case2 f n hn hd => exact .fresh _ _
  | case3 f hn hd hl => exact .fresh _ _
  | case4 f hn hd hl ih => exact ih (.fresh _ _)
  | case5 f hn hd hl => exact ⟨h.searched_le, h.clean⟩
  | case6 f hn hd hl =>
      have hclean := h.of_newlineAt?_eq_none hn
      rw [List.take_of_length_le (by omega)] at hclean
      exact ⟨Nat.le_refl _, by rwa [List.take_length]⟩

/-- A framer that has no frame to give holds the beginning of one line at most. -/
theorem rest_of_next_eq_none {limit : Nat} {f g : Framer} (h : f.Sound)
    (hg : f.next limit = (none, g)) :
    (g.discarding = true ∧ g.buffer = []) ∨
      (g.discarding = false ∧ newline ∉ g.buffer ∧ g.buffer.length ≤ limit) := by
  fun_induction Framer.next limit f with
  | case1 f n hn hd ih => exact ih (.fresh _ _) hg
  | case2 f n hn hd => simp at hg
  | case3 f hn hd hl =>
      obtain ⟨-, rfl⟩ := Prod.mk.inj hg
      exact .inl ⟨rfl, rfl⟩
  | case4 f hn hd hl ih => exact ih (.fresh _ _) hg
  | case5 f hn hd hl => simp at hg
  | case6 f hn hd hl =>
      obtain ⟨-, rfl⟩ := Prod.mk.inj hg
      have hclean := h.of_newlineAt?_eq_none hn
      rw [List.take_of_length_le (by omega)] at hclean
      exact .inr ⟨by simpa using hd, hclean, Nat.le_of_not_lt hl⟩

theorem Sound.nextAtEnd (limit : Nat) {f : Framer} (h : f.Sound) :
    (f.nextAtEnd limit).2.Sound := by
  have hnext := h.next limit
  unfold Framer.nextAtEnd
  split
  next heq => simpa only [heq] using hnext
  next heq =>
    rw [heq] at hnext
    split
    next => exact hnext
    next => exact .fresh _ _

/-- When nothing follows, what is left of the buffer is a line, and it is the last frame. -/
theorem toCome_nextAtEnd (limit : Nat) {f : Framer} (h : f.Sound) :
    f.toCome limit [] = (f.nextAtEnd limit).1.toList ++ (f.nextAtEnd limit).2.toCome limit [] := by
  rw [toCome_next limit h]
  unfold Framer.nextAtEnd
  split
  next heq => rw [heq]
  next g heq =>
    rw [heq]
    split
    next => rfl
    next hne =>
      obtain ⟨-, hnil⟩ | ⟨hd, hclean, hle⟩ := rest_of_next_eq_none h heq
      · simp [hnil] at hne
      · simp [toCome, hd, framesOf, segments_tail hclean (by simpa using hne), segmentFrame_eq,
          Nat.not_lt.mpr hle, segments_nil]

theorem toCome_of_nextAtEnd_eq_none {limit : Nat} {f g : Framer}
    (hg : f.nextAtEnd limit = (none, g)) : g.toCome limit [] = [] := by
  unfold Framer.nextAtEnd at hg
  split at hg
  next => simp at hg
  next r heq =>
    split at hg
    next hnil =>
      obtain ⟨-, rfl⟩ := Prod.mk.inj hg
      have hempty : r.buffer = [] := by simpa using hnil
      simp [toCome, hempty, framesOf, segments_nil, afterNewline]
    next => simp at hg

/-- Frames are taken off the front of those to come until there is none to give. -/
theorem drainBy_toCome (limit : Nat) (more : List UInt8) {step : Framer → Option Frame × Framer}
    (shrinks : ∀ f, (step f).2.weight + (step f).1.toList.length ≤ f.weight)
    (hsound : ∀ {f : Framer}, f.Sound → (step f).2.Sound)
    (hstep : ∀ {f : Framer}, f.Sound →
      f.toCome limit more = (step f).1.toList ++ (step f).2.toCome limit more)
    {f : Framer} (h : f.Sound) (done : List Frame) :
    (drainBy step shrinks f done).2.Sound ∧
      (drainBy step shrinks f done).1 ++ (drainBy step shrinks f done).2.toCome limit more =
        done.reverse ++ f.toCome limit more ∧
      ∃ last : Framer, step last = (none, (drainBy step shrinks f done).2) := by
  fun_induction drainBy step shrinks f done with
  | case1 f done frame g heq ih =>
      have hg := hsound h
      have hto := hstep h
      rw [heq] at hg hto
      obtain ⟨hs, hframes, hlast⟩ := ih hg
      exact ⟨hs, by simp [hframes, hto], hlast⟩
  | case2 f done g heq =>
      have hg := hsound h
      have hto := hstep h
      rw [heq] at hg hto
      exact ⟨hg, by simp [hto], f, heq⟩

/-- A framer that is fed in chunks and drained after each gives all the frames to come. -/
theorem frameChunks_toCome (limit : Nat) {f : Framer} (h : f.Sound) (chunks : List (List UInt8)) :
    f.frameChunks limit chunks = f.toCome limit chunks.flatten := by
  induction chunks generalizing f with
  | nil =>
      obtain ⟨-, hframes, last, heq⟩ :=
        drainBy_toCome limit [] (weight_nextAtEnd limit) (fun h => h.nextAtEnd limit)
          (toCome_nextAtEnd limit) h []
      rw [toCome_of_nextAtEnd_eq_none heq, List.append_nil] at hframes
      exact hframes
  | cons chunk rest ih =>
      obtain ⟨hs, hframes, -⟩ :=
        drainBy_toCome limit rest.flatten (weight_next limit) (fun h => h.next limit)
          (fun h => toCome_next limit h _) (h.append chunk) []
      calc f.frameChunks limit (chunk :: rest)
          = ((f.append chunk).drain limit).1 ++
              ((f.append chunk).drain limit).2.toCome limit rest.flatten :=
            congrArg (((f.append chunk).drain limit).1 ++ ·) (ih hs)
        _ = (f.append chunk).toCome limit rest.flatten := hframes
        _ = f.toCome limit (chunk :: rest).flatten := by
            simp only [toCome, Framer.append, List.append_assoc, List.flatten_cons]

/-- However a stream is cut into chunks, its frames are those of its segments. -/
theorem frameChunks_eq (limit : Nat) (chunks : List (List UInt8)) :
    frameChunks limit {} chunks = framesOf limit chunks.flatten :=
  frameChunks_toCome limit (.fresh [] false) chunks

/-- A line that ends in two bytes, an empty one, one that is too long, and the rest. -/
example : framesOf 3 [97, 98, 13, 10, 10, 97, 98, 99, 100, 10, 97, 98] =
    [.line ['a', 'b'], .line [], .oversized, .line ['a', 'b']] := by decide

end AgentGateway.Framer
