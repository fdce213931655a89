import AgentGateway.Proofs.Output.Framing

/-!
# The buffer of a framer stays small

A framer is handed chunks, and is asked for frames any number of times in between. Whenever it has
none to give, it holds at most one line at the limit, without a newline, and nothing at all of a
line that it throws away. This is the invariant of a search that resumes within what is looked at
(`Framer.Steady`), kept by every chunk and every question.

Asking until there is no frame comes to an end. The note that a line is above the limit takes no
bytes, so bytes do not show it; but each frame uses up a newline or is the one that may come
before the next newline does (`Framer.toEnd`).
-/

namespace AgentGateway.Framer

/-- What is done with a framer while its stream lasts: a chunk arrives, or it is asked for a frame.
-/
inductive Touch where
  | append (chunk : List UInt8)
  | next
  deriving DecidableEq, Repr, Inhabited

def touch (limit : Nat) (f : Framer) : Touch → Framer
  | .append chunk => f.append chunk
  | .next => (f.next limit).2

def play (limit : Nat) (f : Framer) (touches : List Touch) : Framer :=
  touches.foldl (touch limit) f

/-- What a framer remembers of its search is true, and the search goes on within what is looked
at. -/
structure Steady (limit : Nat) (f : Framer) : Prop extends Sound f where
  searched_le_limit : f.searched ≤ limit

variable {limit : Nat} {f g : Framer}

theorem Steady.fresh (limit : Nat) (bytes : List UInt8) (discarding : Bool) :
    Steady limit { buffer := bytes, discarding } :=
  ⟨.fresh bytes discarding, Nat.zero_le _⟩

theorem Steady.append (h : f.Steady limit) (chunk : List UInt8) : (f.append chunk).Steady limit :=
  ⟨h.toSound.append chunk, h.searched_le_limit⟩

theorem Steady.next (h : f.Steady limit) : (f.next limit).2.Steady limit := by
  refine ⟨h.toSound.next limit, ?_⟩
  have hstart := h.searched_le_limit
  clear h
  fun_induction Framer.next limit f with
  | case1 f n hn hd ih => exact ih (Nat.zero_le _)
  | case2 f n hn hd => exact Nat.zero_le _
  | case3 f hn hd hl => exact Nat.zero_le _
  | case4 f hn hd hl ih => exact ih (Nat.zero_le _)
  | case5 f hn hd hl => exact hstart
  | case6 f hn hd hl => exact Nat.le_of_not_lt hl

theorem Steady.touch (h : f.Steady limit) (t : Touch) : (f.touch limit t).Steady limit := by
  cases t with
  | append chunk => exact h.append chunk
  | next => exact h.next

theorem Steady.play (h : f.Steady limit) (touches : List Touch) :
    (f.play limit touches).Steady limit := by
  induction touches generalizing f with
  | nil => exact h
  | cons t touches ih => exact ih (h.touch t)

/-! ## Asking until there is no frame -/

/-- The frames that a framer gives when it is asked until it gives none, and what is left. -/
inductive Gives (limit : Nat) : Framer → List Frame → Framer → Prop
  | done {f g : Framer} (h : f.next limit = (none, g)) : Gives limit f [] g
  | more {f g rest : Framer} {frame : Frame} {frames : List Frame}
      (h : f.next limit = (some frame, g)) (hrest : Gives limit g frames rest) :
      Gives limit f (frame :: frames) rest

theorem exists_gives_drainBy (limit : Nat) (f : Framer) (given : List Frame) :
    ∃ frames, (drainBy (Framer.next limit) (weight_next limit) f given).1 =
        given.reverse ++ frames ∧
      Gives limit f frames (drainBy (Framer.next limit) (weight_next limit) f given).2 := by
  fun_induction drainBy (Framer.next limit) (weight_next limit) f given with
  | case1 f given frame g heq ih =>
      obtain ⟨frames, hframes, hgives⟩ := ih
      exact ⟨frame :: frames, by simp [hframes], .more heq hgives⟩
  | case2 f given g heq => exact ⟨[], by simp, .done heq⟩

theorem gives_drain (limit : Nat) (f : Framer) :
    Gives limit f (f.drain limit).1 (f.drain limit).2 := by
  obtain ⟨frames, hframes, hgives⟩ := exists_gives_drainBy limit f []
  obtain rfl : (f.drain limit).1 = frames := hframes
  exact hgives

/-- The most frames that a framer may give before more bytes come. -/
def toEnd (f : Framer) : Nat := f.buffer.count newline + if f.discarding then 0 else 1

theorem toEnd_le (f : Framer) : f.toEnd ≤ f.buffer.count newline + 1 := by
  unfold toEnd
  split <;> omega

theorem count_of_newlineAt? {n : Nat} (h : f.Sound) (hn : f.newlineAt? limit = some n) :
    f.buffer.count newline = (f.buffer.drop (n + 1)).count newline + 1 := by
  obtain ⟨hsplit, hclean, -⟩ := h.of_newlineAt?_eq_some hn
  conv_lhs => rw [hsplit]
  rw [List.count_append, List.count_eq_zero.mpr hclean, Nat.zero_add, List.count_cons_self]

theorem toEnd_next (limit : Nat) {f : Framer} (h : f.Sound) :
    (f.next limit).2.toEnd + (f.next limit).1.toList.length ≤ f.toEnd := by
  fun_induction Framer.next limit f with
  | case1 f n hn hd ih =>
      -- the newline that ends the line thrown away makes up for the frames that may follow it
      have hstep := ih (.fresh _ _)
      simp only [toEnd, hd, count_of_newlineAt? h hn, if_true, Bool.false_eq_true, if_false]
        at hstep ⊢
      exact hstep
  | case2 f n hn hd =>
      simp [toEnd, hd, count_of_newlineAt? h hn]
  | case3 f hn hd hl => simp [toEnd]
  | case4 f hn hd hl ih =>
      have hstep := ih (.fresh _ _)
      have hsub : (f.buffer.drop (limit + 1)).count newline ≤ f.buffer.count newline :=
        (List.drop_sublist _ _).count_le _
      simp only [toEnd, hd, if_true] at hstep ⊢
      omega
  | case5 f hn hd hl => simp [toEnd, hd]
  | case6 f hn hd hl => simp [toEnd]

theorem Gives.length_le {frames : List Frame} (hgives : Gives limit f frames g) (h : f.Sound) :
    frames.length ≤ f.toEnd := by
  induction hgives with
  | done => exact Nat.zero_le _
  | more heq _ ih =>
      have hnext := h.next limit
      have hstep := toEnd_next limit h
      rw [heq] at hnext hstep
      have hrest := ih hnext
      simp only [Option.toList_some, List.length_cons] at hstep ⊢
      omega

/-- At most one line at the limit is held, no newline, and nothing of a line thrown away. -/
structure AtRest (limit : Nat) (g : Framer) : Prop where
  length_le : g.buffer.length ≤ limit
  clean : newline ∉ g.buffer
  empty : g.discarding = true → g.buffer = []

theorem atRest_of_next (h : f.Sound) (hg : f.next limit = (none, g)) : g.AtRest limit := by
  obtain ⟨-, hnil⟩ | ⟨hkeeps, hclean, hle⟩ := rest_of_next_eq_none h hg
  · exact ⟨by simp [hnil], by simp [hnil], fun _ => hnil⟩
  · exact ⟨hle, hclean, fun hd => by simp [hkeeps] at hd⟩

theorem Gives.atRest {frames : List Frame} (hgives : Gives limit f frames g) (h : f.Sound) :
    g.AtRest limit := by
  induction hgives with
  | done heq => exact atRest_of_next h heq
  | more heq _ ih =>
      have hnext := h.next limit
      rw [heq] at hnext
      exact ih hnext

/-- What is known of a framer, whatever has been done with it. Its search starts within the bytes
that are looked at. If it is asked and has no frame to give, little is left; if it is asked until it
has none to give, there is an end to that: it gives at most one frame for each newline it holds and
one more. -/
structure Contained (limit : Nat) (f : Framer) : Prop where
  resumes : f.searched ≤ (f.buffer.take (limit + 1)).length
  rest : ∀ {g}, f.next limit = (none, g) → g.AtRest limit
  ends : ∃ frames g, Gives limit f frames g ∧ f.drain limit = (frames, g) ∧ g.AtRest limit ∧
    frames.length ≤ f.buffer.count newline + 1

/-- However a stream is cut into chunks and however often a framer is asked in between, its buffer
is bounded once it has no frame to give, and asking it comes to that. -/
theorem play_contained (limit : Nat) (touches : List Touch) :
    Contained limit (({} : Framer).play limit touches) := by
  have h := (Steady.fresh limit [] false).play touches
  have hgives := gives_drain limit (({} : Framer).play limit touches)
  refine ⟨?_, fun hg => atRest_of_next h.toSound hg,
    _, _, hgives, rfl, hgives.atRest h.toSound,
    Nat.le_trans (hgives.length_le h.toSound) (toEnd_le _)⟩
  rw [List.length_take, Nat.le_min]
  exact ⟨Nat.le_succ_of_le h.searched_le_limit, h.searched_le⟩

/-- A line above the limit is noted before its end has come; what has come of it goes with the
next question. -/
example :
    ({} : Framer).play 3 [.append [97, 98], .next, .append [99, 100, 101], .next, .next] =
      { discarding := true } := by
  decide +kernel

end AgentGateway.Framer
