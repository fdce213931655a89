import AgentGateway.Stream.Transcript
import Mathlib.Data.List.Count

/-!
# The end of a stream

A transcript may be fed lines, closed and aborted in any order and as often as one likes. Of all
the answers it gives at most one is an event that ends the stream; nothing is answered after it
and nothing that has been gathered changes after it. The outcome of the response says which event
that was.

One call is looked at first: on an open transcript it leaves exactly the outcome that its answer
shows (`Transcript.answer_outcome`), on a closed one it does nothing. A run is then an open part
followed, if there is an ending, by silence (`Transcript.play_of_open`).
-/

namespace AgentGateway

namespace Event

/-- How the stream ended, if the event ends it. -/
def verdict? : Event → Option Verdict
  | completion _ => some .completed
  | failed message => some (.failed message)
  | partialContent _ | toolInvocation _ | undecodable _ _ => none

theorem isSome_verdict? (e : Event) : e.verdict?.isSome = e.isTerminal := by
  cases e <;> rfl

theorem verdict?_eq_completed {e : Event} :
    e.verdict? = some .completed ↔ ∃ usage, e = completion usage := by
  cases e <;> simp [verdict?]

theorem verdict?_eq_failed {e : Event} {message : String} :
    e.verdict? = some (.failed message) ↔ e = failed message := by
  cases e <;> simp [verdict?]

theorem verdict?_ne_incomplete (e : Event) : e.verdict? ≠ some .incomplete := by
  cases e <;> simp [verdict?]

end Event

namespace Transcript

inductive Call where
  | feed (line : List Char)
  | close
  | abort (message : String)
  deriving DecidableEq, Repr, Inhabited

def Call.ends : Call → Bool
  | .feed _ => false
  | .close | .abort _ => true

def answer (t : Transcript) : Call → Transcript × Option Event
  | .feed line => t.feed line
  | .close => t.close
  | .abort message => t.abort message

/-- Makes one call after another and keeps all the answers. -/
def play (t : Transcript) : List Call → Transcript × List (Option Event)
  | [] => (t, [])
  | c :: rest =>
    (((t.answer c).1.play rest).1, (t.answer c).2 :: ((t.answer c).1.play rest).2)

theorem isClosed_eq_false {t : Transcript} : t.isClosed = false ↔ t.outcome = none := by
  simp [isClosed]

theorem addUsage_outcome (t : Transcript) (usage : Option Usage) :
    (t.addUsage usage).outcome = t.outcome := by
  cases usage <;> rfl

theorem apply_outcome {t : Transcript} (h : t.outcome = none) (r : Record) :
    (t.apply r).1.outcome = (t.apply r).2.bind Event.verdict? := by
  cases r with
  | fragment | toolUse | unknown => simpa [apply, Event.verdict?] using h
  | stop | error => simp [apply, complete, fail, Event.verdict?]
  | result isError text totalCost =>
      cases isError <;> simp [apply, complete, fail, Event.verdict?]

theorem feed_outcome {t : Transcript} (h : t.isClosed = false) (line : List Char) :
    (t.feed line).1.outcome = (t.feed line).2.bind Event.verdict? := by
  have ho := isClosed_eq_false.mp h
  dsimp only [feed]
  split
  next => simpa using ho
  next =>
    split
    next => simpa [Event.verdict?] using ho
    next record usage _ => exact apply_outcome (by rw [addUsage_outcome, ho]) record

theorem abort_of_open {t : Transcript} (h : t.isClosed = false) (message : String) :
    t.abort message = ({ t with outcome := some (.failed message) }, some (.failed message)) := by
  simp [abort, h, fail]

theorem answer_outcome {t : Transcript} (h : t.isClosed = false) (c : Call) :
    (t.answer c).1.outcome = (t.answer c).2.bind Event.verdict? := by
  cases c with
  | feed line => exact feed_outcome h line
  | close | abort => simp [answer, close, abort_of_open h, Event.verdict?]

theorem answer_of_ends {t : Transcript} (h : t.isClosed = false) {c : Call} (hc : c.ends = true) :
    ∃ message, (t.answer c).2 = some (.failed message) := by
  cases c with
  | feed => simp [Call.ends] at hc
  | close => exact ⟨_, congrArg Prod.snd (abort_of_open h _)⟩
  | abort message => exact ⟨message, congrArg Prod.snd (abort_of_open h message)⟩

theorem answer_of_closed {t : Transcript} (h : t.isClosed = true) (c : Call) :
    t.answer c = (t, none) := by
  cases c with
  | feed line => simp [answer, feed, h]
  | close | abort => simp [answer, close, abort, h]

theorem play_of_closed {t : Transcript} (h : t.isClosed = true) (calls : List Call) :
    t.play calls = (t, List.replicate calls.length none) := by
  induction calls with
  | nil => rfl
  | cons c calls ih =>
      simp only [play, answer_of_closed h, ih]
      rfl

theorem play_append (t : Transcript) (front back : List Call) :
    t.play (front ++ back) =
      (((t.play front).1.play back).1, (t.play front).2 ++ ((t.play front).1.play back).2) := by
  induction front generalizing t with
  | nil => rfl
  | cons c front ih => simp only [List.cons_append, play, ih]

theorem length_play (t : Transcript) (calls : List Call) :
    (t.play calls).2.length = calls.length := by
  induction calls generalizing t with
  | nil => rfl
  | cons c calls ih => simp only [play, List.length_cons, ih]

/-- A run either ends nowhere, or consists of answers that end nothing, one that does, and
silence. -/
theorem play_of_open {t : Transcript} (h : t.isClosed = false) (calls : List Call) :
    ((∀ c ∈ calls, c.ends = false) ∧ (t.play calls).1.outcome = none ∧
      ∀ x ∈ (t.play calls).2, x.bind Event.verdict? = none) ∨
    ∃ before e n, (t.play calls).2 = before ++ some e :: List.replicate n none ∧
      (∀ x ∈ before, x.bind Event.verdict? = none) ∧ e.isTerminal = true ∧
      (t.play calls).1.outcome = e.verdict? := by
  induction calls generalizing t with
  | nil => exact .inl ⟨by simp, isClosed_eq_false.mp h, by simp [play]⟩
  | cons c calls ih =>
      have ho := answer_outcome h c
      cases hv : (t.answer c).2.bind Event.verdict? with
      | some v =>
          obtain ⟨e, he, hve⟩ := Option.bind_eq_some_iff.mp hv
          have hclosed : (t.answer c).1.isClosed = true := by simp [isClosed, ho, hv]
          refine .inr ⟨[], e, calls.length, ?_, by simp, by simp [← e.isSome_verdict?, hve], ?_⟩
          · simp only [play, play_of_closed hclosed, he, List.nil_append]
          · simp only [play, play_of_closed hclosed, ho, hv, hve]
      | none =>
          have hopen : (t.answer c).1.isClosed = false := by simp [isClosed, ho, hv]
          have hc : c.ends = false := by
            by_contra hends
            obtain ⟨message, hm⟩ := answer_of_ends h (by simpa using hends)
            simp [hm, Event.verdict?] at hv
          obtain ⟨hcalls, hnone, hall⟩ | ⟨before, e, n, heq, hbefore, he, hout⟩ := ih hopen
          · exact .inl ⟨List.forall_mem_cons.mpr ⟨hc, hcalls⟩, hnone,
              List.forall_mem_cons.mpr ⟨hv, hall⟩⟩
          · exact .inr ⟨(t.answer c).2 :: before, e, n, by simp [play, heq],
              List.forall_mem_cons.mpr ⟨hv, hbefore⟩, he, hout⟩

def endings (answers : List (Option Event)) : List Event :=
  (answers.filterMap id).filter (·.isTerminal)

/-- A stream ends once at most, and the end is what its outcome says. At most one event ends the
stream, exactly one if the stream was closed or aborted, and no event comes after it. The transcript
is closed exactly from that event on, and what was gathered then is what there is in the end. -/
structure EndsOnce (calls : List Call) (answers : List (Option Event)) (t : Transcript) :
    Prop where
  once : (endings answers).length ≤ 1
  certain : (∃ c ∈ calls, c.ends = true) → (endings answers).length = 1
  silence : ∀ before e after, answers = before ++ some e :: after → e.isTerminal = true →
    ∀ x ∈ after, x = none
  closed_iff : ∀ front back, calls = front ++ back →
    ((({} : Transcript).play front).1.isClosed = true ↔
      endings (answers.take front.length) ≠ [])
  completed_iff : t.response.outcome = .completed ↔ ∃ usage, .completion usage ∈ endings answers
  failed_iff : ∀ message, t.response.outcome = .failed message ↔ .failed message ∈ endings answers
  incomplete_iff : t.response.outcome = .incomplete ↔ endings answers = []
  stays : ∀ front back, calls = front ++ back → (({} : Transcript).play front).1.isClosed = true →
    t = (({} : Transcript).play front).1

theorem endings_eq_nil {answers : List (Option Event)} :
    endings answers = [] ↔ ∀ x ∈ answers, x.bind Event.verdict? = none := by
  simp only [endings, List.filter_eq_nil_iff, List.mem_filterMap, id_eq, ← Event.isSome_verdict?]
  constructor
  · intro h x hx
    cases x with
    | none => rfl
    | some e => simpa using h e ⟨some e, hx, rfl⟩
  · rintro h e ⟨x, hx, rfl⟩
    simpa using h (some e) hx

theorem endings_replicate_none (n : Nat) : endings (List.replicate n none) = [] :=
  endings_eq_nil.mpr fun x hx => by rw [List.eq_of_mem_replicate hx]; rfl

theorem endings_append (a b : List (Option Event)) : endings (a ++ b) = endings a ++ endings b := by
  simp [endings, List.filterMap_append]

theorem endings_of_last {before : List (Option Event)} {e : Event} (he : e.isTerminal = true)
    (hbefore : ∀ x ∈ before, x.bind Event.verdict? = none) (n : Nat) :
    endings (before ++ some e :: List.replicate n none) = [e] := by
  have hone : endings [some e] = [e] := by simp [endings, he]
  rw [endings_append, endings_eq_nil.mpr hbefore, ← List.singleton_append (x := some e),
    endings_append, hone, endings_replicate_none]
  rfl

/-- An answer that ends the stream can only be the one before the silence. -/
theorem silence_of_last {before front after : List (Option Event)} {e e' : Event} {n : Nat}
    (hbefore : ∀ x ∈ before, x.bind Event.verdict? = none) (he' : e'.isTerminal = true)
    (h : before ++ some e :: List.replicate n none = front ++ some e' :: after) :
    ∀ x ∈ after, x = none := by
  have hfront : some e' ∉ before := by
    intro hmem
    have hv : e'.verdict? = none := hbefore _ hmem
    simp [← e'.isSome_verdict?, hv] at he'
  have hback : some e' ∉ List.replicate n none := fun hmem => by
    simpa using List.eq_of_mem_replicate hmem
  obtain ⟨as, rfl, has⟩ | ⟨bs, rfl, hbs⟩ := List.append_eq_append_iff.mp h
  · cases as with
    | nil =>
        obtain ⟨-, rfl⟩ := List.cons.inj has
        exact fun x hx => List.eq_of_mem_replicate hx
    | cons a as =>
        obtain ⟨-, htail⟩ := List.cons.inj has
        exact absurd (by simp [htail]) hback
  · cases bs with
    | nil =>
        obtain ⟨-, rfl⟩ := List.cons.inj hbs
        exact fun x hx => List.eq_of_mem_replicate hx
    | cons b bs =>
        obtain ⟨rfl, -⟩ := List.cons.inj hbs
        exact absurd (by simp) hfront

/-- A transcript is closed when one of its answers has ended the stream. -/
theorem isClosed_play (calls : List Call) :
    (({} : Transcript).play calls).1.isClosed = true ↔
      endings (({} : Transcript).play calls).2 ≠ [] := by
  obtain ⟨-, hnone, hall⟩ | ⟨before, e, n, heq, hbefore, he, hout⟩ :=
    play_of_open (t := {}) rfl calls
  · simp [isClosed, hnone, endings_eq_nil.mpr hall]
  · have hsome : e.verdict?.isSome = true := by rw [e.isSome_verdict?, he]
    simp [isClosed, hout, hsome, heq, endings_of_last he hbefore]

theorem isClosed_take {calls front back : List Call} (h : calls = front ++ back) :
    (({} : Transcript).play front).1.isClosed = true ↔
      endings ((({} : Transcript).play calls).2.take front.length) ≠ [] := by
  have htake : (({} : Transcript).play calls).2.take front.length =
      (({} : Transcript).play front).2 := by
    rw [h, play_append, ← length_play {} front, List.take_left]
  rw [htake]
  exact isClosed_play front

/-- What was gathered when a transcript closed is what there is in the end. -/
theorem play_of_closed_front {calls front back : List Call} (h : calls = front ++ back)
    (hclosed : (({} : Transcript).play front).1.isClosed = true) :
    (({} : Transcript).play calls).1 = (({} : Transcript).play front).1 := by
  simp only [h, play_append, play_of_closed hclosed]

/-- Whatever is asked of a fresh transcript, its stream ends at most once, and nothing comes or
changes after that. -/
theorem play_endsOnce (calls : List Call) :
    EndsOnce calls (({} : Transcript).play calls).2 (({} : Transcript).play calls).1 := by
  obtain ⟨hcalls, hnone, hall⟩ | ⟨before, e, n, heq, hbefore, he, hout⟩ :=
    play_of_open (t := {}) rfl calls
  · have hend := endings_eq_nil.mpr hall
    have hsilent : (({} : Transcript).play calls).1.response.outcome = .incomplete := by
      simp [response, hnone]
    refine ⟨by simp [hend], ?_, ?_, fun _ _ => isClosed_take, by simp [hsilent, hend],
      by simp [hsilent, hend], by simp [hsilent, hend], fun _ _ => play_of_closed_front⟩
    · rintro ⟨c, hc, hends⟩
      simp [hcalls c hc] at hends
    · intro front e after heq he
      have hv : e.verdict? = none := hall (some e) (by simp [heq])
      simp [← e.isSome_verdict?, hv] at he
  · have hend : endings (({} : Transcript).play calls).2 = [e] := by
      rw [heq, endings_of_last he hbefore]
    have hsome : e.verdict?.isSome = true := by rw [e.isSome_verdict?, he]
    obtain ⟨v, hv⟩ := Option.isSome_iff_exists.mp hsome
    have hres : (({} : Transcript).play calls).1.response.outcome = v := by
      simp [response, hout, hv]
    refine ⟨by simp [hend], by simp [hend], ?_, fun _ _ => isClosed_take, ?_, ?_, ?_,
      fun _ _ => play_of_closed_front⟩
    · intro front e' after heq' he'
      exact silence_of_last hbefore he' (heq.symm.trans heq')
    · have hcompleted := Event.verdict?_eq_completed (e := e)
      rw [hv, Option.some_inj] at hcompleted
      simp only [hres, hend, List.mem_singleton, hcompleted, eq_comm]
    · intro message
      have hfailed : e.verdict? = some (.failed message) ↔ e = .failed message :=
        Event.verdict?_eq_failed
      rw [hv, Option.some_inj] at hfailed
      simp only [hres, hend, List.mem_singleton, hfailed, eq_comm]
    · have hne : v ≠ .incomplete := fun hi => e.verdict?_ne_incomplete (hi ▸ hv)
      simp [hres, hend, hne]

end Transcript

end AgentGateway
