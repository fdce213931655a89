import AgentGateway.Retry
import Mathlib.Data.List.Basic

/-!
# Which attempts are made

Without a cancellation a piece of work is tried until an attempt is the last one: it succeeds, its
failure is not one to try again after, or it uses up the budget. Every attempt gets the same
request, exactly one wait lies between two attempts, and the outcome of the last attempt is the
outcome of the whole.

The history is first described as the loop builds it (`Retry.Course`): the last attempt by itself,
or an attempt, its wait and the rest of the history. What holds of each place in it is then an
induction along that description.
-/

namespace AgentGateway.Retry

variable {ρ α : Type} {r : Retry} {work : Work ρ α} {request : ρ}

/-- Attempt number `n` with this outcome is the last one. -/
def Ends (r : Retry) (n : Nat) (outcome : Except Failure α) : Prop :=
  (∃ a, outcome = .ok a) ∨ (∃ e, outcome = .error e ∧ r.accepts e = false) ∨
    n = Nat.max 1 r.backoff.maxAttempts

theorem attempts_eq (b : Backoff) : b.attempts = Nat.max 1 b.maxAttempts :=
  Nat.max_comm _ _

/-- Within the budget the last attempt is the one after which there is nothing more to do. -/
theorem decide_eq_finish_iff {n : Nat} (hn : n ≤ r.backoff.attempts)
    (outcome : Except Failure α) : r.decide n outcome = .finish ↔ r.Ends n outcome := by
  rw [attempts_eq] at hn
  cases outcome with
  | ok a => simp [decide, Ends]
  | error e =>
      have hlast : n < r.backoff.attempts ↔ ¬ n = Nat.max 1 r.backoff.maxAttempts := by
        rw [attempts_eq]
        omega
      cases haccepts : r.accepts e <;> simp [decide, Ends, hlast, haccepts]

theorem decide_of_not_ends {n : Nat} (hn : n ≤ r.backoff.attempts)
    {outcome : Except Failure α} (h : ¬ r.Ends n outcome) :
    n < r.backoff.attempts ∧ r.decide n outcome = .again (r.backoff.delayAfter n) := by
  cases outcome with
  | ok a => exact absurd (.inl ⟨a, rfl⟩) h
  | error e =>
      have hlast : n ≠ r.backoff.attempts := fun heq =>
        h (.inr (.inr (heq.trans (attempts_eq _))))
      have hlt : n < r.backoff.attempts := by omega
      cases haccepts : r.accepts e with
      | false => exact absurd (.inr (.inl ⟨e, rfl, haccepts⟩)) h
      | true => exact ⟨hlt, by simp [decide, hlt, haccepts]⟩

/-- The attempts from number `n` on, the first of which starts at a moment. -/
inductive Course (r : Retry) (work : Work ρ α) (request : ρ) :
    Nat → Duration → List (Trial ρ α) → Prop
  | last {n : Nat} {start finish : Duration} {outcome : Except Failure α}
      (hwork : work request n start = (finish, outcome)) (hends : r.Ends n outcome) :
      Course r work request n start [{ request, start, finish, outcome }]
  | more {n : Nat} {start finish : Duration} {outcome : Except Failure α}
      {rest : List (Trial ρ α)} (hwork : work request n start = (finish, outcome))
      (hends : ¬ r.Ends n outcome)
      (hrest : Course r work request (n + 1) (finish + r.backoff.delayAfter n).tick rest) :
      Course r work request n start
        ({ request, start, finish, outcome, wait := some (r.backoff.delayAfter n) } :: rest)

theorem course_runFrom (r : Retry) (work : Work ρ α) (request : ρ) (left n : Nat)
    (hleft : n + left = r.backoff.attempts) (start : Duration) :
    Course r work request n start (r.runFrom work request none left n start).trials ∧
      ∃ t ∈ (r.runFrom work request none left n start).trials.getLast?,
        (r.runFrom work request none left n start).outcome = t.outcome ∧
        (r.runFrom work request none left n start).finish = t.finish := by
  -- Attempts that are left become attempts that are made, and the sum is the budget throughout.
  induction left generalizing n start with
  | zero =>
      have hends : r.Ends n (work request n start).2 :=
        .inr (.inr (by rw [← attempts_eq]; omega))
      exact ⟨.last rfl hends, _, rfl, rfl, rfl⟩
  | succ left ih =>
      by_cases hends : r.Ends n (work request n start).2
      · have hdecide := (decide_eq_finish_iff (by omega) _).mpr hends
        simp only [runFrom, hdecide]
        exact ⟨.last rfl hends, _, rfl, rfl, rfl⟩
      · obtain ⟨-, hdecide⟩ := decide_of_not_ends (by omega) hends
        obtain ⟨hcourse, t, hlast, hout⟩ := ih (n + 1) (by omega)
          ((work request n start).1 + r.backoff.delayAfter n).tick
        simp only [runFrom, hdecide, isCancelledBefore, Bool.false_eq_true, if_false]
        refine ⟨.more rfl hends hcourse, t, ?_, hout⟩
        rw [Option.mem_def] at hlast ⊢
        rw [List.getLast?_cons, hlast]
        rfl

namespace Course

variable {n : Nat} {start : Duration} {trials : List (Trial ρ α)}

theorem length_pos (h : Course r work request n start trials) : 0 < trials.length := by
  cases h <;> simp

theorem length_le (h : Course r work request n start trials) (hn : n ≤ r.backoff.attempts) :
    n + trials.length ≤ r.backoff.attempts + 1 := by
  induction h with
  | last => simpa using hn
  | more _ hends _ ih =>
      have hlt := (decide_of_not_ends hn hends).1
      have hrest := ih hlt
      simp only [List.length_cons]
      omega

theorem start_eq (h : Course r work request n start trials) :
    ∀ t ∈ trials.head?, t.start = start := by
  cases h <;> simp

/-- Every place of the history is an attempt of the work on the request, with its number. -/
theorem call (h : Course r work request n start trials) (i : Nat) (hi : i < trials.length) :
    trials[i].request = request ∧
      work request (n + i) trials[i].start = (trials[i].finish, trials[i].outcome) := by
  induction h generalizing i with
  | last hwork =>
      obtain rfl : i = 0 := by simpa using hi
      exact ⟨rfl, hwork⟩
  | more hwork _ _ ih =>
      cases i with
      | zero => exact ⟨rfl, hwork⟩
      | succ i =>
          have hrest := ih i (by simpa using hi)
          rw [Nat.succ_add_eq_add_succ] at hrest
          exact hrest

/-- Only the last attempt is one after which there is nothing more to do. -/
theorem ends_iff (h : Course r work request n start trials) (i : Nat) (hi : i < trials.length) :
    r.Ends (n + i) trials[i].outcome ↔ i + 1 = trials.length := by
  induction h generalizing i with
  | last _ hends =>
      obtain rfl : i = 0 := by simpa using hi
      simpa using hends
  | more _ hends hrest ih =>
      have hpos := hrest.length_pos
      cases i with
      | zero =>
          simp only [Nat.add_zero, List.getElem_cons_zero, List.length_cons]
          exact iff_of_false hends (by omega)
      | succ i =>
          have hiff := ih i (by simpa using hi)
          rw [Nat.succ_add_eq_add_succ] at hiff
          simpa using hiff

theorem wait_eq (h : Course r work request n start trials) (i : Nat) (hi : i < trials.length) :
    trials[i].wait =
      if i + 1 < trials.length then some (r.backoff.delayAfter (n + i)) else none := by
  induction h generalizing i with
  | last =>
      obtain rfl : i = 0 := by simpa using hi
      rfl
  | more _ _ hrest ih =>
      have hpos := hrest.length_pos
      cases i with
      | zero => simp [hpos]
      | succ i =>
          have hwait := ih i (by simpa using hi)
          rw [Nat.succ_add_eq_add_succ] at hwait
          simpa using hwait

theorem start_succ (h : Course r work request n start trials) (i : Nat)
    (hi : i + 1 < trials.length) :
    trials[i + 1].start = (trials[i].finish + r.backoff.delayAfter (n + i)).tick := by
  induction h generalizing i with
  | last => simp at hi
  | more _ _ hrest ih =>
      cases i with
      | zero =>
          refine hrest.start_eq _ ?_
          rw [List.head?_eq_getElem?]
          exact List.getElem?_eq_getElem hrest.length_pos
      | succ i =>
          have hstart := ih i (by simpa using hi)
          simp only [Nat.succ_add_eq_add_succ] at hstart
          exact hstart

end Course

/-- The attempts that were made, numbered from one, and what came of them. At least one is made and
no more than the budget allows, so their number never outgrows the word that holds the budget: they
are the first ones up to the one that is the last. Every attempt gets the same request. The first is
made at once, between two attempts lies exactly one wait, of the length that the schedule gives, and
no wait follows the last. It all ends when the last attempt does, and as it does. -/
structure Tried (r : Retry) (work : Work ρ α) (request : ρ) (start : Duration)
    (report : Report ρ α) : Prop where
  count : 1 ≤ report.trials.length ∧ report.trials.length ≤ Nat.max 1 r.backoff.maxAttempts
  fits : r.backoff.maxAttempts ≤ maxWord32 → report.trials.length ≤ maxWord32
  least : ∀ n (hn : n < report.trials.length),
    r.Ends (n + 1) report.trials[n].outcome ↔ n + 1 = report.trials.length
  calls : ∀ n (hn : n < report.trials.length), report.trials[n].request = request ∧
    work request (n + 1) report.trials[n].start =
      (report.trials[n].finish, report.trials[n].outcome)
  first : ∀ t ∈ report.trials.head?, t.start = start
  waits : ∀ n (hn : n < report.trials.length), report.trials[n].wait =
    if n + 1 < report.trials.length then some (r.backoff.delayAfter (n + 1)) else none
  resumes : ∀ n (hn : n + 1 < report.trials.length), report.trials[n + 1].start =
    (report.trials[n].finish + r.backoff.delayAfter (n + 1)).tick
  result : ∃ t ∈ report.trials.getLast?, report.outcome = t.outcome ∧ report.finish = t.finish

/-- Work that nobody cancels is tried until an attempt is the last one, whatever the attempts come
to. -/
theorem run_tried (r : Retry) (work : Work ρ α) (request : ρ) (start : Duration) :
    Tried r work request start (r.run work request none start) := by
  have hpos : 1 ≤ r.backoff.attempts := Nat.le_max_right _ _
  obtain ⟨hcourse, hresult⟩ :=
    course_runFrom r work request (r.backoff.attempts - 1) 1 (by omega) start
  have hlength :
      (r.run work request none start).trials.length ≤ Nat.max 1 r.backoff.maxAttempts := by
    have hle := hcourse.length_le hpos
    rw [← attempts_eq, run]
    omega
  refine ⟨⟨hcourse.length_pos, hlength⟩, ?_, ?_, ?_, hcourse.start_eq, ?_, ?_, hresult⟩
  · intro hword
    exact Nat.le_trans hlength (Nat.max_le.mpr ⟨by decide, hword⟩)
  · intro n hn
    have hends := hcourse.ends_iff n hn
    rwa [Nat.add_comm 1 n] at hends
  · intro n hn
    have hcall := hcourse.call n hn
    rwa [Nat.add_comm 1 n] at hcall
  · intro n hn
    have hwait := hcourse.wait_eq n hn
    rwa [Nat.add_comm 1 n] at hwait
  · intro n hn
    have hnext := hcourse.start_succ n hn
    rwa [Nat.add_comm 1 n] at hnext

end AgentGateway.Retry
