import AgentGateway.Proofs.Retry.Attempts

/-!
# Cancelled attempts

A cancellation that comes while some work is tried stops the retrying. Until then all goes on as
it would without one. If it comes during a wait, the work ends at once, and if it comes during an
attempt, then that attempt is the last one, whether the attempt heeds the cancellation or not.

A wait may end at the very moment of the cancellation, and then either of the two may be noticed
first. So what can come of the attempts is a relation (`Retry.Possible`) that allows for both, and
the loop takes one of the ways that it allows (`Retry.possible_run`). The results are about all of
them.
-/

namespace AgentGateway.Retry

variable {ρ α : Type} {r : Retry} {work : Work ρ α} {request : ρ} {c start : Duration} {n : Nat}
  {report : Report ρ α}

/-- What can come of the attempts from number `n` on, the first of which starts at a moment, if a
cancellation comes at `c`. A wait begins when an attempt ends, so that is the first moment at which
the cancellation is noticed. -/
inductive Possible (r : Retry) (work : Work ρ α) (request : ρ) (c : Duration) :
    Nat → Duration → Report ρ α → Prop
  | finished {n : Nat} {start finish : Duration} {outcome : Except Failure α}
      (hwork : work request n start = (finish, outcome))
      (hdecide : r.decide n outcome = .finish) :
      Possible r work request c n start ⟨[{ request, start, finish, outcome }], finish, outcome⟩
  | cut {n : Nat} {start finish wait : Duration} {outcome : Except Failure α}
      (hwork : work request n start = (finish, outcome))
      (hdecide : r.decide n outcome = .again wait)
      (hwake : later finish c ≤ (finish + wait).tick) :
      Possible r work request c n start
        ⟨[{ request, start, finish, outcome, wait := some wait }], later finish c,
          .error cancelled⟩
  | resumed {n : Nat} {start finish wait : Duration} {outcome : Except Failure α}
      {rest : Report ρ α} (hwork : work request n start = (finish, outcome))
      (hdecide : r.decide n outcome = .again wait)
      (hwake : (finish + wait).tick ≤ later finish c)
      (hrest : Possible r work request c (n + 1) (finish + wait).tick rest) :
      Possible r work request c n start
        { rest with
          trials := { request, start, finish, outcome, wait := some wait } :: rest.trials }

/-- All waits of the schedule take some time. -/
def Patient (r : Retry) : Prop :=
  ∀ n < r.backoff.attempts, 1 ≤ n → Duration.zero < r.backoff.delayAfter n

theorem nanos_later (a b : Duration) : (later a b).nanos = max a.nanos b.nanos := by
  unfold later
  split_ifs with h
  · exact (Nat.max_eq_right h).symm
  · exact (Nat.max_eq_left (Nat.le_of_not_le h)).symm

theorem later_of_le {a b : Duration} (h : b ≤ a) : later a b = a := by
  unfold later
  split_ifs with hle
  · exact congrArg Duration.mk (Nat.le_antisymm h hle)
  · rfl

theorem le_wake (finish wait : Duration) : finish ≤ (finish + wait).tick :=
  Nat.le_trans (Nat.le_add_right _ _) (Duration.le_tick _)

theorem Ends.decide_eq {outcome : Except Failure α} (h : r.Ends n outcome) :
    r.decide n outcome = .finish := by
  rcases h with ⟨a, rfl⟩ | ⟨e, rfl, hno⟩ | hlast
  · rfl
  · simp [decide, hno]
  · cases outcome with
    | ok a => rfl
    | error e => simp [decide, attempts_eq, hlast]

theorem decide_eq_again {outcome : Except Failure α} {wait : Duration}
    (h : r.decide n outcome = .again wait) :
    n < r.backoff.attempts ∧ wait = r.backoff.delayAfter n := by
  unfold decide at h
  split at h
  next => cases h
  next =>
    split_ifs at h with hagain
    cases h
    exact ⟨hagain.1, rfl⟩

theorem Patient.lt_wake (h : r.Patient) (hn : 1 ≤ n) {outcome : Except Failure α}
    {finish wait : Duration} (hdecide : r.decide n outcome = .again wait) :
    finish < (finish + wait).tick := by
  obtain ⟨hlt, rfl⟩ := decide_eq_again hdecide
  have hpos := h n hlt hn
  have htick := Duration.le_tick (finish + r.backoff.delayAfter n)
  simp only [Duration.lt_def, Duration.le_def, Duration.nanos_add, Duration.zero] at *
  omega

theorem possible_runFrom (r : Retry) (work : Work ρ α) (request : ρ) (c : Duration)
    (left n : Nat) (hleft : n + left = r.backoff.attempts) (start : Duration) :
    Possible r work request c n start (r.runFrom work request (some c) left n start) := by
  induction left generalizing n start with
  | zero =>
      have hends : r.Ends n (work request n start).2 :=
        .inr (.inr (by rw [← attempts_eq]; omega))
      exact .finished rfl ((decide_eq_finish_iff (by omega) _).mpr hends)
  | succ left ih =>
      cases hdecide : r.decide n (work request n start).2 with
      | finish =>
          simp only [runFrom, hdecide]
          exact .finished rfl hdecide
      | again wait =>
          have hlate := le_wake (work request n start).1 wait
          have hmax := nanos_later (work request n start).1 c
          simp only [runFrom, hdecide, isCancelledBefore, decide_eq_true_eq]
          split_ifs with hwake
          · apply Possible.cut rfl hdecide
            simp only [Duration.le_def, Duration.lt_def] at *
            omega
          · apply Possible.resumed rfl hdecide
            · simp only [Duration.le_def, Duration.lt_def] at *
              omega
            · exact ih (n + 1) (by omega) _

theorem possible_run (r : Retry) (work : Work ρ α) (request : ρ) (c start : Duration) :
    Possible r work request c 1 start (r.run work request (some c) start) := by
  have hpos : 1 ≤ r.backoff.attempts := Nat.le_max_right _ _
  exact possible_runFrom r work request c (r.backoff.attempts - 1) 1 (by omega) start

namespace Possible

theorem length_pos (h : Possible r work request c n start report) :
    0 < report.trials.length := by
  cases h <;> simp

theorem start_eq (h : Possible r work request c n start report) :
    ∀ t ∈ report.trials.head?, t.start = start := by
  cases h <;> simp

theorem call (h : Possible r work request c n start report) (i : Nat)
    (hi : i < report.trials.length) :
    report.trials[i].request = request ∧
      work request (n + i) report.trials[i].start =
        (report.trials[i].finish, report.trials[i].outcome) := by
  induction h generalizing i with
  | finished hwork | cut hwork =>
      obtain rfl : i = 0 := by simpa using hi
      exact ⟨rfl, hwork⟩
  | resumed hwork _ _ _ ih =>
      cases i with
      | zero => exact ⟨rfl, hwork⟩
      | succ i =>
          have hrest := ih i (by simpa using hi)
          rw [Nat.succ_add_eq_add_succ] at hrest
          exact hrest

/-- A wait that is not cut short ends by the moment of the cancellation. -/
theorem start_le (h : Possible r work request c n start report) (hpatient : r.Patient)
    (hn : 1 ≤ n) (hstart : start ≤ c) : ∀ t ∈ report.trials, t.start ≤ c := by
  induction h with
  | finished | cut =>
      intro t ht
      rw [List.mem_singleton.mp ht]
      exact hstart
  | @resumed n _ finish wait outcome _ _ hdecide hwake _ ih =>
      have hlt : finish < (finish + wait).tick := hpatient.lt_wake hn hdecide
      have hmax := nanos_later finish c
      intro t ht
      rcases List.mem_cons.mp ht with rfl | ht
      · exact hstart
      · apply ih (by omega) _ t ht
        simp only [Duration.le_def, Duration.lt_def] at *
        omega

/-- An attempt after which there is nothing more to do is the last one, and its outcome stands. -/
theorem of_finish (h : Possible r work request c n start report) (i : Nat)
    (hi : i < report.trials.length)
    (hdecide : r.decide (n + i) report.trials[i].outcome = .finish) :
    i + 1 = report.trials.length ∧ report.finish = report.trials[i].finish ∧
      report.outcome = report.trials[i].outcome := by
  induction h generalizing i with
  | finished =>
      obtain rfl : i = 0 := by simpa using hi
      exact ⟨rfl, rfl, rfl⟩
  | cut _ hagain =>
      obtain rfl : i = 0 := by simpa using hi
      rw [Nat.add_zero, List.getElem_cons_zero, hagain] at hdecide
      cases hdecide
  | resumed _ hagain _ _ ih =>
      cases i with
      | zero =>
          rw [Nat.add_zero, List.getElem_cons_zero, hagain] at hdecide
          cases hdecide
      | succ i =>
          rw [← Nat.succ_add_eq_add_succ] at hdecide
          obtain ⟨hlast, hout⟩ := ih i (by simpa using hi) hdecide
          exact ⟨congrArg (· + 1) hlast, hout⟩

/-- A wait that would end after the cancellation is cut short: at once, if it begins after the
cancellation has come. -/
theorem of_lt_wake (h : Possible r work request c n start report) (hpatient : r.Patient)
    (hn : 1 ≤ n) (i : Nat) (hi : i < report.trials.length) {wait : Duration}
    (hdecide : r.decide (n + i) report.trials[i].outcome = .again wait)
    (hwake : c < (report.trials[i].finish + wait).tick) :
    i + 1 = report.trials.length ∧ report.finish = later report.trials[i].finish c ∧
      report.outcome = .error cancelled := by
  induction h generalizing i with
  | finished _ hfinish =>
      obtain rfl : i = 0 := by simpa using hi
      rw [Nat.add_zero, List.getElem_cons_zero, hfinish] at hdecide
      cases hdecide
  | cut =>
      obtain rfl : i = 0 := by simpa using hi
      exact ⟨rfl, rfl, rfl⟩
  | @resumed n _ finish _ _ _ _ hagain hdue _ ih =>
      cases i with
      | zero =>
          -- The wait would have to be over when it begins.
          have hlt : finish < (finish + wait).tick := hpatient.lt_wake hn hdecide
          rw [Nat.add_zero, List.getElem_cons_zero, hagain] at hdecide
          cases hdecide
          have hmax := nanos_later finish c
          simp only [List.getElem_cons_zero, Duration.le_def, Duration.lt_def] at *
          omega
      | succ i =>
          rw [← Nat.succ_add_eq_add_succ] at hdecide
          obtain ⟨hlast, hout⟩ := ih (by omega) i (by simpa using hi) hdecide hwake
          exact ⟨congrArg (· + 1) hlast, hout⟩

/-- A wait that ends before the cancellation is followed by the next attempt. -/
theorem of_wake_lt (h : Possible r work request c n start report) (i : Nat)
    (hi : i < report.trials.length) {wait : Duration}
    (hdecide : r.decide (n + i) report.trials[i].outcome = .again wait)
    (hwake : (report.trials[i].finish + wait).tick < c) :
    ∃ hnext : i + 1 < report.trials.length,
      report.trials[i + 1].start = (report.trials[i].finish + wait).tick := by
  induction h generalizing i with
  | finished _ hfinish =>
      obtain rfl : i = 0 := by simpa using hi
      rw [Nat.add_zero, List.getElem_cons_zero, hfinish] at hdecide
      cases hdecide
  | @cut n _ finish _ _ _ hagain hdue =>
      obtain rfl : i = 0 := by simpa using hi
      rw [Nat.add_zero, List.getElem_cons_zero, hagain] at hdecide
      cases hdecide
      have hmax := nanos_later finish c
      simp only [List.getElem_cons_zero, Duration.le_def, Duration.lt_def] at *
      omega
  | @resumed _ _ _ _ _ rest _ hagain _ hrest ih =>
      cases i with
      | zero =>
          rw [Nat.add_zero, List.getElem_cons_zero, hagain] at hdecide
          cases hdecide
          have hpos := hrest.length_pos
          refine ⟨Nat.succ_lt_succ hpos, hrest.start_eq _ ?_⟩
          rw [List.head?_eq_getElem?]
          exact List.getElem?_eq_getElem hpos
      | succ i =>
          rw [← Nat.succ_add_eq_add_succ] at hdecide
          obtain ⟨hnext, hstart⟩ := ih i (by simpa using hi) hdecide hwake
          exact ⟨Nat.succ_lt_succ hnext, hstart⟩

end Possible

/-- What a cancellation makes of attempts, numbered from one, that are under way when it comes. No
attempt starts after it. Before it a failed attempt is followed by a wait and the next attempt. A
wait that is in progress at that moment ends then. An attempt that ends after it with a failure to
try again after is the last one, and no time is spent on a wait. The outcome of any other last
attempt stands, whenever the cancellation comes. -/
structure Halted (r : Retry) (work : Work ρ α) (request : ρ) (start c : Duration)
    (report : Report ρ α) : Prop where
  first : ∃ t ∈ report.trials.head?, t.start = start
  calls : ∀ n (hn : n < report.trials.length), report.trials[n].request = request ∧
    work request (n + 1) report.trials[n].start =
      (report.trials[n].finish, report.trials[n].outcome)
  starts : ∀ t ∈ report.trials, t.start ≤ c
  resumes : ∀ n (hn : n < report.trials.length) wait,
    r.decide (n + 1) report.trials[n].outcome = .again wait →
    (report.trials[n].finish + wait).tick < c →
    ∃ hnext : n + 1 < report.trials.length,
      report.trials[n + 1].start = (report.trials[n].finish + wait).tick
  interrupted : ∀ n (hn : n < report.trials.length) wait,
    r.decide (n + 1) report.trials[n].outcome = .again wait →
    report.trials[n].finish ≤ c → c < (report.trials[n].finish + wait).tick →
    n + 1 = report.trials.length ∧ report.finish = c ∧
      report.outcome = .error (.cancelled "execution cancelled by caller")
  stopped : ∀ n (hn : n < report.trials.length) wait,
    r.decide (n + 1) report.trials[n].outcome = .again wait → c ≤ report.trials[n].finish →
    n + 1 = report.trials.length ∧ report.finish = report.trials[n].finish ∧
      report.outcome = .error (.cancelled "execution cancelled by caller")
  kept : ∀ n (hn : n < report.trials.length), r.Ends (n + 1) report.trials[n].outcome →
    n + 1 = report.trials.length ∧ report.finish = report.trials[n].finish ∧
      report.outcome = report.trials[n].outcome

theorem run_halted (r : Retry) (work : Work ρ α) (request : ρ) {start c : Duration}
    (hstart : start ≤ c) (hpatient : r.Patient) :
    Possible r work request c 1 start (r.run work request (some c) start) ∧
      ∀ report, Possible r work request c 1 start report →
        Halted r work request start c report := by
  constructor
  · exact possible_run r work request c start
  · intro report h
    constructor
    · have hfirst := List.head?_eq_some_head (List.ne_nil_of_length_pos h.length_pos)
      exact ⟨_, hfirst, h.start_eq _ hfirst⟩
    · intro n hn
      have hcall := h.call n hn
      rwa [Nat.add_comm 1 n] at hcall
    · exact h.start_le hpatient (Nat.le_refl 1) hstart
    · intro n hn wait hdecide hwake
      rw [Nat.add_comm n 1] at hdecide
      exact h.of_wake_lt n hn hdecide hwake
    · intro n hn wait hdecide hbegun hwake
      rw [Nat.add_comm n 1] at hdecide
      obtain ⟨hlast, hfinish, hout⟩ := h.of_lt_wake hpatient (Nat.le_refl 1) n hn hdecide hwake
      exact ⟨hlast, hfinish.trans (if_pos hbegun), hout⟩
    · intro n hn wait hdecide hlate
      rw [Nat.add_comm n 1] at hdecide
      have hlt : report.trials[n].finish < (report.trials[n].finish + wait).tick :=
        hpatient.lt_wake (by omega) hdecide
      have hwake : c < (report.trials[n].finish + wait).tick := Nat.lt_of_le_of_lt hlate hlt
      obtain ⟨hlast, hfinish, hout⟩ := h.of_lt_wake hpatient (Nat.le_refl 1) n hn hdecide hwake
      exact ⟨hlast, hfinish.trans (later_of_le hlate), hout⟩
    · intro n hn hends
      have hdecide := hends.decide_eq
      rw [Nat.add_comm n 1] at hdecide
      exact h.of_finish n hn hdecide

/-- Attempts that each take two seconds and fail, however early they are cancelled, with waits of
one second between them. The cancellation comes in the middle of the first wait. -/
theorem stubborn_halted :
    let r : Retry := ⟨⟨3, .ofSeconds 1, .ofNat 1, .ofSeconds 1⟩, fun _ => true⟩
    let work : Work Unit Unit := fun _ _ start => (start + .ofSeconds 2, .error (.io "busy"))
    let report := r.run work () (some (.ofMillis 2500)) .zero
    Duration.zero ≤ .ofMillis 2500 ∧ r.Patient ∧
      Halted r work () .zero (.ofMillis 2500) report ∧
      report.trials.length = 1 ∧ report.finish = .ofMillis 2500 := by
  intro r work report
  have hstart : Duration.zero ≤ .ofMillis 2500 := by decide
  have hpatient : r.Patient := by
    unfold Patient
    decide +kernel
  have hhalted := run_halted r work () hstart hpatient
  exact ⟨hstart, hpatient, hhalted.2 _ hhalted.1, by decide +kernel, by decide +kernel⟩

end AgentGateway.Retry
