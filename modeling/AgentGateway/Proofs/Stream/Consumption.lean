import AgentGateway.Proofs.Stream.Account
import Mathlib.Algebra.Ring.Nat

/-!
# What a stream has used

The usage of a stream is that of its records: of all that decode, up to and including the one that
ends it, whatever their type. Token counts are kept by additions that stop at the largest count;
the count after any number of them is the true sum, or the largest count if the sum is beyond it.
A line that cannot be decoded reports nothing, and neither does a line after the end.

An open transcript adds what a line's record reports (`Transcript.feed_consumes`). Its usage after
all lines is therefore a fold over the records of the stream, and sums are read off the fold.
-/

namespace AgentGateway

namespace Usage

theorem maxTokens_eq : maxTokens = 2 ^ 64 - 1 := rfl

theorem addTokens_min (a b : Nat) : addTokens (min a maxTokens) b = min (a + b) maxTokens := by
  unfold addTokens
  omega

/-- The usage after one more record: what it reports is added, and a cost that it names for the
whole stream takes the place of the sum. -/
def consume (u : Usage) (report : Option Usage) (totalCost : Option Binary64) : Usage :=
  let u := report.elim u u.accumulate
  { u with cost := totalCost.or u.cost }

@[simp] theorem consume_inputTokens (u : Usage) (report : Option Usage)
    (totalCost : Option Binary64) :
    (u.consume report totalCost).inputTokens =
      report.elim u.inputTokens fun v => addTokens u.inputTokens v.inputTokens := by
  cases report <;> rfl

@[simp] theorem consume_outputTokens (u : Usage) (report : Option Usage)
    (totalCost : Option Binary64) :
    (u.consume report totalCost).outputTokens =
      report.elim u.outputTokens fun v => addTokens u.outputTokens v.outputTokens := by
  cases report <;> rfl

theorem isSome_cost_consume (u : Usage) (report : Option Usage) (totalCost : Option Binary64) :
    (u.consume report totalCost).cost.isSome =
      (u.cost.isSome || (report.any (·.cost.isSome) || totalCost.isSome)) := by
  cases totalCost with
  | some cost => simp [consume]
  | none =>
      cases report with
      | none => simp [consume]
      | some v => cases h : v.cost <;> simp [consume, accumulate, h]

end Usage

def Record.totalCost? : Record → Option Binary64
  | .result _ _ totalCost => totalCost
  | .fragment _ | .toolUse _ | .stop | .error _ | .unknown _ => none

namespace Transcript

/-- The usage reports of a stream. -/
def reports (lines : List (List Char)) : List Usage := (records lines).filterMap (·.2)

/-! ## One line -/

theorem addUsage_usage (t : Transcript) (report : Option Usage) :
    (t.addUsage report).usage = report.elim t.usage t.usage.accumulate := by
  cases report <;> rfl

theorem apply_totalCost (t : Transcript) (r : Record) :
    (t.apply r).1.usage = { t.usage with cost := r.totalCost?.or t.usage.cost } := by
  cases r with
  | fragment | toolUse | stop | error | unknown => rfl
  | result isError text totalCost =>
      cases isError <;> cases totalCost <;> by_cases hempty : t.content = "" <;>
        simp [apply, complete, fail, Record.totalCost?, hempty]

theorem feed_of_decoded {t : Transcript} (h : t.isClosed = false) {line : List Char}
    {d : Record × Option Usage} (hd : decoded? line = some d) :
    t.feed line = (t.addUsage d.2).apply d.1 := by
  cases hblank : (Text.trim line).isEmpty with
  | true => simp [decoded?, hblank] at hd
  | false =>
      cases hdecode : Record.decode (Text.trim line) with
      | error message => simp [decoded?, hblank, hdecode, Except.toOption] at hd
      | ok d' =>
          obtain rfl : d' = d := by simpa [decoded?, hblank, hdecode, Except.toOption] using hd
          simp [feed, hblank, h, hdecode]

theorem feed_of_not_decoded {t : Transcript} (h : t.isClosed = false) {line : List Char}
    (hd : decoded? line = none) :
    ∃ n event, t.feed line = ({ t with decodeFailures := n }, event) := by
  cases hblank : (Text.trim line).isEmpty with
  | true => exact ⟨t.decodeFailures, none, by simp [feed, hblank]⟩
  | false =>
      cases hdecode : Record.decode (Text.trim line) with
      | error message =>
          exact ⟨t.decodeFailures + 1, some (.undecodable message (String.ofList (Text.trim line))),
            by simp [feed, hblank, h, hdecode]⟩
      | ok d => simp [decoded?, hblank, hdecode, Except.toOption] at hd

/-- An open transcript adds the report of a line's record and goes on unless the record ends it. -/
theorem feed_consumes {t : Transcript} (h : t.isClosed = false) (line : List Char) :
    (t.feed line).1.usage =
        (decoded? line).elim t.usage (fun d => t.usage.consume d.2 d.1.totalCost?) ∧
      (t.feed line).1.isClosed = (decoded? line).any (·.1.ends) := by
  cases hd : decoded? line with
  | none =>
      obtain ⟨n, event, hfeed⟩ := feed_of_not_decoded h hd
      rw [hfeed]
      exact ⟨rfl, h⟩
  | some d =>
      rw [feed_of_decoded h hd]
      constructor
      · rw [apply_totalCost, addUsage_usage]
        rfl
      · exact (applied _ d.1).isClosed (by rw [isClosed, addUsage_outcome]; exact h)

theorem feed_of_undecodable {t : Transcript} {line : List Char} {message text : String}
    (h : (t.feed line).2 = some (.undecodable message text)) :
    (t.feed line).1 = { t with decodeFailures := t.decodeFailures + 1 } := by
  cases hclosed : t.isClosed with
  | true =>
      have hsilent : t.feed line = (t, none) := answer_of_closed hclosed (.feed line)
      rw [hsilent] at h
      cases h
  | false =>
      have hfed := fed hclosed line
      generalize t.feed line = out at hfed h
      cases hfed with
      | blank => cases h
      | undecodable => rfl
      | decoded => exact absurd h ((applied _ _).ne_undecodable _ _)

/-! ## All lines -/

theorem feedAll_consumes {t : Transcript} (h : t.isClosed = false) (lines : List (List Char)) :
    (t.feedAll lines).1.usage =
      (records lines).foldl (fun u d => u.consume d.2 d.1.totalCost?) t.usage := by
  induction lines generalizing t with
  | nil => rfl
  | cons line lines ih =>
      obtain ⟨husage, hclosed⟩ := feed_consumes h line
      simp only [feedAll]
      cases hd : decoded? line with
      | none =>
          simp only [hd, Option.elim_none, Option.any_none] at husage hclosed
          have hrecords : records (line :: lines) = records lines := by simp [records, hd]
          rw [hrecords, ih hclosed, husage]
      | some d =>
          simp only [hd, Option.elim_some, Option.any_some] at husage hclosed
          cases hends : d.1.ends with
          | true =>
              -- The lines that are left fall on a closed transcript.
              have hrecords : records (line :: lines) = [d] := by simp [records, hd, hends]
              rw [hrecords, feedAll_of_closed (hclosed.trans hends)]
              exact husage
          | false =>
              have hrecords : records (line :: lines) = d :: records lines := by
                simp [records, hd, hends]
              rw [hrecords, List.foldl_cons, ih (hclosed.trans hends), husage]

theorem foldl_tokens {count : Usage → Nat}
    (hcount : ∀ u report totalCost, count (Usage.consume u report totalCost) =
      report.elim (count u) fun v => Usage.addTokens (count u) (count v))
    (rs : List (Record × Option Usage)) (u : Usage) (n : Nat)
    (hu : count u = min n Usage.maxTokens) :
    count (rs.foldl (fun u d => u.consume d.2 d.1.totalCost?) u) =
      min (n + ((rs.filterMap (·.2)).map count).sum) Usage.maxTokens := by
  -- `n` is the true sum so far, of which the count keeps as much as it can hold.
  induction rs generalizing u n with
  | nil => simpa using hu
  | cons d rs ih =>
      obtain ⟨r, report⟩ := d
      cases report with
      | none => exact ih _ n (by simpa [hcount] using hu)
      | some v =>
          have hstep := ih (u.consume (some v) r.totalCost?) (n + count v)
            (by rw [hcount, Option.elim_some, hu, Usage.addTokens_min])
          simpa [Nat.add_assoc] using hstep

theorem foldl_cost (rs : List (Record × Option Usage)) (u : Usage) :
    (rs.foldl (fun u d => u.consume d.2 d.1.totalCost?) u).cost.isSome =
      (u.cost.isSome || rs.any fun d => d.2.any (·.cost.isSome) || d.1.totalCost?.isSome) := by
  induction rs generalizing u with
  | nil => simp
  | cons d rs ih =>
      rw [List.foldl_cons, ih, Usage.isSome_cost_consume, List.any_cons, Bool.or_assoc]

theorem getLast?_records {lines : List (List Char)} {d : Record × Option Usage}
    (hd : d ∈ records lines) (hends : d.1.ends = true) : (records lines).getLast? = some d := by
  induction lines with
  | nil => simp [records] at hd
  | cons line lines ih =>
      unfold records at hd ⊢
      split at hd
      next => exact ih hd
      next d' _ =>
        split at hd
        next hends' =>
          obtain rfl := List.mem_singleton.mp hd
          simp [hends']
        next hends' =>
          obtain rfl | hd := List.mem_cons.mp hd
          · exact absurd hends hends'
          · simp [hends', List.getLast?_cons, ih hd]

theorem ends_of_totalCost? {r : Record} (h : r.totalCost?.isSome = true) : r.ends = true := by
  cases r <;> first | rfl | cases h

theorem totalCost?_of_recordOf {members : List (String × Json)} {r : Record}
    (h : RecordOf members r) (cost : Binary64) :
    r.totalCost? = some cost ↔ members.lookup "type" = some (.string "result") ∧
      (members.lookup "total_cost_usd").bind Json.real? = some cost := by
  constructor
  · intro hcost
    cases h with
    | result htype _ _ htotal => exact ⟨htype, (htotal.eq_bind rfl).symm.trans hcost⟩
    | fragment | toolUse | stop | error | unknown => cases hcost
  · rintro ⟨htype, hcost⟩
    obtain ⟨_, _, _, rfl, -, -, htotal⟩ := h.exists_result htype
    exact (htotal.eq_bind rfl).trans hcost

/-- What a stream with these lines has used, and what leaves that alone. Each count is the true sum
of what the lines report, or the largest count. What a line reports is what its members say, token
by token and cost by cost. A cost is known just when a report has named one, or the result that ends
the stream, under `total_cost_usd`. A line that cannot be decoded changes nothing but the count of
such lines, and a line after the end contributes nothing. -/
structure Metered (lines : List (List Char)) (u : Usage) : Prop where
  inputTokens : u.inputTokens = min ((reports lines).map Usage.inputTokens).sum (2 ^ 64 - 1)
  outputTokens : u.outputTokens = min ((reports lines).map Usage.outputTokens).sum (2 ^ 64 - 1)
  totalTokens : u.totalTokens =
    min (((reports lines).map Usage.inputTokens).sum + ((reports lines).map Usage.outputTokens).sum)
      (2 ^ 64 - 1)
  cost : u.cost.isSome = true ↔ (∃ report ∈ reports lines, report.cost.isSome = true) ∨
    ∃ d ∈ (records lines).getLast?, d.1.ends = true ∧ d.1.totalCost?.isSome = true
  reported : ∀ line members, CompactObject line members → ∀ r report,
    decoded? line = some (r, report) ↔ RecordOf members r ∧ UsageOf members report
  totalCost : ∀ line members, CompactObject line members → ∀ d ∈ decoded? line, ∀ cost,
    d.1.totalCost? = some cost ↔ members.lookup "type" = some (.string "result") ∧
      (members.lookup "total_cost_usd").bind Json.real? = some cost
  atomic : ∀ (t : Transcript) line message text,
    (t.feed line).2 = some (.undecodable message text) →
      (t.feed line).1 = { t with decodeFailures := t.decodeFailures + 1 }
  silent : ∀ (t : Transcript) line, t.isClosed = true → t.feed line = (t, none)

/-- Whatever lines a stream has, its usage is that of its records. -/
theorem feedAll_metered (lines : List (List Char)) :
    Metered lines (({} : Transcript).feedAll lines).1.response.usage := by
  have hfold : (({} : Transcript).feedAll lines).1.response.usage =
      (records lines).foldl (fun u d => u.consume d.2 d.1.totalCost?) {} :=
    feedAll_consumes (t := {}) rfl lines
  have hinput := foldl_tokens Usage.consume_inputTokens (records lines) {} 0 rfl
  have houtput := foldl_tokens Usage.consume_outputTokens (records lines) {} 0 rfl
  have hcost := foldl_cost (records lines) {}
  rw [← hfold, Nat.zero_add, Usage.maxTokens_eq] at hinput houtput
  rw [← hfold] at hcost
  refine ⟨hinput, houtput, ?_, ?_, fun _ _ => decoded?_iff,
    fun _ _ h d hd => totalCost?_of_recordOf ((decoded?_iff h d.1 d.2).mp hd).1,
    fun _ _ _ _ => feed_of_undecodable, fun _ line h => answer_of_closed h (.feed line)⟩
  · rw [Usage.totalTokens, hinput, houtput, ← Usage.maxTokens_eq, Usage.addTokens_min]
    unfold reports
    omega
  · rw [hcost, Option.isSome_none, Bool.false_or, List.any_eq_true]
    constructor
    · rintro ⟨d, hd, hnamed⟩
      obtain hreport | htotal := Bool.or_eq_true_iff.mp hnamed
      · obtain ⟨report, hsome, hcost⟩ := (Option.any_eq_true _ _).mp hreport
        exact .inl ⟨report, List.mem_filterMap.mpr ⟨d, hd, hsome⟩, hcost⟩
      · have hends := ends_of_totalCost? htotal
        exact .inr ⟨d, getLast?_records hd hends, hends, htotal⟩
    · rintro (⟨report, hreport, hcost⟩ | ⟨d, hlast, -, htotal⟩)
      · obtain ⟨d, hd, hsome⟩ := List.mem_filterMap.mp hreport
        exact ⟨d, hd, by simp [hsome, hcost]⟩
      · exact ⟨d, List.mem_of_getLast? hlast, by simp [htotal]⟩

end Transcript

end AgentGateway
