import AgentGateway.Client.Desk
import Mathlib.Data.List.Basic

/-!
# What is due for one call

Tasks of all calls stand on one agenda in the order of their times. Of the tasks of one call
those that were put down later are due no earlier, so what is due for a call (`Agenda.select`)
is a queue of its own: a task that is put down comes last, and the one that is done next is the
first. The lines of an execution and its end are put down together, in the order in which they
come.
-/

namespace AgentGateway

namespace Agenda

variable {τ : Type} {a : Agenda τ} {p : τ → Bool} {due : Duration} {x : τ}

def Ordered (a : Agenda τ) : Prop := a.items.Pairwise fun e f => e.1 ≤ f.1

/-- The things of one kind, in the order in which they are due. -/
def select (a : Agenda τ) (p : τ → Bool) : List τ := (a.items.map (·.2)).filter p

def DueBy (a : Agenda τ) (p : τ → Bool) (moment : Duration) : Prop :=
  ∀ e ∈ a.items, p e.2 = true → e.1 ≤ moment

theorem mem_insert {e : Duration × τ} {l : List (Duration × τ)} :
    e ∈ insert due x l ↔ e = (due, x) ∨ e ∈ l := by
  induction l with
  | nil => simp [insert]
  | cons f l ih =>
      rw [insert]
      split_ifs
      · rw [List.mem_cons, ih, List.mem_cons]
        exact or_left_comm
      · rw [List.mem_cons]

theorem Ordered.add (h : a.Ordered) (due : Duration) (x : τ) : (a.add due x).Ordered := by
  obtain ⟨items⟩ := a
  change (insert due x items).Pairwise _
  change items.Pairwise _ at h
  induction items with
  | nil => exact List.pairwise_singleton _ _
  | cons f items ih =>
      obtain ⟨hfirst, hrest⟩ := List.pairwise_cons.mp h
      rw [insert]
      split_ifs with hle
      · refine List.pairwise_cons.mpr ⟨fun e he => ?_, ih hrest⟩
        rcases mem_insert.mp he with rfl | he
        · exact hle
        · exact hfirst e he
      · have hlt : due ≤ f.1 := Nat.le_of_not_le hle
        refine List.pairwise_cons.mpr ⟨fun e he => ?_, h⟩
        rcases List.mem_cons.mp he with rfl | he
        · exact hlt
        · exact Nat.le_trans hlt (hfirst e he)

theorem select_add_of_neg (h : p x = false) (a : Agenda τ) (due : Duration) :
    (a.add due x).select p = a.select p := by
  obtain ⟨items⟩ := a
  change ((insert due x items).map (·.2)).filter p = (items.map (·.2)).filter p
  induction items with
  | nil => simp [insert, h]
  | cons f items ih =>
      rw [insert]
      split_ifs
      · simp only [List.map_cons, List.filter_cons, ih]
      · rw [List.map_cons, List.filter_cons_of_neg (by simp [h])]

/-- What is put down comes last, if nothing of its kind is due later. -/
theorem select_add_of_pos (ho : a.Ordered) (hp : p x = true) (hdue : a.DueBy p due) :
    (a.add due x).select p = a.select p ++ [x] := by
  obtain ⟨items⟩ := a
  change ((insert due x items).map (·.2)).filter p = (items.map (·.2)).filter p ++ [x]
  change items.Pairwise _ at ho
  change ∀ e ∈ items, p e.2 = true → e.1 ≤ due at hdue
  induction items with
  | nil => simp [insert, hp]
  | cons f items ih =>
      obtain ⟨hfirst, hrest⟩ := List.pairwise_cons.mp ho
      have hlater := ih hrest fun e he => hdue e (List.mem_cons_of_mem _ he)
      rw [insert]
      split_ifs with hle
      · simp only [List.map_cons, List.filter_cons, hlater]
        split_ifs <;> rfl
      · -- All that follows is due later still, so nothing of this kind is among it.
        have hnone : (((f :: items).map (·.2)).filter p) = [] := by
          rw [List.filter_eq_nil_iff]
          intro y hy hpy
          obtain ⟨e, he, rfl⟩ := List.mem_map.mp hy
          have hearly : e.1 ≤ due := hdue e he hpy
          rcases List.mem_cons.mp he with rfl | he
          · exact hle hearly
          · exact hle (Nat.le_trans (hfirst e he) hearly)
        rw [List.map_cons, List.filter_cons_of_pos hp]
        simp only [hnone, List.nil_append]

theorem DueBy.add {moment : Duration} (h : a.DueBy p moment) (hle : due ≤ moment) :
    (a.add due x).DueBy p moment := by
  intro e he hpe
  rcases mem_insert.mp he with rfl | he
  · exact hle
  · exact h e he hpe

theorem dueBy_of_select_eq_nil (h : a.select p = []) (moment : Duration) :
    a.DueBy p moment := by
  intro e he hpe
  have hnot := List.filter_eq_nil_iff.mp h e.2 (List.mem_map_of_mem he)
  exact absurd hpe hnot

theorem next?_eq_some {moment t : Duration} {rest : Agenda τ}
    (h : a.next? moment = some (t, x, rest)) : a.items = (t, x) :: rest.items := by
  unfold next? at h
  split at h
  next u y rest' heq =>
    split_ifs at h
    cases h
    exact heq
  next => cases h

theorem Ordered.next (h : a.Ordered) {moment t : Duration} {rest : Agenda τ}
    (hnext : a.next? moment = some (t, x, rest)) : rest.Ordered := by
  rw [Ordered, next?_eq_some hnext] at h
  exact (List.pairwise_cons.mp h).2

theorem select_next {moment t : Duration} {rest : Agenda τ}
    (hnext : a.next? moment = some (t, x, rest)) :
    a.select p = if p x then x :: rest.select p else rest.select p := by
  rw [select, next?_eq_some hnext, List.map_cons, List.filter_cons]
  rfl

/-- Takes the first thing of a kind, whenever it is due. -/
def take? (a : Agenda τ) (p : τ → Bool) : Option (τ × Agenda τ) :=
  (a.items.find? (p ·.2)).map fun e => (e.2, ⟨a.items.eraseP (p ·.2)⟩)

/-- What is taken stood behind things of other kinds, and all the rest stays. -/
theorem take?_eq_some {rest : Agenda τ} (h : a.take? p = some (x, rest)) :
    ∃ before due after, a.items = before ++ (due, x) :: after ∧ rest = ⟨before ++ after⟩ ∧
      p x = true ∧ ∀ e ∈ before, p e.2 = false := by
  obtain ⟨e, he, heq⟩ := Option.map_eq_some_iff.mp h
  obtain ⟨rfl, rfl⟩ := Prod.mk.inj heq
  obtain ⟨hp, before, after, hitems, hbefore⟩ := List.find?_eq_some_iff_append.mp he
  have hnot : ∀ e ∈ before, p e.2 = false := fun e he => by simpa using hbefore e he
  refine ⟨before, e.1, after, hitems, ?_, hp, hnot⟩
  rw [hitems, List.eraseP_append_right _ fun e he => by simp [hnot e he],
    List.eraseP_cons_of_pos (p := fun e : Duration × τ => p e.2) hp]

theorem Ordered.take (h : a.Ordered) {rest : Agenda τ} (htake : a.take? p = some (x, rest)) :
    rest.Ordered := by
  obtain ⟨before, due, after, hitems, rfl, -, -⟩ := take?_eq_some htake
  rw [Ordered, hitems] at h
  exact h.sublist ((List.Sublist.refl before).append (List.sublist_cons_self _ _))

theorem select_take {rest : Agenda τ} (htake : a.take? p = some (x, rest)) :
    a.select p = x :: rest.select p := by
  obtain ⟨before, due, after, hitems, rfl, hp, hbefore⟩ := take?_eq_some htake
  have hnone : (before.map (·.2)).filter p = [] := by
    rw [List.filter_eq_nil_iff]
    intro y hy
    obtain ⟨e, he, rfl⟩ := List.mem_map.mp hy
    simp [hbefore e he]
  rw [select, select, hitems, List.map_append, List.filter_append, hnone, List.map_append,
    List.filter_append, hnone, List.map_cons, List.filter_cons_of_pos hp]
  rfl

theorem select_take_of_neg {rest : Agenda τ} (htake : a.take? p = some (x, rest))
    {q : τ → Bool} (hq : q x = false) : a.select q = rest.select q := by
  obtain ⟨before, due, after, hitems, rfl, -, -⟩ := take?_eq_some htake
  rw [select, select, hitems, List.map_append, List.filter_append, List.map_cons,
    List.filter_cons_of_neg (by simp [hq]), List.map_append, List.filter_append]

theorem Ordered.remove (h : a.Ordered) (q : τ → Bool) : (a.remove q).Ordered :=
  h.sublist List.filter_sublist

theorem select_remove (a : Agenda τ) (p q : τ → Bool) :
    (a.remove q).select p = (a.select p).filter (!q ·) := by
  simp only [select, remove, List.filter_map, List.filter_filter]
  exact congrArg _ (List.filter_congr fun e _ => Bool.and_comm _ _)

/-- Things of one kind that are put down in the order in which they are due come in that order
after all that is due before them, and are due by the time of the last one. -/
theorem foldl_add {f : String → τ} (hp : ∀ text, p (f text) = true)
    {plan : List (Duration × String)} (hplan : plan.Pairwise fun e g => e.1 ≤ g.1)
    {a : Agenda τ} (ho : a.Ordered) (hdue : ∀ e ∈ plan, a.DueBy p e.1) {last : Duration}
    (hlast : ∀ e ∈ plan, e.1 ≤ last) (hbefore : a.DueBy p last) :
    (plan.foldl (fun a e => a.add e.1 (f e.2)) a).Ordered ∧
      (plan.foldl (fun a e => a.add e.1 (f e.2)) a).select p =
        a.select p ++ plan.map (f ·.2) ∧
      (plan.foldl (fun a e => a.add e.1 (f e.2)) a).DueBy p last := by
  induction plan generalizing a with
  | nil => exact ⟨ho, (List.append_nil _).symm, hbefore⟩
  | cons g plan ih =>
      obtain ⟨hfirst, hrest⟩ := List.pairwise_cons.mp hplan
      have hg : a.DueBy p g.1 := hdue g List.mem_cons_self
      have hnext : ∀ e ∈ plan, (a.add g.1 (f g.2)).DueBy p e.1 := fun e he =>
        (hdue e (List.mem_cons_of_mem _ he)).add (hfirst e he)
      obtain ⟨hordered, hselect, hby⟩ := ih hrest (ho.add g.1 (f g.2)) hnext
        (fun e he => hlast e (List.mem_cons_of_mem _ he))
        (hbefore.add (hlast g List.mem_cons_self))
      refine ⟨hordered, ?_, hby⟩
      rw [List.foldl_cons, hselect, select_add_of_pos ho (hp g.2) hg, List.append_assoc]
      rfl

theorem select_foldl_add_of_neg {f : String → τ} (hp : ∀ text, p (f text) = false)
    (plan : List (Duration × String)) (a : Agenda τ) :
    (plan.foldl (fun a e => a.add e.1 (f e.2)) a).select p = a.select p := by
  induction plan generalizing a with
  | nil => rfl
  | cons g plan ih => rw [List.foldl_cons, ih, select_add_of_neg (hp g.2)]

end Agenda

namespace Execution.Part

theorem le_afterWait (start : Duration) (wait : Option Duration) :
    start ≤ afterWait start wait := by
  cases wait with
  | none => exact Nat.le_refl _
  | some wait => exact Nat.le_trans (Nat.le_add_right _ _) (Duration.le_tick _)

/-- Lines arrive one after another, none before the start and none after the last one. -/
theorem lineTimes_ordered (gap : Option Duration) (start : Duration) (lines : List String) :
    (lineTimes gap start lines).1.map (·.2) = lines ∧
      (lineTimes gap start lines).1.Pairwise (fun e f => e.1 ≤ f.1) ∧
      (∀ e ∈ (lineTimes gap start lines).1,
        start ≤ e.1 ∧ e.1 ≤ (lineTimes gap start lines).2) ∧
      start ≤ (lineTimes gap start lines).2 := by
  induction lines generalizing start with
  | nil => exact ⟨rfl, List.Pairwise.nil, fun e he => absurd he List.not_mem_nil, Nat.le_refl _⟩
  | cons line lines ih =>
      obtain ⟨hlines, hordered, hbetween, hlast⟩ := ih (afterWait start gap)
      have hstart := le_afterWait start gap
      rw [lineTimes]
      refine ⟨congrArg (line :: ·) hlines, ?_, fun e he => ?_, Nat.le_trans hstart hlast⟩
      · exact List.pairwise_cons.mpr ⟨fun e he => (hbetween e he).1, hordered⟩
      · rcases List.mem_cons.mp he with rfl | he
        · exact ⟨hstart, hlast⟩
        · exact ⟨Nat.le_trans hstart (hbetween e he).1, (hbetween e he).2⟩

theorem plan_ordered (part : Part) (start : Duration) :
    (part.plan start).1.map (·.2) = part.lines ∧
      (part.plan start).1.Pairwise (fun e f => e.1 ≤ f.1) ∧
      ∀ e ∈ (part.plan start).1, e.1 ≤ (part.plan start).2 := by
  obtain ⟨hlines, hordered, hbetween, -⟩ := lineTimes_ordered part.gap start part.lines
  exact ⟨hlines, hordered, fun e he =>
    Nat.le_trans (hbetween e he).2 (le_afterWait _ part.after)⟩

end Execution.Part

end AgentGateway
