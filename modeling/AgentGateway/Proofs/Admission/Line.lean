import AgentGateway.Proofs.Admission.Conservation

/-!
# Who is next

A request has been served once a slot is its own: it holds the slot, or the slot was handed to it
and it has yet to notice. What a move does to those who are served and to those in line is said in
one place (`Turn`), first for each operation on a pool and then for each move at a desk
(`Desk.Sound.turn`). Tickets are numbered in the order of asking, so the line is always in
ascending order (`Lined`), and whoever is served or joins has the ticket that one would expect
(`News`).
-/

namespace AgentGateway.Admission

/-- What a move does to those who are served, to those in line, and to the next ticket. Nobody is
given a slot and nobody joins the line; somebody joins it; somebody finds a slot free and the line
empty; or a slot that comes back goes to the first in line. -/
inductive Turn (served line : List Ticket) (next : Ticket) :
    List Ticket → List Ticket → Ticket → Prop
  | kept {served' line' : List Ticket} {next' : Ticket} (hserved : served' ⊆ served)
      (hline : line'.Sublist line) (hnext : next ≤ next') :
      Turn served line next served' line' next'
  | joined : Turn served line next served (line ++ [next]) (next + 1)
  | entered (hline : line = []) : Turn served line next (next :: served) line (next + 1)
  | passed {u : Ticket} {served' line' : List Ticket} (hline : line = u :: line')
      (hserved : served' ⊆ served) : Turn served line next (served' ++ [u]) line' next

structure Lined (served line : List Ticket) (next : Ticket) : Prop where
  sorted : line.Pairwise (· < ·)
  apart : ∀ t ∈ served, t ∉ line
  issued : ∀ t ∈ served ++ line, t < next

/-- What a move tells about the line of a key, from those whom it gives a slot and those whom it
makes join the line. -/
inductive News (line : List Ticket) (next : Ticket) :
    List Ticket → List Ticket → List Ticket → Ticket → Prop
  | nothing {line' : List Ticket} {next' : Ticket} (hline : line'.Sublist line)
      (hnext : next ≤ next') : News line next [] [] line' next'
  | joined : News line next [] [next] (line ++ [next]) (next + 1)
  | entered (hline : line = []) : News line next [next] [] [] (next + 1)
  | passed {u : Ticket} {line' : List Ticket} (hline : line = u :: line') :
      News line next [u] [] line' next

section

variable {served line served' line' : List Ticket} {next next' : Ticket}

theorem Turn.lined (h : Turn served line next served' line' next')
    (hl : Lined served line next) : Lined served' line' next' := by
  cases h with
  | kept hserved hline hnext =>
      refine ⟨hl.sorted.sublist hline, fun t ht hmem => ?_, fun t ht => ?_⟩
      · exact hl.apart t (hserved ht) (hline.subset hmem)
      · have hbefore : t ∈ served ++ line := by
          rw [List.mem_append] at ht ⊢
          exact ht.imp (fun h => hserved h) fun h => hline.subset h
        exact Nat.lt_of_lt_of_le (hl.issued t hbefore) hnext
  | joined =>
      refine ⟨?_, fun t ht hmem => ?_, fun t ht => ?_⟩
      · rw [List.pairwise_append]
        refine ⟨hl.sorted, List.pairwise_singleton _ _, fun t ht u hu => ?_⟩
        rw [List.mem_singleton.mp hu]
        exact hl.issued t (List.mem_append_right _ ht)
      · rcases List.mem_append.mp hmem with hmem | hmem
        · exact hl.apart t ht hmem
        · have hlt := hl.issued t (List.mem_append_left _ ht)
          rw [List.mem_singleton.mp hmem] at hlt
          exact Nat.lt_irrefl _ hlt
      · rw [← List.append_assoc] at ht
        rcases List.mem_append.mp ht with ht | ht
        · exact Nat.lt_succ_of_lt (hl.issued t ht)
        · rw [List.mem_singleton.mp ht]
          exact Nat.lt_succ_self _
  | entered hline =>
      subst hline
      refine ⟨hl.sorted, fun t _ hmem => absurd hmem List.not_mem_nil, fun t ht => ?_⟩
      rw [List.append_nil, List.mem_cons] at ht
      rcases ht with rfl | ht
      · exact Nat.lt_succ_self _
      · exact Nat.lt_succ_of_lt (hl.issued t (List.mem_append_left _ ht))
  | @passed u served' line' hline hserved =>
      subst hline
      obtain ⟨hfirst, hsorted⟩ := List.pairwise_cons.mp hl.sorted
      refine ⟨hsorted, fun t ht hmem => ?_, fun t ht => ?_⟩
      · rcases List.mem_append.mp ht with ht | ht
        · exact hl.apart t (hserved ht) (List.mem_cons_of_mem _ hmem)
        · have hlt := hfirst t hmem
          rw [List.mem_singleton.mp ht] at hlt
          exact Nat.lt_irrefl _ hlt
      · have hbefore : t ∈ served ++ u :: line' := by
          simp only [List.append_assoc, List.mem_append, List.mem_cons] at ht ⊢
          rcases ht with ht | (ht | ht) | ht
          · exact .inl (hserved ht)
          · exact .inr (.inl ht)
          · cases ht
          · exact .inr (.inr ht)
        exact hl.issued t hbefore

theorem Turn.news (h : Turn served line next served' line' next')
    (hl : Lined served line next) :
    News line next (served'.filter (· ∉ served)) (line'.filter (· ∉ line)) line' next' := by
  have hnone {front back : List Ticket} (hsub : front ⊆ back) : front.filter (· ∉ back) = [] := by
    rw [List.filter_eq_nil_iff]
    intro t ht
    simpa using hsub ht
  have hnew : next ∉ served ++ line := fun hmem => Nat.lt_irrefl _ (hl.issued next hmem)
  rw [List.mem_append, not_or] at hnew
  cases h with
  | kept hserved hline hnext =>
      rw [hnone hserved, hnone hline.subset]
      exact .nothing hline hnext
  | joined =>
      rw [hnone (List.Subset.refl _), List.filter_append, hnone (List.Subset.refl _)]
      simpa [hnew.2] using News.joined
  | entered hline =>
      subst hline
      rw [List.filter_cons_of_pos (by simpa using hnew.1), hnone (List.Subset.refl _)]
      exact .entered rfl
  | @passed u served' line' hline hserved =>
      have hu : u ∉ served := fun hmem => hl.apart u hmem (by simp [hline])
      have hsub : line' ⊆ line := hline ▸ List.subset_cons_self u line'
      rw [List.filter_append, hnone hserved, hnone hsub, List.nil_append,
        List.filter_cons_of_pos (by simpa using hu), List.filter_nil]
      exact .passed hline

end

namespace Pool

/-- Those who hold a slot or were handed one. -/
def served (p : Pool) : List Ticket := p.held ++ p.handed

theorem turn_give {p q : Pool} (hserved : q.served ⊆ p.served) (hline : q.line = p.line)
    (next : Ticket) : Turn p.served p.line next q.give.served q.give.line next := by
  unfold give
  split
  next u rest _ heq =>
    have happend : q.held ++ (q.handed ++ [u]) = q.served ++ [u] :=
      (List.append_assoc _ _ _).symm
    simp only [served, happend]
    exact .passed (hline.symm.trans heq) hserved
  next => exact .kept hserved (hline ▸ .refl _) (Nat.le_refl _)

theorem turn_leave (p : Pool) (t next : Ticket) :
    Turn p.served p.line next (p.leave t).served (p.leave t).line next := by
  unfold leave
  split_ifs
  · have hserved : p.held ++ p.handed.erase t ⊆ p.held ++ p.handed :=
      (List.Sublist.append (.refl p.held) List.erase_sublist).subset
    exact turn_give (q := { p with handed := p.handed.erase t }) hserved rfl next
  · exact .kept (List.Subset.refl _) List.erase_sublist (Nat.le_refl _)

theorem turn_check (key : String) (p : Pool) (t next : Ticket) :
    Turn p.served p.line next (p.check key t).1.served (p.check key t).1.line next := by
  unfold check
  split_ifs with hclosed hmem
  · exact p.turn_leave t next
  · refine .kept ?_ (.refl _) (Nat.le_refl _)
    intro u hu
    simp only [served, List.cons_append, List.mem_cons, List.mem_append] at hu ⊢
    rcases hu with rfl | hu | hu
    · exact .inr hmem
    · exact .inl hu
    · exact .inr (List.mem_of_mem_erase hu)
  · exact .kept (List.Subset.refl _) (.refl _) (Nat.le_refl _)

theorem turn_release (p : Pool) (t next : Ticket) :
    Turn p.served p.line next (p.release t).served (p.release t).line next := by
  unfold release
  split_ifs
  · have hserved : p.held.erase t ++ p.handed ⊆ p.held ++ p.handed :=
      (List.Sublist.append List.erase_sublist (.refl p.handed)).subset
    exact turn_give (q := { p with held := p.held.erase t }) hserved rfl next
  · exact .kept (List.Subset.refl _) (.refl _) (Nat.le_refl _)

theorem check_fst_of_waiting {key : String} {t : Ticket} {p : Pool}
    (h : (p.check key t).2 = .waiting) : (p.check key t).1 = p := by
  obtain ⟨hopen, hnot⟩ := check_eq_waiting.mp h
  simp [check, hopen, hnot]

/-- A slot that is free while the pool is open belongs to nobody in line. -/
theorem turn_take {p : Pool} (hbusy : p.closed = false → p.line ≠ [] → p.free = 0)
    (hopen : p.closed = false) (hfree : 0 < p.free) (next : Ticket) :
    Turn p.served p.line next (next :: p.served) p.line (next + 1) := by
  refine .entered ?_
  by_contra hline
  have hnone := hbusy hopen hline
  omega

theorem turn_enter {p : Pool} (hbusy : p.closed = false → p.line ≠ [] → p.free = 0)
    (key : String) (next : Ticket) :
    Turn p.served p.line next (p.enter key next).1.served (p.enter key next).1.line
      (next + 1) := by
  unfold enter
  split_ifs with hclosed hfree
  · exact .kept (List.Subset.refl _) (.refl _) (Nat.le_succ _)
  · exact turn_take hbusy (by simpa using hclosed) hfree next
  · exact .joined

theorem turn_tryEnter {p : Pool} (hbusy : p.closed = false → p.line ≠ [] → p.free = 0)
    (key : String) (next : Ticket) :
    Turn p.served p.line next (p.tryEnter key next).1.served (p.tryEnter key next).1.line
      (next + 1) := by
  unfold tryEnter
  split_ifs with hclosed hfree
  · exact .kept (List.Subset.refl _) (.refl _) (Nat.le_succ _)
  · exact turn_take hbusy (by simpa using hclosed) hfree next
  · exact .kept (List.Subset.refl _) (.refl _) (Nat.le_succ _)

end Pool

namespace Desk

/-- Those who hold a slot of a key or were handed one. -/
def served (d : Desk) (key : String) : List Ticket :=
  ((d.limiter.pool? key).map Pool.served).getD []

/-- Those in line for a slot of a key, the first one in front. -/
def queue (d : Desk) (key : String) : List Ticket := ((d.limiter.pool? key).map (·.line)).getD []

variable {d d' : Desk} {key : String}

theorem served_of_pool {p : Pool} (h : d.limiter.pool? key = some p) :
    d.served key = p.served := by rw [served, h]; rfl

theorem queue_of_pool {p : Pool} (h : d.limiter.pool? key = some p) :
    d.queue key = p.line := by rw [queue, h]; rfl

theorem issued_settle (d : Desk) (v : Visit) (a : Answer) : (d.settle v a).issued = d.issued := by
  cases a <;> rfl

/-- One who gives up looks once more, and leaves if there is nothing. -/
theorem pool?_giveUp {v : Visit} {p : Pool} (hp : d.limiter.pool? v.key = some p)
    (wait : Duration) :
    (d.giveUp v wait).limiter.pool? v.key =
      some (if (p.check v.key v.ticket).2 = .waiting then p.leave v.ticket
        else (p.check v.key v.ticket).1) := by
  obtain ⟨hchecked, hanswer⟩ := Limiter.check_of_pool hp v.ticket
  rw [giveUp_eq, hanswer]
  split
  next heq =>
    rw [Pool.check_fst_of_waiting heq] at hchecked
    rw [settle_limiter, if_pos heq]
    exact Limiter.pool?_modifyPool_self hchecked _
  next hne => rw [settle_limiter, if_neg hne, hchecked]

theorem issued_giveUp (d : Desk) (v : Visit) (wait : Duration) :
    (d.giveUp v wait).issued = d.issued := by
  rw [giveUp_eq]
  split <;> exact issued_settle _ _ _

theorem turn_of_same (h : d'.limiter.pool? key = d.limiter.pool? key)
    (hissued : d.issued ≤ d'.issued) :
    Turn (d.served key) (d.queue key) d.issued (d'.served key) (d'.queue key) d'.issued := by
  rw [served, queue, served, queue, h]
  exact .kept (List.Subset.refl _) (.refl _) hissued

/-- A call that finds the pool of its key changes it as it may, or finds none. -/
theorem turn_ask {enter : Pool → Pool × Answer} (h : d.Accounts key)
    (henter : ∀ p : Pool, (p.closed = false → p.line ≠ [] → p.free = 0) →
      Turn p.served p.line d.issued (enter p).1.served (enter p).1.line d'.issued)
    (override : Option Nat)
    (hlimiter : d'.limiter = (d.limiter.ask enter key override).1)
    (hissued : d.issued ≤ d'.issued) :
    Turn (d.served key) (d.queue key) d.issued (d'.served key) (d'.queue key) d'.issued := by
  obtain ⟨p, hp, hafter, -⟩ | ⟨-, hsame, -⟩ := Limiter.ask_cases enter key override d.limiter
  · rw [← hlimiter] at hafter
    rw [served_of_pool hafter, queue_of_pool hafter]
    rcases hp with hp | ⟨hnone, -, rfl⟩
    · rw [served_of_pool hp, queue_of_pool hp]
      exact henter p (h.fits hp).busy
    · have hmade := henter (.ofCapacity (d.limiter.sizeFor key override))
        fun _ hline => absurd rfl hline
      rw [served, queue, hnone]
      exact hmade
  · rw [hsame] at hlimiter
    exact turn_of_same (congrArg (·.pool? key) hlimiter) hissued

/-- What a move makes of one pool, it makes of the desk. -/
theorem turn_of_pool {p p' : Pool} (hp : d.limiter.pool? key = some p)
    (hp' : d'.limiter.pool? key = some p')
    (h : Turn p.served p.line d.issued p'.served p'.line d'.issued) :
    Turn (d.served key) (d.queue key) d.issued (d'.served key) (d'.queue key) d'.issued := by
  rwa [served_of_pool hp, queue_of_pool hp, served_of_pool hp', queue_of_pool hp']

theorem Moved.issued_le {m : Move} (hm : Moved d m d') : d.issued ≤ d'.issued := by
  cases hm with
  | idle | prepared | aborted | released | closed | elapsed => exact Nat.le_refl _
  | enrolled v override =>
      rw [enroll, issued_settle]
      exact Nat.le_succ _
  | looked v =>
      rw [look, consult, issued_settle]
      exact Nat.le_refl _
  | gaveUp v wait =>
      rw [issued_giveUp]
      exact Nat.le_refl _

/-- What a move makes of those who are served and of those in line, whatever the move. -/
theorem Sound.turn (h : d.Sound) {m : Move} (hm : Moved d m d') (key : String) :
    Turn (d.served key) (d.queue key) d.issued (d'.served key) (d'.queue key) d'.issued := by
  have helsewhere {k : String} (hk : m.key? = some k) (hne : key ≠ k) :
      Turn (d.served key) (d.queue key) d.issued (d'.served key) (d'.queue key) d'.issued :=
    turn_of_same ((hm.apart hk).pools.elsewhere key hne) hm.issued_le
  cases hm with
  | idle => exact turn_of_same rfl (Nat.le_refl _)
  | prepared k override =>
      by_cases hne : key = k
      · subst hne
        exact turn_ask (h key) (fun p _ => .kept (List.Subset.refl _) (.refl _) (Nat.le_refl _))
          override rfl (Nat.le_refl _)
      · exact helsewhere rfl hne
  | @enrolled m v override hticket hkey _ enter henter =>
      by_cases hne : key = v.key
      · subst hne
        have hissued : (d.enroll enter override v).issued = d.issued + 1 := issued_settle _ _ _
        refine turn_ask (h v.key) ?_ override (settle_limiter _ _ _) (by omega)
        intro p hbusy
        rw [hissued]
        rw [hticket] at henter
        rcases henter with rfl | rfl
        · exact Pool.turn_enter hbusy v.key d.issued
        · exact Pool.turn_tryEnter hbusy v.key d.issued
      · exact helsewhere hkey hne
  | looked v hv =>
      by_cases hne : key = v.key
      · subst hne
        obtain ⟨p, hp⟩ := (h v.key).pool_of_waiting hv
        have hafter : (d.look v).limiter.pool? v.key = some (p.check v.key v.ticket).1 := by
          rw [look, consult, settle_limiter]
          exact (Limiter.check_of_pool hp v.ticket).1
        have hissued : (d.look v).issued = d.issued := issued_settle _ _ _
        refine turn_of_pool hp hafter ?_
        rw [hissued]
        exact p.turn_check v.key v.ticket d.issued
      · exact helsewhere rfl hne
  | gaveUp v wait hv =>
      by_cases hne : key = v.key
      · subst hne
        obtain ⟨p, hp⟩ := (h v.key).pool_of_waiting hv
        refine turn_of_pool hp (pool?_giveUp (d := d.dismiss v) hp wait) ?_
        rw [issued_giveUp]
        split_ifs
        · exact p.turn_leave v.ticket d.issued
        · exact p.turn_check v.key v.ticket d.issued
      · exact helsewhere rfl hne
  | aborted v hv =>
      by_cases hne : key = v.key
      · subst hne
        obtain ⟨p, hp⟩ := (h v.key).pool_of_waiting hv
        exact turn_of_pool hp (Limiter.pool?_modifyPool_self hp _) (p.turn_leave v.ticket d.issued)
      · exact helsewhere rfl hne
  | released held hheld =>
      by_cases hne : key = held.key
      · subst hne
        cases hp : d.limiter.pool? held.key with
        | some p =>
            exact turn_of_pool hp (Limiter.pool?_modifyPool_self hp _)
              (p.turn_release held.ticket d.issued)
        | none =>
            refine turn_of_same ?_ (Nat.le_refl _)
            simp [Limiter.release, Limiter.pool?_modifyPool, hp]
      · exact helsewhere rfl hne
  | closed =>
      have hafter := Limiter.pool?_close d.limiter key
      cases hp : d.limiter.pool? key with
      | some p =>
          rw [hp] at hafter
          have hpool : Turn p.served p.line d.issued p.close.served p.close.line d.issued :=
            .kept (List.Subset.refl _) (.refl _) (Nat.le_refl _)
          exact turn_of_pool hp hafter hpool
      | none =>
          rw [hp] at hafter
          exact turn_of_same (hafter.trans hp.symm) (Nat.le_refl _)
  | elapsed => exact turn_of_same rfl (Nat.le_refl _)

end Desk

end AgentGateway.Admission
