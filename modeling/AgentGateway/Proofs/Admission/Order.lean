import AgentGateway.Proofs.Admission.Line
import Mathlib.Data.List.Sort

/-!
# First come, first served

Slots of a key are given to those who wait for them in the order in which they joined the line.
Nobody who asks later gets a slot while someone is in line, whether it would wait or not, and one
who leaves the line takes no slot along and changes nothing about the order of the others.

Whoever is given a slot during a run is in line at its start or asks later
(`Desk.Queued.of_mem_grantLog`), so all slots are given in the order of asking. Those who join the
line are also ordered like that, and one such list that is part of another one is a sublist of it.
-/

namespace AgentGateway.Admission

namespace Desk

def grants (d : Desk) (key : String) (m : Move) : List Ticket :=
  ((d.move m).served key).filter (· ∉ d.served key)

def joins (d : Desk) (key : String) (m : Move) : List Ticket :=
  ((d.move m).queue key).filter (· ∉ d.queue key)

/-- Those who were given a slot of a key, in the order in which they were. -/
def grantLog (key : String) : Desk → List Move → List Ticket
  | _, [] => []
  | d, m :: moves => d.grants key m ++ grantLog key (d.move m) moves

/-- Those who joined the line of a key, in the order in which they did. -/
def joinLog (key : String) : Desk → List Move → List Ticket
  | _, [] => []
  | d, m :: moves => d.joins key m ++ joinLog key (d.move m) moves

variable {d d' : Desk} {key : String}

/-- What is known of a desk at any time: its accounts are in order, and so is the line of a key. -/
structure Queued (d : Desk) (key : String) : Prop where
  sound : d.Sound
  numbered : d.Numbered
  lined : Lined (d.served key) (d.queue key) d.issued

theorem Queued.move (h : d.Queued key) (m : Move) : (d.move m).Queued key where
  sound := h.sound.moved (d.moved m)
  numbered := h.numbered.moved (d.moved m)
  lined := (h.sound.turn (d.moved m) key).lined h.lined

theorem Queued.play (h : d.Queued key) (moves : List Move) : (d.play moves).Queued key := by
  induction moves generalizing d with
  | nil => exact h
  | cons m moves ih => exact ih (h.move m)

theorem Queued.news (h : d.Queued key) (m : Move) :
    News (d.queue key) d.issued (d.grants key m) (d.joins key m) ((d.move m).queue key)
      (d.move m).issued := (h.sound.turn (d.moved m) key).news h.lined

theorem queued_opening (defaultCapacity : Nat) (named : List (String × Nat)) (key : String) :
    (opening defaultCapacity named).Queued key where
  sound := sound_opening defaultCapacity named
  numbered := numbered_opening defaultCapacity named
  lined := ⟨List.Pairwise.nil, fun _ h => absurd h List.not_mem_nil,
    fun _ h => absurd h List.not_mem_nil⟩

/-- Whoever is given a slot is in line now, or has yet to ask. -/
theorem Queued.of_mem_grantLog (h : d.Queued key) {moves : List Move} {t : Ticket}
    (ht : t ∈ grantLog key d moves) : t ∈ d.queue key ∨ d.issued ≤ t := by
  induction moves generalizing d with
  | nil => cases ht
  | cons m moves ih =>
      have hnews := h.news m
      rw [grantLog, List.mem_append] at ht
      have hlater := ih (h.move m)
      generalize d.grants key m = granted, d.joins key m = joined, (d.move m).queue key = line',
        (d.move m).issued = next' at hnews ht hlater
      cases hnews with
      | nothing hline hnext =>
          rcases ht with ht | ht
          · cases ht
          · rcases hlater ht with hmem | hle
            · exact .inl (hline.subset hmem)
            · exact .inr (Nat.le_trans hnext hle)
      | joined =>
          rcases ht with ht | ht
          · cases ht
          · rcases hlater ht with hmem | hle
            · rcases List.mem_append.mp hmem with hmem | hmem
              · exact .inl hmem
              · exact .inr (List.mem_singleton.mp hmem).ge
            · exact .inr (Nat.le_of_succ_le hle)
      | entered =>
          rcases ht with ht | ht
          · exact .inr (List.mem_singleton.mp ht).ge
          · rcases hlater ht with hmem | hle
            · cases hmem
            · exact .inr (Nat.le_of_succ_le hle)
      | passed hline =>
          rw [hline]
          rcases ht with ht | ht
          · rw [List.mem_singleton.mp ht]
            exact .inl List.mem_cons_self
          · exact (hlater ht).imp_left (List.mem_cons_of_mem _)

theorem Queued.grantLog_sorted (h : d.Queued key) (moves : List Move) :
    (grantLog key d moves).Pairwise (· < ·) := by
  induction moves generalizing d with
  | nil => exact List.Pairwise.nil
  | cons m moves ih =>
      have hrest := ih (h.move m)
      have hlater {t : Ticket} (ht : t ∈ grantLog key (d.move m) moves) :=
        (h.move m).of_mem_grantLog ht
      have hnews := h.news m
      have hlined := h.lined
      rw [grantLog]
      generalize d.grants key m = granted, d.joins key m = joined, (d.move m).queue key = line',
        (d.move m).issued = next' at hnews hlater
      cases hnews with
      | nothing | joined => exact hrest
      | entered =>
          refine List.pairwise_cons.mpr ⟨fun t ht => ?_, hrest⟩
          rcases hlater ht with hmem | hle
          · cases hmem
          · exact hle
      | @passed u line' hline =>
          refine List.pairwise_cons.mpr ⟨fun t ht => ?_, hrest⟩
          have hsorted := hlined.sorted
          rw [hline] at hsorted
          rcases hlater ht with hmem | hle
          · exact (List.pairwise_cons.mp hsorted).1 t hmem
          · have hlt : u < d.issued := hlined.issued u (by simp [hline])
            exact Nat.lt_of_lt_of_le hlt hle

theorem Queued.of_mem_joinLog (h : d.Queued key) {moves : List Move} {t : Ticket}
    (ht : t ∈ joinLog key d moves) : d.issued ≤ t := by
  induction moves generalizing d with
  | nil => cases ht
  | cons m moves ih =>
      have hle := (d.moved m).issued_le
      have hnews := h.news m
      rw [joinLog, List.mem_append] at ht
      rcases ht with ht | ht
      · generalize d.grants key m = granted, d.joins key m = joined, (d.move m).queue key = line',
          (d.move m).issued = next' at hnews ht
        cases hnews with
        | joined => exact (List.mem_singleton.mp ht).ge
        | nothing | entered | passed => cases ht
      · exact Nat.le_trans hle (ih (h.move m) ht)

theorem Queued.joinLog_sorted (h : d.Queued key) (moves : List Move) :
    (joinLog key d moves).Pairwise (· < ·) := by
  induction moves generalizing d with
  | nil => exact List.Pairwise.nil
  | cons m moves ih =>
      have hrest := ih (h.move m)
      have hlater {t : Ticket} (ht : t ∈ joinLog key (d.move m) moves) :=
        (h.move m).of_mem_joinLog ht
      have hnews := h.news m
      rw [joinLog]
      generalize d.grants key m = granted, d.joins key m = joined, (d.move m).queue key = line',
        (d.move m).issued = next' at hnews hlater
      cases hnews with
      | nothing | entered | passed => exact hrest
      | joined => exact List.pairwise_cons.mpr ⟨fun t ht => hlater ht, hrest⟩

/-- Whoever is in line was so before or has joined since. -/
theorem Queued.of_mem_queue (h : d.Queued key) {moves : List Move} {t : Ticket}
    (ht : t ∈ (d.play moves).queue key) : t ∈ d.queue key ∨ t ∈ joinLog key d moves := by
  induction moves generalizing d with
  | nil => exact .inl ht
  | cons m moves ih =>
      have hnews := h.news m
      rw [joinLog, List.mem_append]
      rcases ih (h.move m) ht with hmem | hmem
      · generalize d.grants key m = granted, d.joins key m = joined, (d.move m).queue key = line',
          (d.move m).issued = next' at hnews hmem
        cases hnews with
        | nothing hline => exact .inl (hline.subset hmem)
        | joined => exact (List.mem_append.mp hmem).imp_right .inl
        | entered => cases hmem
        | passed hline => exact .inl (hline ▸ List.mem_cons_of_mem _ hmem)
      · exact .inr (.inr hmem)

theorem Queued.sublist_joinLog (h : d.Queued key) {moves : List Move} {l : List Ticket}
    (hsorted : l.Pairwise (· < ·)) (hsub : l ⊆ joinLog key d moves) :
    l.Sublist (joinLog key d moves) := by
  have hnodup : l.Nodup := hsorted.imp fun hlt => Nat.ne_of_lt hlt
  exact List.sublist_of_subperm_of_pairwise (List.subperm_of_subset hnodup hsub) hsorted
    (h.joinLog_sorted moves)

/-- While someone is in line, a slot is given to the first in line or to nobody. -/
theorem Queued.grants_prefix (h : d.Queued key) (m : Move) (hline : d.queue key ≠ []) :
    d.grants key m <+: d.queue key := by
  have hnews := h.news m
  generalize d.grants key m = granted, d.joins key m = joined, (d.move m).queue key = line',
    (d.move m).issued = next' at hnews
  cases hnews with
  | nothing | joined => exact List.nil_prefix
  | entered hnil => exact absurd hnil hline
  | @passed u line' heq => exact ⟨line', heq.symm⟩

theorem queue_ask {enter : Pool → Pool × Answer}
    (henter : ∀ p : Pool, p.line.Sublist (enter p).1.line) {k : String} {override : Option Nat}
    (hlimiter : d'.limiter = (d.limiter.ask enter k override).1) (key : String) :
    (d.queue key).Sublist (d'.queue key) := by
  rw [queue, queue, hlimiter]
  by_cases hk : key = k
  · subst hk
    obtain ⟨p, hp | ⟨hnone, -, -⟩, hafter, -⟩ | ⟨-, hsame, -⟩ :=
      Limiter.ask_cases enter key override d.limiter
    · rw [hp, hafter]
      exact henter p
    · rw [hnone]
      exact List.nil_sublist _
    · rw [hsame]
  · rw [(Limiter.touches_ask enter k override d.limiter).elsewhere key hk]

theorem Moved.queue_of_opens {m : Move} (hm : Moved d m d') (hopens : m.opens? ≠ none)
    (key : String) : (d.queue key).Sublist (d'.queue key) := by
  cases hm with
  | idle => exact .refl _
  | prepared k override => exact queue_ask (fun p => .refl _) rfl key
  | enrolled v override _ _ _ henter =>
      refine queue_ask (fun p => ?_) (settle_limiter _ _ _) key
      rcases henter with rfl | rfl
      · unfold Pool.enter
        split_ifs
        · exact .refl _
        · exact .refl _
        · exact List.sublist_append_left _ _
      · unfold Pool.tryEnter
        split_ifs <;> exact .refl _
  | looked | gaveUp | aborted | released | closed | elapsed => exact absurd rfl hopens

/-- While someone is in line, nobody who asks is given a slot. -/
theorem Queued.grants_of_opens (h : d.Queued key) {m : Move} (hopens : m.opens? ≠ none)
    (hline : d.queue key ≠ []) : d.grants key m = [] := by
  have hkept := (d.moved m).queue_of_opens hopens key
  have hnews := h.news m
  generalize d.grants key m = granted, d.joins key m = joined, (d.move m).queue key = line',
    (d.move m).issued = next' at hnews hkept
  cases hnews with
  | nothing | joined => rfl
  | entered hnil => exact absurd hnil hline
  | passed heq =>
      have hlength := hkept.length_le
      rw [heq, List.length_cons] at hlength
      omega

/-! ## Leaving -/

/-- What becomes of a key when a request for one of its slots goes away. Someone who is in line
leaves it. If a slot was handed over already, it goes to the first in line, and is free again when
nobody is. -/
inductive Departed (key : String) (t : Ticket) (d d' : Desk) : Prop
  | inLine (hmem : t ∈ d.queue key) (hline : d'.queue key = (d.queue key).erase t)
      (hserved : d'.served key = d.served key)
      (hfree : d'.limiter.available key = d.limiter.available key)
  | handed (hmem : t ∈ d.served key) (hline : d'.queue key = (d.queue key).tail)
      (hserved : d'.served key = (d.served key).erase t ++ (d.queue key).head?.toList)
      (hfree : d'.limiter.available key =
        if d.queue key = [] then (d.limiter.available key).map (· + 1)
        else d.limiter.available key)

theorem departed_of_leave {p : Pool} {t : Ticket} (hp : d.limiter.pool? key = some p)
    (hp' : d'.limiter.pool? key = some (p.leave t)) (hopen : p.closed = false)
    (hheld : t ∉ p.held) (hmem : t ∈ p.handed ++ p.line) : Departed key t d d' := by
  have hfree : d.limiter.available key = some p.free := by rw [Limiter.available, hp]; rfl
  have hfree' : d'.limiter.available key = some (p.leave t).free := by
    rw [Limiter.available, hp']
    rfl
  by_cases hhanded : t ∈ p.handed
  · have hserved : p.served.erase t = p.held ++ p.handed.erase t :=
      List.erase_append_right _ hheld
    have hleave : p.leave t = ({ p with handed := p.handed.erase t } : Pool).give := by
      rw [Pool.leave, if_pos hhanded]
    -- The slot goes to the first in line, if there is one.
    cases hline : p.line with
    | nil =>
        have hgive : p.leave t =
            { p with handed := p.handed.erase t, free := p.free + 1 } := by
          rw [hleave]
          simp [Pool.give, hopen, hline]
        rw [hgive] at hp' hfree'
        refine .handed ?_ ?_ ?_ ?_
        · rw [served_of_pool hp]
          exact List.mem_append_right _ hhanded
        · rw [queue_of_pool hp, queue_of_pool hp', hline]
          rfl
        · rw [served_of_pool hp, served_of_pool hp', queue_of_pool hp, hline, hserved]
          exact (List.append_nil _).symm
        · rw [queue_of_pool hp, if_pos hline, hfree, hfree']
          rfl
    | cons u rest =>
        have hgive : p.leave t =
            { p with handed := p.handed.erase t ++ [u], line := rest } := by
          rw [hleave]
          simp [Pool.give, hopen, hline]
        rw [hgive] at hp' hfree'
        refine .handed ?_ ?_ ?_ ?_
        · rw [served_of_pool hp]
          exact List.mem_append_right _ hhanded
        · rw [queue_of_pool hp, queue_of_pool hp', hline]
          rfl
        · rw [served_of_pool hp, served_of_pool hp', queue_of_pool hp, hline, hserved]
          exact (List.append_assoc _ _ _).symm
        · rw [queue_of_pool hp, hline, if_neg (List.cons_ne_nil _ _)]
          exact hfree'.trans hfree.symm
  · have hline : t ∈ p.line := (List.mem_append.mp hmem).resolve_left hhanded
    have hleave : p.leave t = { p with line := p.line.erase t } := by
      rw [Pool.leave, if_neg hhanded]
    rw [hleave] at hp' hfree'
    refine .inLine ?_ ?_ ?_ ?_
    · rwa [queue_of_pool hp]
    · rw [queue_of_pool hp, queue_of_pool hp']
    · rw [served_of_pool hp, served_of_pool hp']
      rfl
    · exact hfree'.trans hfree.symm

theorem Departed.never {t : Ticket} (h : Departed key t d d') (hq : d.Queued key)
    (hq' : d'.Queued key) (hissued : d.issued ≤ d'.issued) (moves : List Move) :
    t ∉ grantLog key d' moves := by
  intro hmem
  have hsorted : (d.queue key).Nodup := hq.lined.sorted.imp fun hlt => Nat.ne_of_lt hlt
  rcases hq'.of_mem_grantLog hmem with hmem | hle
  · cases h with
    | inLine _ hline =>
        rw [hline] at hmem
        exact hsorted.not_mem_erase hmem
    | handed hserved hline =>
        rw [hline] at hmem
        exact hq.lined.apart t hserved (List.mem_of_mem_tail hmem)
  · have hlt : t < d.issued := by
      cases h with
      | inLine hline => exact hq.lined.issued t (List.mem_append_right _ hline)
      | handed hserved => exact hq.lined.issued t (List.mem_append_left _ hserved)
    exact absurd hlt (Nat.not_lt.mpr (Nat.le_trans hissued hle))

/-- One who waits at an open limiter is in line or was handed a slot, and holds none. -/
theorem Sound.pool_of_visit (h : d.Sound) (hn : d.Numbered) {v : Visit} (hv : v ∈ d.waiting) :
    ∃ p, d.limiter.pool? v.key = some p ∧ p.closed = d.limiter.closed ∧
      v.ticket ∈ p.handed ++ p.line ∧ v.ticket ∉ p.held := by
  obtain ⟨p, hp⟩ := (h v.key).pool_of_waiting hv
  have hfits := (h v.key).fits hp
  have hvisit : v.ticket ∈ (d.waitingOn v.key).map (·.ticket) :=
    List.mem_map_of_mem (List.mem_filter.mpr ⟨hv, by simp⟩)
  refine ⟨p, hp, (h v.key).shut hp, hfits.waits.mem_iff.mpr hvisit, fun hheld => ?_⟩
  -- A ticket cannot be both that of one who waits and that of one who holds a slot.
  obtain ⟨held, hmem, hticket⟩ := List.mem_map.mp (hfits.holds.mem_iff.mp hheld)
  have hholder : held ∈ d.holders := (List.mem_filter.mp hmem).1
  have hdisjoint := List.disjoint_of_nodup_append hn.distinct
  exact hdisjoint (List.mem_map_of_mem hv) (hticket ▸ List.mem_map_of_mem hholder)

/-- What is promised to those who ask for a slot of a key, after any moves. Those who waited were
given their slots in the order in which they joined the line, and those who wait still are in line
in that order. While someone is in line, a slot goes to the first in line, and nobody who asks is
given one. A waiting request may go away at any time, and goes away when its wait runs out, unless a
slot was handed to it, which it takes when it looks. -/
structure Fair (key : String) (d : Desk) (moves : List Move) : Prop where
  inOrder : ((grantLog key d moves).filter (· ∈ joinLog key d moves)).Sublist (joinLog key d moves)
  line : ((d.play moves).queue key).Sublist (joinLog key d moves)
  first : ∀ m, (d.play moves).queue key ≠ [] →
    (d.play moves).grants key m <+: (d.play moves).queue key
  newcomers : ∀ m, m.opens? ≠ none → (d.play moves).queue key ≠ [] →
    (d.play moves).grants key m = []
  aborted : (d.play moves).limiter.closed = false → ∀ v ∈ (d.play moves).waiting, v.key = key →
    Departed key v.ticket (d.play moves) ((d.play moves).move (.abort v)) ∧
      ∀ more, v.ticket ∉ grantLog key ((d.play moves).move (.abort v)) more
  waitedOut : (d.play moves).limiter.closed = false → ∀ v ∈ (d.play moves).waiting, v.key = key →
    due (d.play moves).now v = true → v.ticket ∉ (d.play moves).served key →
    Departed key v.ticket (d.play moves) ((d.play moves).move (.giveUp v)) ∧
      ∀ more, v.ticket ∉ grantLog key ((d.play moves).move (.giveUp v)) more
  taken : (d.play moves).limiter.closed = false → ∀ v ∈ (d.play moves).waiting, v.key = key →
    v.ticket ∈ (d.play moves).served key →
    ∀ m, m = .look v ∨ m = .giveUp v ∧ due (d.play moves).now v = true →
    ⟨v.name, v.ticket, v.key⟩ ∈ ((d.play moves).move m).holders

theorem Queued.aborted (h : d.Queued key) (hopen : d.limiter.closed = false)
    {v : Visit} (hv : v ∈ d.waiting) (hkey : v.key = key) :
    Departed key v.ticket d (d.move (.abort v)) := by
  subst hkey
  obtain ⟨p, hp, hclosed, hmem, hheld⟩ := h.sound.pool_of_visit h.numbered hv
  rw [Desk.move, if_pos hv]
  exact departed_of_leave hp (Limiter.pool?_modifyPool_self hp _) (hclosed.trans hopen) hheld hmem

/-- The move by which a wait runs out is that of a caller whose time is over. -/
theorem move_giveUp {v : Visit} (hv : v ∈ d.waiting) (hdue : due d.now v = true) :
    ∃ wait, d.move (.giveUp v) = (d.dismiss v).giveUp v wait := by
  cases hlimit : v.limit with
  | none => simp [due, hlimit] at hdue
  | some limit =>
      have hover : limit.2 ≤ d.now := by simpa [due, hlimit] using hdue
      refine ⟨limit.1, ?_⟩
      simp only [move, hlimit]
      rw [if_pos ⟨hv, hover⟩]

theorem Queued.waitedOut (h : d.Queued key) (hopen : d.limiter.closed = false)
    {v : Visit} (hv : v ∈ d.waiting) (hkey : v.key = key) (hdue : due d.now v = true)
    (hnot : v.ticket ∉ d.served key) : Departed key v.ticket d (d.move (.giveUp v)) := by
  subst hkey
  obtain ⟨p, hp, hclosed, hmem, hheld⟩ := h.sound.pool_of_visit h.numbered hv
  obtain ⟨wait, hmove⟩ := move_giveUp hv hdue
  rw [served_of_pool hp] at hnot
  have hwaits : (p.check v.key v.ticket).2 = .waiting :=
    Pool.check_eq_waiting.mpr ⟨hclosed.trans hopen, fun hhanded =>
      hnot (List.mem_append_right _ hhanded)⟩
  have hafter := pool?_giveUp (d := d.dismiss v) hp wait
  rw [if_pos hwaits, ← hmove] at hafter
  exact departed_of_leave hp hafter (hclosed.trans hopen) hheld hmem

theorem Queued.taken (h : d.Queued key) (hopen : d.limiter.closed = false)
    {v : Visit} (hv : v ∈ d.waiting) (hkey : v.key = key) (hserved : v.ticket ∈ d.served key)
    {m : Move} (hm : m = .look v ∨ m = .giveUp v ∧ due d.now v = true) :
    ⟨v.name, v.ticket, v.key⟩ ∈ (d.move m).holders := by
  subst hkey
  obtain ⟨p, hp, hclosed, hmem, hheld⟩ := h.sound.pool_of_visit h.numbered hv
  rw [served_of_pool hp] at hserved
  have hhanded : v.ticket ∈ p.handed := (List.mem_append.mp hserved).resolve_left hheld
  have hgranted : (d.limiter.check v.key v.ticket).2 = .granted := by
    rw [(Limiter.check_of_pool hp v.ticket).2, Pool.check, hclosed, hopen]
    simp [hhanded]
  have hlook : ⟨v.name, v.ticket, v.key⟩ ∈ (d.look v).holders := by
    have hanswer : ((d.dismiss v).limiter.check v.key v.ticket).2 = .granted := hgranted
    rw [look, consult, hanswer]
    exact List.mem_cons_self
  rcases hm with rfl | ⟨rfl, hdue⟩
  · rw [Desk.move, if_pos hv]
    exact hlook
  · obtain ⟨wait, hmove⟩ := move_giveUp hv hdue
    rw [hmove, giveUp_eq]
    have hanswer : ((d.dismiss v).limiter.check v.key v.ticket).2 = .granted := hgranted
    rw [hanswer]
    exact List.mem_cons_self

theorem play_fair (defaultCapacity : Nat) (named : List (String × Nat)) (moves : List Move)
    (key : String) : Fair key (opening defaultCapacity named) moves := by
  have hstart := queued_opening defaultCapacity named key
  have hq := hstart.play moves
  constructor
  · refine hstart.sublist_joinLog ((hstart.grantLog_sorted moves).filter _) fun t ht => ?_
    simpa using (List.mem_filter.mp ht).2
  · refine hstart.sublist_joinLog hq.lined.sorted fun t ht => ?_
    exact (hstart.of_mem_queue ht).resolve_left List.not_mem_nil
  · exact fun m hline => hq.grants_prefix m hline
  · exact fun m hopens hline => hq.grants_of_opens hopens hline
  · intro hopen v hv hkey
    have hdeparted := hq.aborted hopen hv hkey
    exact ⟨hdeparted, hdeparted.never hq (hq.move _) (moved _ _).issued_le⟩
  · intro hopen v hv hkey hdue hnot
    have hdeparted := hq.waitedOut hopen hv hkey hdue hnot
    exact ⟨hdeparted, hdeparted.never hq (hq.move _) (moved _ _).issued_le⟩
  · exact fun hopen v hv hkey hserved m hm => hq.taken hopen hv hkey hserved hm

/-- A slot that comes back is not for one who asks last, but for the first in line; one who left
the line is passed over. -/
example :
    grantLog "key" (opening 1 []) [.acquire "first" "key" none, .acquire "second" "key" none,
      .acquire "third" "key" none, .abort ⟨"second", 1, "key", none⟩, .release ⟨"first", 0, "key"⟩,
      .tryAcquire "fourth" "key" none] = [0, 2] := by
  decide

end Desk

end AgentGateway.Admission
