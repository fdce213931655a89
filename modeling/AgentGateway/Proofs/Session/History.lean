import AgentGateway.Proofs.Session.Entries
import Mathlib.Data.List.Induction

/-!
# The history of a registry

Whatever is done to a registry is entered in a log: the moment, the action and its answer. The
log says of each identifier by itself how its session stands (`standing`): what was registered
last and when it was last active, unless it has been removed since. A registry agrees with its
log (`Registry.Agrees.run`), so the identifiers have nothing in common but the number of places.

Moments need not be in order.
-/

namespace AgentGateway.Session

/-- What can be done to a registry. A connection is registered under an identifier, whether that was
given or generated. -/
inductive Action (ι γ : Type) where
  | register (id : ι) (connection : γ)
  | get (id : ι)
  | touch (id : ι)
  | unregister (id : ι)
  | cleanup (maxIdle : Duration)
  | list
  | shutdown

inductive Answer (ι γ : Type) where
  | done
  | refused (cause : Failure)
  | found (connection : Option γ)
  | known (there : Bool)
  | number (n : Nat)
  | infos (infos : List (Info ι))

structure Record (ι γ : Type) where
  moment : Duration
  action : Action ι γ
  answer : Answer ι γ

structure Standing (γ : Type) where
  connection : γ
  connectedAt : Duration
  lastActivity : Duration

def Standing.idle {γ : Type} (now : Duration) (s : Standing γ) : Duration :=
  ⟨now.nanos - s.lastActivity.nanos⟩

def Entry.standing {ι γ : Type} (e : Entry ι γ) : Standing γ :=
  ⟨e.connection, e.connectedAt, e.lastActivity⟩

section

variable {ι γ : Type} [DecidableEq ι]

namespace Record

/-- A record registers a connection under an identifier. -/
def Registers (x : Record ι γ) (id : ι) (connection : γ) : Prop :=
  x.action = .register id connection ∧ x.answer = .done

/-- How the session of an identifier stands after an action, given how it stood before. -/
def follow (x : Record ι γ) (id : ι) (s : Option (Standing γ)) : Option (Standing γ) :=
  match x.action, x.answer with
  | .register k connection, .done =>
    if id = k then some ⟨connection, x.moment, x.moment⟩ else s
  | .get k, _ | .touch k, _ =>
    if id = k then s.map fun s => { s with lastActivity := x.moment } else s
  | .unregister k, _ => if id = k then none else s
  | .cleanup maxIdle, _ => s.filter fun s => decide (s.idle x.moment ≤ maxIdle)
  | .shutdown, _ => none
  | _, _ => s

end Record

/-- How the session of an identifier stands after all that a log tells of. -/
def standing (log : List (Record ι γ)) (id : ι) : Option (Standing γ) :=
  log.foldl (fun s x => x.follow id s) none

theorem standing_concat (log : List (Record ι γ)) (x : Record ι γ) (id : ι) :
    standing (log ++ [x]) id = x.follow id (standing log id) := by
  rw [standing, List.foldl_concat]
  rfl

/-- A record removes the session of an identifier, as it stood after a log. -/
def Record.Removes (x : Record ι γ) (log : List (Record ι γ)) (id : ι) : Prop :=
  x.action = .unregister id ∨ x.action = .shutdown ∨
    ∃ maxIdle s, x.action = .cleanup maxIdle ∧ standing log id = some s ∧
      maxIdle < s.idle x.moment

/-- A connection is the one that was last registered under an identifier, and has not been
removed since. -/
inductive Latest : List (Record ι γ) → ι → γ → Prop
  | registered {log : List (Record ι γ)} {x : Record ι γ} {id : ι} {connection : γ}
      (h : x.Registers id connection) : Latest (log ++ [x]) id connection
  | kept {log : List (Record ι γ)} {x : Record ι γ} {id : ι} {connection : γ}
      (h : Latest log id connection) (hother : ∀ c, ¬ x.Registers id c)
      (hstays : ¬ x.Removes log id) : Latest (log ++ [x]) id connection

/-- What is registered becomes the connection, what is removed has none, and nothing else
matters. -/
theorem connection_follow (log : List (Record ι γ)) (x : Record ι γ) (id : ι) (connection : γ) :
    (x.follow id (standing log id)).map (·.connection) = some connection ↔
      x.Registers id connection ∨
        (standing log id).map (·.connection) = some connection ∧
          (∀ c, ¬ x.Registers id c) ∧ ¬ x.Removes log id := by
  obtain ⟨moment, action, answer⟩ := x
  cases action with
  | register k c =>
      cases answer with
      | done =>
          by_cases hk : id = k
          · subst hk
            simp [Record.follow, Record.Registers, Record.Removes]
          · simp [Record.follow, Record.Registers, Record.Removes, hk, Ne.symm hk]
      | _ => simp [Record.follow, Record.Registers, Record.Removes]
  | get k | touch k =>
      by_cases hk : id = k <;>
        simp [Record.follow, Record.Registers, Record.Removes, hk, Function.comp_def]
  | unregister k =>
      by_cases hk : id = k
      · simp [Record.follow, Record.Registers, Record.Removes, hk]
      · simp [Record.follow, Record.Registers, Record.Removes, hk, Ne.symm hk]
  | cleanup maxIdle =>
      cases hs : standing log id with
      | none => simp [Record.follow, Record.Registers]
      | some s =>
          by_cases hidle : s.idle moment ≤ maxIdle
          · have hstays : ¬ maxIdle < s.idle moment := Nat.not_lt.mpr hidle
            simp [Record.follow, Record.Registers, Record.Removes, hs, hidle, hstays]
          · have hgoes : maxIdle < s.idle moment := Nat.not_le.mp hidle
            simp [Record.follow, Record.Registers, Record.Removes, hs, hidle, hgoes]
  | list => simp [Record.follow, Record.Registers, Record.Removes]
  | shutdown => simp [Record.follow, Record.Registers, Record.Removes]

theorem latest_iff (log : List (Record ι γ)) (id : ι) (connection : γ) :
    Latest log id connection ↔ (standing log id).map (·.connection) = some connection := by
  constructor
  · intro h
    induction h with
    | registered h =>
        rw [standing_concat, connection_follow]
        exact .inl h
    | kept _ hother hstays ih =>
        rw [standing_concat, connection_follow]
        exact .inr ⟨ih, hother, hstays⟩
  · intro h
    induction log using List.reverseRecOn with
    | nil => cases h
    | append_singleton log x ih =>
        rw [standing_concat, connection_follow] at h
        obtain h | ⟨hstands, hother, hstays⟩ := h
        · exact .registered h
        · exact .kept (ih hstands) hother hstays

/-! ## Runs -/

namespace Registry

def perform (r : Registry ι γ) (now : Duration) : Action ι γ → Registry ι γ × Answer ι γ
  | .register id connection =>
    match r.register now id connection with
    | .ok r => (r, .done)
    | .error cause => (r, .refused cause)
  | .get id => ((r.get now id).1, .found (r.get now id).2)
  | .touch id => ((r.touch now id).1, .known (r.touch now id).2)
  | .unregister id => (r.unregister id, .done)
  | .cleanup maxIdle => ((r.cleanup now maxIdle).1, .number (r.cleanup now maxIdle).2)
  | .list => (r, .infos (r.list now))
  | .shutdown => (r.clear.1, .number r.clear.2)

/-- A registration is refused only if it needs a new place and there is none. -/
theorem perform_register (r : Registry ι γ) (now : Duration) (id : ι) (connection : γ) :
    r.perform now (.register id connection) =
      if r.contains id = false ∧ r.maxSessions ≤ r.count then
        (r, .refused (limitReached r.maxSessions))
      else (r.seat now id connection, .done) := by
  simp only [perform, register_eq]
  split_ifs <;> rfl

def record (r : Registry ι γ) (now : Duration) (a : Action ι γ) : Record ι γ :=
  ⟨now, a, (r.perform now a).2⟩

def run (r : Registry ι γ) : List (Duration × Action ι γ) → Registry ι γ
  | [] => r
  | (now, a) :: acts => run (r.perform now a).1 acts

def log (r : Registry ι γ) : List (Duration × Action ι γ) → List (Record ι γ)
  | [] => []
  | (now, a) :: acts => r.record now a :: log (r.perform now a).1 acts

structure Agrees (max : Nat) (r : Registry ι γ) (log : List (Record ι γ)) : Prop where
  sound : r.Sound
  size : r.maxSessions = max
  stands : ∀ id, (r.find? id).map Entry.standing = standing log id

variable {max : Nat} {r : Registry ι γ} {before : List (Record ι γ)}

theorem agrees_empty (max : Nat) : Agrees max ({ maxSessions := max } : Registry ι γ) [] where
  sound := sound_empty max
  size := rfl
  stands _ := rfl

/-- An action keeps the agreement if it does to each entry what its record says. -/
theorem Agrees.extend (h : Agrees max r before) {r' : Registry ι γ} {x : Record ι γ}
    (hsound : r'.Sound) (hsize : r'.maxSessions = r.maxSessions)
    (hfollow : ∀ id, (r'.find? id).map Entry.standing =
      x.follow id ((r.find? id).map Entry.standing)) :
    Agrees max r' (before ++ [x]) where
  sound := hsound
  size := hsize.trans h.size
  stands id := by rw [standing_concat, hfollow, h.stands]

theorem Agrees.touch (h : Agrees max r before) {x : Record ι γ} {k : ι}
    (hx : x.action = .get k ∨ x.action = .touch k) :
    Agrees max (r.touch x.moment k).1 (before ++ [x]) := by
  apply h.extend
  · exact h.sound.touch x.moment k
  · unfold Registry.touch
    split <;> rfl
  · intro id
    rw [find?_touch]
    obtain hx | hx := hx
    all_goals
      simp only [Record.follow, hx]
      split_ifs
      · rw [Option.map_map, Option.map_map]
        rfl
      · rfl

theorem Agrees.register (h : Agrees max r before) (now : Duration) (k : ι) (connection : γ) :
    Agrees max (r.perform now (.register k connection)).1
      (before ++ [r.record now (.register k connection)]) := by
  rw [record, perform_register]
  by_cases hfull : r.contains k = false ∧ r.maxSessions ≤ r.count
  · rw [if_pos hfull]
    apply h.extend
    · exact h.sound
    · rfl
    · intro id
      rfl
  · rw [if_neg hfull]
    apply h.extend
    · apply h.sound.seat now connection
      by_cases hthere : r.contains k = true
      · exact .inl hthere
      · right
        apply Nat.not_le.mp
        intro hle
        exact hfull ⟨by simpa using hthere, hle⟩
    · rfl
    · intro id
      rw [find?_seat]
      simp only [Record.follow]
      split_ifs <;> rfl

theorem Agrees.perform (h : Agrees max r before) (now : Duration) (a : Action ι γ) :
    Agrees max (r.perform now a).1 (before ++ [r.record now a]) := by
  cases a with
  | register k connection => exact h.register now k connection
  | get k => exact h.touch (x := r.record now (.get k)) (.inl rfl)
  | touch k => exact h.touch (x := r.record now (.touch k)) (.inr rfl)
  | unregister k =>
      apply h.extend
      · exact h.sound.filter _
      · rfl
      · intro id
        rw [Registry.perform, find?_unregister]
        simp only [record, Record.follow]
        split_ifs <;> rfl
  | cleanup maxIdle =>
      apply h.extend
      · exact h.sound.filter _
      · rfl
      · intro id
        rw [Registry.perform, find?_cleanup h.sound.ids]
        have hcommute := Option.filter_map (x := r.find? id) (f := Entry.standing)
          (p := fun s => decide (s.idle now ≤ maxIdle))
        exact hcommute.symm
  | list =>
      apply h.extend
      · exact h.sound
      · rfl
      · intro id
        rfl
  | shutdown =>
      apply h.extend
      · exact ⟨List.nodup_nil, Nat.zero_le _⟩
      · rfl
      · intro id
        rfl

theorem Agrees.run (h : Agrees max r before) (acts : List (Duration × Action ι γ)) :
    Agrees max (r.run acts) (before ++ r.log acts) := by
  induction acts generalizing r before with
  | nil => simpa [Registry.run, Registry.log] using h
  | cons a acts ih =>
      have hrun := ih (h.perform a.1 a.2)
      rw [List.append_assoc] at hrun
      exact hrun

end Registry

end

end AgentGateway.Session
