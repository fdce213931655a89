import AgentGateway.Proofs.Json.Skipping

/-!
# Values of a wanted kind

Reading a value of a wanted kind from its compact text gives what the value holds if it is of that
kind, and is refused otherwise. An object is read member by member, so what it gives is a fold of
its members (`foldMembers_chars`); where no key stands twice, each field is what its own member
gives, whatever the order of the members (`slot`).
-/

namespace AgentGateway.Json

variable {α σ : Type}

/-- What a reader makes of the text of every value. -/
def Reads (read : Cursor → Except Problem (α × Cursor)) (v : Json) (a : Option α) : Prop :=
  ∀ rest : List Char, Ends rest → ∀ offset, Gives (read ⟨v.chars ++ rest, offset⟩) a rest

/-- A whole number that is not negative and fits 64 bits. -/
def count? : Json → Option Nat
  | number (.integer n) => if 0 ≤ n ∧ n ≤ maxWord64 then some n.toNat else none
  | _ => none

/-- Any number, as far as its text keeps it. -/
def real? : Json → Option Binary64
  | number n => some n.readBack.toBinary64
  | _ => none

def optional? (of : Json → Option α) : Json → Option (Option α)
  | null => some none
  | v => (of v).map some

theorem Starts.ne {c d : Char} {v : Json} (h : v.Starts c) (hd : ¬ v.Starts d) : c ≠ d := by
  rintro rfl
  exact hd h

theorem readText_refuses {c : Char} (hc : Opens c) (hquote : c ≠ '"') (tail : List Char)
    (offset : Nat) : ∃ p, readText ⟨c :: tail, offset⟩ = .error p := by
  rw [readText, Cursor.skipBlank_cons hc.blank]
  simp only
  split
  · exact ⟨_, rfl⟩
  · next heq => exact absurd (List.cons.inj heq).1 hquote
  · exact ⟨_, rfl⟩

theorem readText_chars {v : Json} (hv : v.Proper) : Reads readText v v.string? := by
  intro rest _ offset
  obtain ⟨c, tail, hchars, hstarts⟩ := exists_starts hv
  have hrefused : ¬ v.Starts '"' → Gives (readText ⟨v.chars ++ rest, offset⟩) none rest := by
    intro hquote
    rw [hchars]
    exact readText_refuses hstarts.opens (hstarts.ne hquote) _ offset
  cases v with
  | string s =>
      obtain ⟨next, hnext⟩ := readString_quote s rest (offset + 1)
      refine ⟨next, ?_⟩
      rw [chars, quote_append, readText, Cursor.skipBlank_cons rfl]
      simp only [hnext, ok_bind, String.ofList_toList]
      rfl
  | bool b => exact hrefused (by cases b <;> simp [Starts])
  | number n => exact hrefused (by simp [Starts, isDigit])
  | _ => exact hrefused (by simp [Starts])

theorem readNumberAs_refuses (wanted : String) (convert : Number → Except Cause α) {c : Char}
    (hc : Opens c) (hnumber : ¬ (c = '-' ∨ isDigit c = true)) (tail : List Char) (offset : Nat) :
    ∃ p, readNumberAs wanted convert ⟨c :: tail, offset⟩ = .error p := by
  rw [readNumberAs, Cursor.skipBlank_cons hc.blank]
  simp only [hnumber, if_false]
  exact ⟨_, rfl⟩

theorem readNumberAs_number (wanted : String) (convert : Number → Except Cause α) {n : Number}
    (hn : n.Valid) {rest : List Char} (hrest : Ends rest) (offset : Nat) :
    Gives (readNumberAs wanted convert ⟨n.chars ++ rest, offset⟩)
      (convert n.readBack).toOption rest := by
  obtain ⟨negative, d, tail, hd, htext, hread, -⟩ := number_cases hn hrest
  rw [htext]
  cases negative with
  | true =>
      obtain ⟨next, hnext⟩ := hread (offset + ('-' : Char).utf8Size)
      simp only [if_true, List.singleton_append]
      rw [readNumberAs, Cursor.skipBlank_cons rfl]
      simp only [Cursor.advance, true_or, if_true, hnext, ok_bind]
      cases convert n.readBack <;> exact ⟨_, rfl⟩
  | false =>
      obtain ⟨next, hnext⟩ := hread offset
      simp only [Bool.false_eq_true, if_false, List.nil_append]
      rw [readNumberAs, Cursor.skipBlank_cons (Opens.of_isDigit hd).blank]
      have hminus := ne_of_isDigit hd (d := '-') rfl
      simp only [hd, or_true, hminus, if_true, if_false, hnext, ok_bind]
      cases convert n.readBack <;> exact ⟨_, rfl⟩

def number? : Json → Option Number
  | number n => some n
  | _ => none

theorem readNumberAs_chars (wanted : String) (convert : Number → Except Cause α) {v : Json}
    (hv : v.Proper) :
    Reads (readNumberAs wanted convert) v
      (v.number?.bind fun n => (convert n.readBack).toOption) := by
  intro rest hrest offset
  obtain ⟨c, tail, hchars, hstarts⟩ := exists_starts hv
  have hrefused : ¬ (c = '-' ∨ isDigit c = true) →
      Gives (readNumberAs wanted convert ⟨v.chars ++ rest, offset⟩) none rest := by
    intro hnumber
    rw [hchars]
    exact readNumberAs_refuses wanted convert hstarts.opens hnumber _ offset
  cases v with
  | number n => exact readNumberAs_number wanted convert hv hrest offset
  | bool b => cases hstarts; exact hrefused (by cases b <;> simp [isDigit])
  | _ => cases hstarts; exact hrefused (by simp [isDigit])

theorem readUnsigned64_chars {v : Json} (hv : v.Proper) : Reads readUnsigned64 v v.count? := by
  have hcount : v.count? =
      v.number?.bind fun n => (Number.toNat "u64" maxWord64 n.readBack).toOption := by
    cases v with
    | number n =>
        cases n with
        | integer n =>
            rw [number?, Option.bind_some, Number.readBack_integer hv, count?, Number.toNat]
            split_ifs <;> rfl
        | real x =>
            -- It may be read as another number, but as one with a fraction.
            obtain ⟨y, hy⟩ := Number.exists_readBack_real hv
            rw [number?, Option.bind_some, hy]
            rfl
    | _ => rfl
  rw [hcount]
  exact readNumberAs_chars "u64" (Number.toNat "u64" maxWord64) hv

theorem readReal_chars {v : Json} (hv : v.Proper) : Reads readReal v v.real? := by
  have hreal : v.real? = v.number?.bind fun n =>
      (Except.ok n.readBack.toBinary64 : Except Cause Binary64).toOption := by
    cases v <;> rfl
  rw [hreal]
  exact readNumberAs_chars "f64" (fun n => .ok n.toBinary64) hv

theorem readOption_chars {read : Cursor → Except Problem (α × Cursor)} {of : Json → Option α}
    {v : Json} (hv : v.Proper) (h : Reads read v (of v)) :
    Reads (readOption read) v (optional? of v) := by
  intro rest hrest offset
  obtain ⟨c, tail, hchars, hstarts⟩ := exists_starts hv
  have hpresent : ¬ v.Starts 'n' →
      Gives (readOption read ⟨v.chars ++ rest, offset⟩) ((of v).map some) rest := by
    intro hnull
    have hc : c ≠ 'n' := hstarts.ne hnull
    have hread := h rest hrest offset
    rw [hchars, List.cons_append] at hread ⊢
    rw [readOption, Cursor.skipBlank_cons hstarts.opens.blank]
    simp only
    split
    · next heq => exact absurd (List.cons.inj heq).1 hc
    · rw [Option.map_eq_bind]
      exact hread.bind fun a _ offset => ⟨offset, rfl⟩
  cases v with
  | null =>
      refine ⟨offset + ('n' : Char).utf8Size + 3, ?_⟩
      have hword := Cursor.word_append ['u', 'l', 'l'] rest (offset + ('n' : Char).utf8Size)
      change (readOption read ⟨'n' :: (['u', 'l', 'l'] ++ rest), offset⟩) = _
      rw [readOption, Cursor.skipBlank_cons rfl]
      simp only [Cursor.advance, hword]
      rfl
  | bool b => exact hpresent (by cases b <;> simp [Starts])
  | number n => exact hpresent (by simp [Starts, isDigit])
  | _ => exact hpresent (by simp [Starts])

/-! ## Members -/

/-- What a reader of the colon and the value behind a key makes of a value. -/
def ReadsMember (read : Cursor → Except Problem (α × Cursor)) (v : Json) (a : Option α) : Prop :=
  ∀ rest : List Char, Ends rest → ∀ offset,
    Gives (read ⟨':' :: (v.chars ++ rest), offset⟩) a rest

/-- A field that must not have been filled before. -/
def fill? (filled : Option α) (of : Json → Option α) (v : Json) : Option (Option α) :=
  if filled.isSome then none else (of v).map some

theorem readField_chars (name : String) (filled : Option α)
    {read : Cursor → Except Problem (α × Cursor)} {of : Json → Option α} {v : Json}
    (h : Reads read v (of v)) : ReadsMember (readField name filled read) v (fill? filled of v) := by
  intro rest hrest offset
  unfold readField fill?
  split_ifs with hfilled
  · exact ⟨_, rfl⟩
  · rw [readColon_colon, ok_bind, Option.map_eq_bind]
    exact (h rest hrest _).bind fun a _ offset => ⟨offset, rfl⟩

theorem skipField_chars {v : Json} (hv : v.Proper) {rest : List Char} (hrest : Ends rest)
    (offset : Nat) :
    ∃ next, skipField ⟨':' :: (v.chars ++ rest), offset⟩ = .ok ⟨rest, next⟩ := by
  rw [skipField, readColon_colon]
  exact skipValue_chars hv hrest _

/-- The members of an object are read one after another, each with what came before it. -/
theorem foldMembers_chars {member : σ → String → Cursor → Except Problem (σ × Cursor)}
    {step : σ → String × Json → Option σ} (members : List (String × Json))
    (h : ∀ m ∈ members, ∀ state, ReadsMember (member state m.1) m.2 (step state m)) (fuel : Nat)
    (first : Bool) (state : σ) (rest : List Char) (hfuel : members.length < fuel) (offset : Nat) :
    Gives (foldMembers member fuel first state
        ⟨charsMembers first members ++ '\x7d' :: rest, offset⟩)
      (members.foldlM step state) ('\x7d' :: rest) := by
  induction members generalizing fuel first state offset with
  | nil =>
      obtain ⟨fuel, rfl⟩ := Nat.exists_eq_succ_of_ne_zero (by omega : fuel ≠ 0)
      rw [charsMembers, List.nil_append, foldMembers, nextKey_close]
      exact ⟨offset, rfl⟩
  | cons m members ih =>
      obtain ⟨fuel, rfl⟩ := Nat.exists_eq_succ_of_ne_zero (by omega : fuel ≠ 0)
      obtain ⟨k, v⟩ := m
      obtain ⟨start, hstart⟩ := nextKey_key first k
        (':' :: (v.chars ++ (charsMembers false members ++ '\x7d' :: rest))) offset
      rw [charsMembers, foldMembers]
      simp only [List.append_assoc, List.cons_append, hstart, ok_bind, List.foldlM_cons]
      refine (h (k, v) List.mem_cons_self state _ (ends_charsMembers members rest) start).bind ?_
      intro state' _ next
      exact ih (fun m hm => h m (List.mem_cons_of_mem _ hm)) fuel false state'
        (by simpa using hfuel) next

theorem length_le_charsMembers (first : Bool) (members : List (String × Json)) :
    members.length ≤ (charsMembers first members).length := by
  induction members generalizing first with
  | nil => simp
  | cons m members ih =>
      have := ih false
      simp only [charsMembers, List.length_append, List.length_cons]
      omega

theorem readObject_chars {member : σ → String → Cursor → Except Problem (σ × Cursor)}
    {step : σ → String × Json → Option σ} (members : List (String × Json))
    (h : ∀ m ∈ members, ∀ state, ReadsMember (member state m.1) m.2 (step state m))
    (initial : σ) (finish : σ → Except Cause α) (rest : List Char) (offset : Nat) :
    Gives (readObject member initial finish ⟨(Json.object members).chars ++ rest, offset⟩)
      ((members.foldlM step initial).bind fun state => (finish state).toOption) rest := by
  have hlen := length_le_charsMembers true members
  simp only [chars, List.append_assoc, List.cons_append, List.nil_append, readObject,
    Cursor.advance]
  refine (foldMembers_chars members h _ true initial rest ?_ _).bind ?_
  · simp only [List.length_append]
    omega
  · intro state _ next
    simp only
    cases finish state with
    | ok a => exact ⟨next + 1, by rw [endObject_close]; rfl⟩
    | error cause => exact ⟨_, rfl⟩

theorem readStruct_object (wanted : String)
    {member : σ → String → Cursor → Except Problem (σ × Cursor)}
    {step : σ → String × Json → Option σ} (members : List (String × Json))
    (h : ∀ m ∈ members, ∀ state, ReadsMember (member state m.1) m.2 (step state m))
    (initial : σ) (finish : σ → Except Cause α)
    (items : Cursor → Except Problem (α × Cursor)) :
    Reads (readStruct wanted member initial finish items) (.object members)
      ((members.foldlM step initial).bind fun state => (finish state).toOption) := by
  intro rest _ offset
  have hread := readObject_chars members h initial finish rest offset
  simp only [chars, List.append_assoc, List.cons_append] at hread ⊢
  rw [readStruct, Cursor.skipBlank_cons rfl]
  exact hread

/-- What is neither an object nor a list is no record. -/
theorem readStruct_scalar (wanted : String)
    (member : σ → String → Cursor → Except Problem (σ × Cursor)) (initial : σ)
    (finish : σ → Except Cause α) (items : Cursor → Except Problem (α × Cursor)) {v : Json}
    (hv : v.Proper) (hobject : ¬ v.Starts '\x7b') (hlist : ¬ v.Starts '[') :
    Reads (readStruct wanted member initial finish items) v none := by
  intro rest _ offset
  obtain ⟨c, tail, hchars, hstarts⟩ := exists_starts hv
  have hbrace : c ≠ '\x7b' := hstarts.ne hobject
  have hbracket : c ≠ '[' := hstarts.ne hlist
  rw [hchars, List.cons_append, readStruct, Cursor.skipBlank_cons hstarts.opens.blank]
  simp only
  split
  · exact ⟨_, rfl⟩
  · next heq => exact absurd (List.cons.inj heq).1 hbrace
  · next heq => exact absurd (List.cons.inj heq).1 hbracket
  · exact ⟨_, rfl⟩

/-! ## Items -/

/-- What the first item of a list gives, if there is one. -/
def item? (of : Json → Option α) : List Json → Option (Option α)
  | [] => some none
  | v :: _ => (of v).map some

theorem properItems_tail {items : List Json} (h : ProperItems items) :
    ProperItems items.tail := by
  cases items with
  | nil => exact h
  | cons v items => exact h.2

theorem readItem_chars {read : Cursor → Except Problem (α × Cursor)} {of : Json → Option α}
    (h : ∀ v : Json, v.Proper → Reads read v (of v)) {items : List Json}
    (hitems : ProperItems items) (first : Bool) (rest : List Char) (offset : Nat) :
    Gives (readItem first read ⟨charsItems first items ++ ']' :: rest, offset⟩) (item? of items)
      (charsItems false items.tail ++ ']' :: rest) := by
  cases items with
  | nil =>
      refine ⟨offset, ?_⟩
      rw [charsItems, List.nil_append, readItem, nextItem_close]
      rfl
  | cons v items =>
      obtain ⟨c, tail, hchars, hopens⟩ := exists_cons_chars hitems.1
      obtain ⟨start, hstart⟩ := nextItem_item first hopens
        (tail ++ (charsItems false items ++ ']' :: rest)) offset
      have hread := h v hitems.1 _ (ends_charsItems items rest) start
      rw [hchars, List.cons_append] at hread
      rw [charsItems, hchars, readItem, item?, Option.map_eq_bind]
      simp only [List.append_assoc, List.cons_append, hstart, ok_bind]
      exact hread.bind fun a _ offset => ⟨offset, rfl⟩

/-- Behind an item there is a comma before the next one; behind none there is nothing. -/
theorem charsItems_tail {of : Json → Option α} {items : List Json} {a : Option α}
    (h : item? of items = some a) :
    charsItems a.isNone items.tail = charsItems false items.tail := by
  cases items with
  | nil => rfl
  | cons v items =>
      obtain ⟨b, -, rfl⟩ := Option.map_eq_some_iff.mp h
      rfl

theorem endList_item (v : Json) (items : List Json) (rest : List Char) (offset : Nat) :
    ∃ p, endList ⟨charsItems false (v :: items) ++ ']' :: rest, offset⟩ = .error p := by
  simp only [charsItems, Bool.false_eq_true, if_false, List.cons_append, endList,
    Cursor.skipBlank_cons (c := ',') rfl]
  split <;> exact ⟨_, rfl⟩

/-- A record that is written as a list is refused if an item is left over. -/
theorem readStruct_list (wanted : String)
    (member : σ → String → Cursor → Except Problem (σ × Cursor)) (initial : σ)
    (finish : σ → Except Cause α) {items : Cursor → Except Problem (α × Cursor)}
    {values left : List Json} {a : Option α}
    (h : ∀ rest offset, Gives (items ⟨charsItems true values ++ ']' :: rest, offset⟩) a
      (charsItems false left ++ ']' :: rest)) :
    Reads (readStruct wanted member initial finish items) (.array values)
      (a.bind fun a => if left = [] then some a else none) := by
  intro rest _ offset
  simp only [chars, List.append_assoc, List.cons_append, List.nil_append]
  rw [readStruct, Cursor.skipBlank_cons rfl]
  refine (h rest _).bind fun a _ next => ?_
  cases left with
  | nil =>
      refine ⟨next + 1, ?_⟩
      simp only [charsItems, List.nil_append, endList_close, ok_bind]
      rfl
  | cons v left =>
      obtain ⟨p, hp⟩ := endList_item v left rest next
      refine ⟨p, ?_⟩
      simp only [hp]
      rfl

/-! ## Fields -/

/-- What a field holds in the end: what it held before, or what its own member gives. -/
def slot (filled : Option α) (name : String) (of : Json → Option α)
    (members : List (String × Json)) : Option (Option α) :=
  match members.lookup name with
  | none => some filled
  | some v => (of v).map some

theorem slot_of_not_mem {name : String} {members : List (String × Json)}
    (h : name ∉ members.map Prod.fst) (filled : Option α) (of : Json → Option α) :
    slot filled name of members = some filled := by
  rw [slot, lookup_of_not_mem h]

theorem slot_cons_ne {name k : String} (h : k ≠ name) (filled : Option α)
    (of : Json → Option α) (v : Json) (members : List (String × Json)) :
    slot filled name of ((k, v) :: members) = slot filled name of members := by
  rw [slot, lookup_cons_ite, if_neg h.symm, slot]

theorem slot_cons_self (name : String) (filled : Option α) (of : Json → Option α) (v : Json)
    (members : List (String × Json)) :
    slot filled name of ((name, v) :: members) = (of v).map some := by
  rw [slot, List.lookup_cons_self]

end AgentGateway.Json
