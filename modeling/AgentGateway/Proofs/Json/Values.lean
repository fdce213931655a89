import AgentGateway.Json.Reader
import AgentGateway.Proofs.Json.Range
import AgentGateway.Proofs.Json.Strings

/-!
# Values are read as they were written

The compact text of a value is read as that value (`readValue_chars`), up to what the format does
not keep: the members of an object come in the order of their keys, and a floating point number is
rounded once more (`readBack`). Text that follows is left alone.
-/

namespace AgentGateway.Json

mutual

/-- How deep lists and objects nest in a value. -/
def depth : Json → Nat
  | array items => depthItems items + 1
  | object members => depthMembers members + 1
  | _ => 0

def depthItems : List Json → Nat
  | [] => 0
  | v :: rest => max v.depth (depthItems rest)

def depthMembers : List (String × Json) → Nat
  | [] => 0
  | (_, v) :: rest => max v.depth (depthMembers rest)

end

mutual

/-- A value of the wire format: its numbers are in range, and no object has a key twice. -/
def Proper : Json → Prop
  | number n => n.Valid
  | array items => ProperItems items
  | object members => (members.map Prod.fst).Nodup ∧ ProperMembers members
  | _ => True

def ProperItems : List Json → Prop
  | [] => True
  | v :: rest => v.Proper ∧ ProperItems rest

def ProperMembers : List (String × Json) → Prop
  | [] => True
  | (_, v) :: rest => v.Proper ∧ ProperMembers rest

end

mutual

def readBack : Json → Json
  | number n => .number n.readBack
  | array items => .array (readBackItems items)
  | object members => .ofMembers (readBackMembers members)
  | v => v

def readBackItems : List Json → List Json
  | [] => []
  | v :: rest => v.readBack :: readBackItems rest

def readBackMembers : List (String × Json) → List (String × Json)
  | [] => []
  | (k, v) :: rest => (k, v.readBack) :: readBackMembers rest

end

theorem proper_of_mem {members : List (String × Json)} (h : ProperMembers members)
    {m : String × Json} (hm : m ∈ members) : m.2.Proper := by
  induction members with
  | nil => cases hm
  | cons m' members ih =>
      obtain rfl | hm := List.mem_cons.mp hm
      · exact h.1
      · exact ih h.2 hm

theorem depth_le_of_mem {members : List (String × Json)} {m : String × Json} (hm : m ∈ members) :
    m.2.depth ≤ depthMembers members := by
  induction members with
  | nil => cases hm
  | cons m' members ih =>
      obtain ⟨k, v⟩ := m'
      obtain rfl | hm := List.mem_cons.mp hm
      · exact Nat.le_max_left _ _
      · exact (ih hm).trans (Nat.le_max_right _ _)

mutual

/-- Nothing below the space is ever written, so the text of a value is one line. -/
theorem space_le_of_mem_chars {c : Char} : ∀ v : Json, v.Proper → c ∈ v.chars → 0x20 ≤ c.toNat
  | .null, _, hc => by
      simp only [chars, List.mem_cons, List.not_mem_nil, or_false] at hc
      obtain rfl | rfl | rfl | rfl := hc <;> decide
  | .bool true, _, hc => by
      simp only [chars, List.mem_cons, List.not_mem_nil, or_false] at hc
      obtain rfl | rfl | rfl | rfl := hc <;> decide
  | .bool false, _, hc => by
      simp only [chars, List.mem_cons, List.not_mem_nil, or_false] at hc
      obtain rfl | rfl | rfl | rfl | rfl := hc <;> decide
  | .number n, hv, hc => Number.space_le_of_mem_chars hv hc
  | .string s, _, hc => space_le_of_mem_quote hc
  | .array items, hv, hc => by
      simp only [chars, List.mem_append, List.mem_cons, List.not_mem_nil, or_false] at hc
      obtain (rfl | hc) | rfl := hc
      · decide
      · exact space_le_of_mem_charsItems true items hv hc
      · decide
  | .object members, hv, hc => by
      simp only [chars, List.mem_append, List.mem_cons, List.not_mem_nil, or_false] at hc
      obtain (rfl | hc) | rfl := hc
      · decide
      · exact space_le_of_mem_charsMembers true members hv.2 hc
      · decide

theorem space_le_of_mem_charsItems {c : Char} (first : Bool) :
    ∀ items : List Json, ProperItems items → c ∈ charsItems first items → 0x20 ≤ c.toNat
  | [], _, hc => nomatch hc
  | v :: items, hv, hc => by
      simp only [charsItems, List.mem_append] at hc
      obtain (hc | hc) | hc := hc
      · cases first with
        | true => cases hc
        | false =>
            rw [List.mem_singleton.mp hc]
            decide
      · exact space_le_of_mem_chars v hv.1 hc
      · exact space_le_of_mem_charsItems false items hv.2 hc

theorem space_le_of_mem_charsMembers {c : Char} (first : Bool) :
    ∀ members : List (String × Json), ProperMembers members → c ∈ charsMembers first members →
      0x20 ≤ c.toNat
  | [], _, hc => nomatch hc
  | (k, v) :: members, hv, hc => by
      simp only [charsMembers, List.mem_append, List.mem_cons] at hc
      obtain ((hc | hc) | rfl | hc) | hc := hc
      · cases first with
        | true => cases hc
        | false =>
            rw [List.mem_singleton.mp hc]
            decide
      · exact space_le_of_mem_quote hc
      · decide
      · exact space_le_of_mem_chars v hv.1 hc
      · exact space_le_of_mem_charsMembers false members hv.2 hc

end

/-! ## Members by their keys -/

theorem lookup_cons_ite {α : Type} (name k : String) (a : α) (rest : List (String × α)) :
    ((k, a) :: rest).lookup name = if name = k then some a else rest.lookup name := by
  by_cases h : name = k
  · simp [h]
  · have hne : (name == k) = false := by simpa using h
    rw [List.lookup_cons, hne, if_neg h]

/-- A member put in place is found under its key, and all others as before. -/
theorem get?_insert (members : Members) (key : String) (value : Json) (name : String) :
    (members.insert key value).get? name =
      if name = key then some value else members.get? name := by
  unfold Members.get?
  induction members with
  | nil => rw [Members.insert, lookup_cons_ite]
  | cons m members ih =>
      obtain ⟨k, v⟩ := m
      rw [Members.insert]
      by_cases hlt : key < k
      · rw [if_pos hlt, lookup_cons_ite]
      by_cases heq : key = k
      · subst heq
        rw [if_neg hlt, if_pos rfl]
        simp only [lookup_cons_ite]
        split_ifs <;> rfl
      · rw [if_neg hlt, if_neg heq, lookup_cons_ite, lookup_cons_ite, ih]
        by_cases hk : name = k
        · have hkey : name ≠ key := fun h => heq (h.symm.trans hk)
          rw [if_pos hk, if_pos hk, if_neg hkey]
        · rw [if_neg hk, if_neg hk]

theorem lookup_of_not_mem {name : String} {members : List (String × Json)}
    (h : name ∉ members.map Prod.fst) : members.lookup name = none := by
  rw [List.lookup_eq_none_iff]
  intro m hm
  refine bne_iff_ne.mpr ?_
  rintro rfl
  exact h (List.mem_map_of_mem hm)

/-! ## Tokens -/

namespace Cursor

theorem skipBlank_cons {c : Char} (h : isJsonBlank c = false) (tail : List Char) (offset : Nat) :
    skipBlank ⟨c :: tail, offset⟩ = ⟨c :: tail, offset⟩ := by
  simp [skipBlank, skipBlankFrom, h]

theorem word_append (letters rest : List Char) (offset : Nat) :
    word letters ⟨letters ++ rest, offset⟩ = .ok ⟨rest, offset + letters.length⟩ := by
  induction letters generalizing offset with
  | nil => rfl
  | cons c letters ih =>
      simp only [List.cons_append, word, if_true, ih, List.length_cons]
      congr 2
      omega

end Cursor

theorem ne_of_isDigit {c d : Char} (hc : isDigit c = true) (hd : isDigit d = false) : c ≠ d := by
  rintro rfl
  rw [hc] at hd
  contradiction

/-- What the text of a value starts with is no blank and nothing that could end or go on with a
list or an object. -/
structure Opens (c : Char) : Prop where
  blank : Cursor.isJsonBlank c = false
  bracket : c ≠ ']'
  brace : c ≠ '\x7d'
  comma : c ≠ ','

theorem Opens.of_isDigit {c : Char} (h : isDigit c = true) : Opens c where
  blank := by
    simp only [Cursor.isJsonBlank, Bool.or_eq_false_iff, beq_eq_false_iff_ne]
    exact ⟨⟨⟨ne_of_isDigit h rfl, ne_of_isDigit h rfl⟩, ne_of_isDigit h rfl⟩,
      ne_of_isDigit h rfl⟩
  bracket := ne_of_isDigit h rfl
  brace := ne_of_isDigit h rfl
  comma := ne_of_isDigit h rfl

theorem Numeral.Sound.exists_cons {n : Numeral} (hn : n.Sound) :
    ∃ d tail, n.chars = d :: tail ∧ isDigit d = true := by
  obtain ⟨d, ds, hwhole⟩ := List.exists_cons_of_ne_nil hn.whole_ne_nil
  exact ⟨d, _, by rw [Numeral.chars, hwhole]; rfl, hn.whole d (by simp [hwhole])⟩

def Starts (c : Char) : Json → Prop
  | null => c = 'n'
  | bool b => c = if b then 't' else 'f'
  | number _ => c = '-' ∨ isDigit c = true
  | string _ => c = '"'
  | array _ => c = '['
  | object _ => c = '\x7b'

theorem exists_starts {v : Json} (hv : v.Proper) : ∃ c tail, v.chars = c :: tail ∧ v.Starts c := by
  cases v with
  | null => exact ⟨'n', _, rfl, rfl⟩
  | bool b => cases b <;> exact ⟨_, _, rfl, rfl⟩
  | number n =>
      rw [chars, Number.chars_eq hv]
      split
      · exact ⟨'-', _, rfl, Or.inl rfl⟩
      · obtain ⟨d, tail, hchars, hd⟩ := n.numeral_sound.exists_cons
        exact ⟨d, tail, hchars, Or.inr hd⟩
  | string s => exact ⟨'"', _, by rw [chars, quote], rfl⟩
  | array items => exact ⟨'[', charsItems true items ++ [']'], by rw [chars, List.cons_append], rfl⟩
  | object members =>
      exact ⟨'\x7b', charsMembers true members ++ ['\x7d'], by rw [chars, List.cons_append], rfl⟩

theorem Starts.opens {c : Char} {v : Json} (h : v.Starts c) : Opens c := by
  cases v with
  | null => cases h; exact ⟨rfl, by decide, by decide, by decide⟩
  | bool b => cases h; cases b <;> exact ⟨rfl, by decide, by decide, by decide⟩
  | number n =>
      obtain rfl | hd := h
      · exact ⟨rfl, by decide, by decide, by decide⟩
      · exact Opens.of_isDigit hd
  | string s => cases h; exact ⟨rfl, by decide, by decide, by decide⟩
  | array items => cases h; exact ⟨rfl, by decide, by decide, by decide⟩
  | object members => cases h; exact ⟨rfl, by decide, by decide, by decide⟩

theorem exists_cons_chars {v : Json} (hv : v.Proper) :
    ∃ c tail, v.chars = c :: tail ∧ Opens c := by
  obtain ⟨c, tail, hchars, hstarts⟩ := exists_starts hv
  exact ⟨c, tail, hchars, hstarts.opens⟩

theorem chars_ne_nil {v : Json} (hv : v.Proper) : v.chars ≠ [] := by
  obtain ⟨c, tail, hchars, -⟩ := exists_cons_chars hv
  simp [hchars]

/-! ## Lists and objects -/

theorem nextItem_close (first : Bool) (rest : List Char) (offset : Nat) :
    nextItem first ⟨']' :: rest, offset⟩ = .ok none := by
  simp [nextItem, Cursor.skipBlank_cons (c := ']') rfl]

/-- Another item is found behind the comma, or behind the bracket if it is the first. -/
theorem nextItem_item (first : Bool) {c : Char} (hc : Opens c) (tail : List Char) (offset : Nat) :
    ∃ next, nextItem first ⟨(if first then [] else [',']) ++ c :: tail, offset⟩ =
      .ok (some ⟨c :: tail, next⟩) := by
  cases first with
  | true => exact ⟨offset, by simp [nextItem, Cursor.skipBlank_cons hc.blank, hc.bracket]⟩
  | false =>
      refine ⟨offset + 1, ?_⟩
      simp only [nextItem, Bool.false_eq_true, if_false, List.singleton_append,
        Cursor.skipBlank_cons (c := ',') rfl, Cursor.advance]
      have hsize : (',' : Char).utf8Size = 1 := rfl
      simp [hsize, Cursor.skipBlank_cons hc.blank, hc.bracket]

theorem endList_close (rest : List Char) (offset : Nat) :
    endList ⟨']' :: rest, offset⟩ = .ok ⟨rest, offset + 1⟩ := by
  simp [endList, Cursor.skipBlank_cons (c := ']') rfl, Cursor.advance]
  rfl

theorem nextKey_close (first : Bool) (rest : List Char) (offset : Nat) :
    nextKey first ⟨'\x7d' :: rest, offset⟩ = .ok none := by
  simp [nextKey, Cursor.skipBlank_cons (c := '\x7d') rfl]
  rfl

theorem readString_quote (s : String) (tail : List Char) (offset : Nat) :
    ∃ next, readString (s.toList.flatMap escapeChar ++ '"' :: tail) offset [] =
      .ok (s.toList, ⟨tail, next⟩) := readString_flatMap s.toList tail offset []

theorem quote_append (s : String) (tail : List Char) :
    quote s ++ tail = '"' :: (s.toList.flatMap escapeChar ++ '"' :: tail) := by
  simp [quote]

/-- Another key is read behind the comma, or behind the brace if it is the first. -/
theorem nextKey_key (first : Bool) (key : String) (tail : List Char) (offset : Nat) :
    ∃ next, nextKey first ⟨(if first then [] else [',']) ++ (quote key ++ tail), offset⟩ =
      .ok (some (key, ⟨tail, next⟩)) := by
  rw [quote_append]
  cases first with
  | true =>
      obtain ⟨next, hnext⟩ := readString_quote key tail (offset + 1)
      refine ⟨next, ?_⟩
      simp [nextKey, Cursor.skipBlank_cons (c := '"') rfl, hnext]
  | false =>
      obtain ⟨next, hnext⟩ := readString_quote key tail (offset + 1 + 1)
      refine ⟨next, ?_⟩
      have hsize : (',' : Char).utf8Size = 1 := rfl
      simp [nextKey, Cursor.skipBlank_cons (c := ',') rfl, Cursor.skipBlank_cons (c := '"') rfl,
        Cursor.advance, hsize, hnext]

theorem readColon_colon (tail : List Char) (offset : Nat) :
    readColon ⟨':' :: tail, offset⟩ = .ok ⟨tail, offset + 1⟩ := by
  simp [readColon, Cursor.skipBlank_cons (c := ':') rfl, Cursor.advance]
  rfl

theorem endObject_close (rest : List Char) (offset : Nat) :
    endObject ⟨'\x7d' :: rest, offset⟩ = .ok ⟨rest, offset + 1⟩ := by
  simp [endObject, Cursor.skipBlank_cons (c := '\x7d') rfl, Cursor.advance]
  rfl

/-! ## Values -/

theorem readValue_word {c : Char} {letters : List Char} {v : Json}
    (h : (c, letters, v) ∈ [('n', ['u', 'l', 'l'], Json.null),
      ('t', ['r', 'u', 'e'], .bool true), ('f', ['a', 'l', 's', 'e'], .bool false)])
    (fuel depth : Nat) (rest : List Char) (offset : Nat) :
    Gives (readValue (fuel + 1) depth ⟨c :: (letters ++ rest), offset⟩) (some v) rest := by
  have hword := fun offset => Cursor.word_append letters rest offset
  refine ⟨offset + c.utf8Size + letters.length, ?_⟩
  simp only [List.mem_cons, List.not_mem_nil, or_false, Prod.mk.injEq] at h
  obtain ⟨rfl, rfl, rfl⟩ | ⟨rfl, rfl, rfl⟩ | ⟨rfl, rfl, rfl⟩ := h
  all_goals
    rw [readValue, Cursor.skipBlank_cons rfl]
    simp only [Cursor.advance, Char.reduceEq, if_true, if_false, hword]
    rfl

theorem readValue_string (s : String) (fuel depth : Nat) (rest : List Char) (offset : Nat) :
    Gives (readValue (fuel + 1) depth ⟨quote s ++ rest, offset⟩) (some (.string s)) rest := by
  obtain ⟨next, hnext⟩ := readString_quote s rest (offset + 1)
  refine ⟨next, ?_⟩
  rw [quote_append, readValue, Cursor.skipBlank_cons rfl]
  have hdigit : isDigit '"' = false := rfl
  simp only [Char.reduceEq, if_true, if_false, hdigit, Bool.false_eq_true, hnext]
  change Except.ok (Json.string (String.ofList s.toList), _) = _
  rw [String.ofList_toList]

/-- The text of a number is a minus and a numeral, or a numeral alone; both readings of the
numeral end behind it. -/
theorem number_cases {n : Number} (hn : n.Valid) {rest : List Char} (hrest : Ends rest) :
    ∃ (negative : Bool) (d : Char) (tail : List Char), isDigit d = true ∧
      n.chars ++ rest = (if negative then ['-'] else []) ++ d :: tail ∧
      (∀ offset, Gives (readNumber negative ⟨d :: tail, offset⟩) (some n.readBack) rest) ∧
      (∀ offset, ∃ next, skipNumber ⟨d :: tail, offset⟩ = .ok ⟨rest, next⟩) := by
  obtain ⟨d, tail, hchars, hd⟩ := n.numeral_sound.exists_cons
  have hread := fun offset => Numeral.readNumber_gives n.numeral_sound hrest n.negative offset
  have hskip := fun offset => Numeral.skipNumber_chars n.numeral_sound hrest offset
  rw [Number.value?_numeral hn] at hread
  rw [hchars, List.cons_append] at hread hskip
  refine ⟨n.negative, d, tail ++ rest, hd, ?_, hread, hskip⟩
  rw [Number.chars_eq hn, hchars, List.append_assoc, List.cons_append]

theorem readValue_number {n : Number} (hn : n.Valid) (fuel depth : Nat) {rest : List Char}
    (hrest : Ends rest) (offset : Nat) :
    Gives (readValue (fuel + 1) depth ⟨n.chars ++ rest, offset⟩) (some (.number n.readBack))
      rest := by
  obtain ⟨negative, d, tail, hd, htext, hread, -⟩ := number_cases hn hrest
  rw [htext]
  cases negative with
  | true =>
      obtain ⟨next, hnext⟩ := hread (offset + ('-' : Char).utf8Size)
      refine ⟨next, ?_⟩
      simp only [if_true, List.singleton_append]
      rw [readValue, Cursor.skipBlank_cons rfl]
      simp only [Cursor.advance, Char.reduceEq, if_true, if_false, hnext]
      rfl
  | false =>
      obtain ⟨next, hnext⟩ := hread offset
      refine ⟨next, ?_⟩
      simp only [Bool.false_eq_true, if_false, List.nil_append]
      rw [readValue, Cursor.skipBlank_cons (Opens.of_isDigit hd).blank]
      have hnull := ne_of_isDigit hd (d := 'n') rfl
      have ht := ne_of_isDigit hd (d := 't') rfl
      have hf := ne_of_isDigit hd (d := 'f') rfl
      have hminus := ne_of_isDigit hd (d := '-') rfl
      simp only [hnull, ht, hf, hminus, hd, if_true, if_false, hnext]
      rfl

theorem ends_charsItems (items : List Json) (rest : List Char) :
    Ends (charsItems false items ++ ']' :: rest) := by
  cases items with
  | nil => simp [Ends, charsItems]
  | cons v items => simp [Ends, charsItems]

theorem ends_charsMembers (members : List (String × Json)) (rest : List Char) :
    Ends (charsMembers false members ++ '\x7d' :: rest) := by
  cases members with
  | nil => simp [Ends, charsMembers]
  | cons m members => simp [Ends, charsMembers]

/-- Behind the opening bracket the items are read, and then the closing one. -/
theorem readValue_array {fuel depth : Nat} (hdepth : 1 < depth) {text rest : List Char}
    {items : List Json} (offset : Nat)
    (h : ∀ offset, Gives (readItems fuel (depth - 1) true [] ⟨text, offset⟩) (some items)
      (']' :: rest)) :
    Gives (readValue (fuel + 1) depth ⟨'[' :: text, offset⟩) (some (.array items)) rest := by
  obtain ⟨next, hnext⟩ := h (offset + ('[' : Char).utf8Size)
  have hdigit : isDigit '[' = false := rfl
  refine ⟨next + 1, ?_⟩
  rw [readValue, Cursor.skipBlank_cons rfl]
  simp only [Cursor.advance, Char.reduceEq, if_true, if_false, hdigit, Bool.false_eq_true,
    Nat.not_le.mpr hdepth, hnext]
  simp only [ok_bind, endList_close]
  rfl

/-- Behind the opening brace the members are read, and then the closing one. -/
theorem readValue_object {fuel depth : Nat} (hdepth : 1 < depth) {text rest : List Char}
    {members : Members} (offset : Nat)
    (h : ∀ offset, Gives (readMembers fuel (depth - 1) true [] ⟨text, offset⟩) (some members)
      ('\x7d' :: rest)) :
    Gives (readValue (fuel + 1) depth ⟨'\x7b' :: text, offset⟩) (some (.object members)) rest := by
  obtain ⟨next, hnext⟩ := h (offset + ('\x7b' : Char).utf8Size)
  have hdigit : isDigit '\x7b' = false := rfl
  refine ⟨next + 1, ?_⟩
  rw [readValue, Cursor.skipBlank_cons rfl]
  simp only [Cursor.advance, Char.reduceEq, if_true, if_false, hdigit, Bool.false_eq_true,
    Nat.not_le.mpr hdepth, hnext]
  simp only [ok_bind, endObject_close]
  rfl

mutual

/-- The text of a value is read as that value, and reading goes no further. -/
theorem readValue_chars : ∀ (v : Json), v.Proper → ∀ (fuel depth : Nat) {rest : List Char},
    v.chars.length ≤ fuel → v.depth < depth → Ends rest → ∀ offset,
    Gives (readValue fuel depth ⟨v.chars ++ rest, offset⟩) (some v.readBack) rest
  | .null, _, fuel + 1, depth, rest, _, _, _, offset =>
      readValue_word (by simp [readBack]) fuel depth rest offset
  | .bool true, _, fuel + 1, depth, rest, _, _, _, offset =>
      readValue_word (by simp [readBack]) fuel depth rest offset
  | .bool false, _, fuel + 1, depth, rest, _, _, _, offset =>
      readValue_word (by simp [readBack]) fuel depth rest offset
  | .number n, hv, fuel + 1, depth, rest, _, _, hrest, offset =>
      readValue_number hv fuel depth hrest offset
  | .string s, _, fuel + 1, depth, rest, _, _, _, offset =>
      readValue_string s fuel depth rest offset
  | .array items, hv, fuel + 1, depth, rest, hfuel, hdepth, _, offset => by
      rw [Json.depth] at hdepth
      simp only [chars, List.length_append, List.length_cons, List.length_nil] at hfuel
      simp only [chars, List.append_assoc, List.cons_append, List.nil_append]
      exact readValue_array (by omega) offset fun offset =>
        readItems_chars items hv _ _ true [] rest (by omega) (by omega) offset
  | .object members, hv, fuel + 1, depth, rest, hfuel, hdepth, _, offset => by
      rw [Json.depth] at hdepth
      simp only [chars, List.length_append, List.length_cons, List.length_nil] at hfuel
      simp only [chars, List.append_assoc, List.cons_append, List.nil_append]
      exact readValue_object (by omega) offset fun offset =>
        readMembers_chars members hv.2 _ _ true [] rest (by omega) (by omega) offset
  | _, hv, 0, _, _, hfuel, _, _, _ =>
      absurd (List.eq_nil_of_length_eq_zero (Nat.le_zero.mp hfuel)) (chars_ne_nil hv)

theorem readItems_chars : ∀ (items : List Json), ProperItems items →
    ∀ (fuel depth : Nat) (first : Bool) (done : List Json) (rest : List Char),
    (charsItems first items).length < fuel → depthItems items < depth → ∀ offset,
    Gives (readItems fuel depth first done ⟨charsItems first items ++ ']' :: rest, offset⟩)
      (some (done.reverse ++ readBackItems items)) (']' :: rest)
  | [], _, fuel + 1, depth, first, done, rest, _, _, offset => by
      rw [charsItems, List.nil_append, readItems, nextItem_close, readBackItems, List.append_nil]
      exact ⟨offset, rfl⟩
  | v :: items, hv, fuel + 1, depth, first, done, rest, hfuel, hdepth, offset => by
      obtain ⟨hhead, htail⟩ := hv
      -- A value has a character, so the fuel for the items behind it is less.
      obtain ⟨c, tail, hchars, hopens⟩ := exists_cons_chars hhead
      have hlen : 0 < v.chars.length := by simp [hchars]
      obtain ⟨hhere, hthere⟩ := Nat.max_lt.mp hdepth
      simp only [charsItems, List.length_append] at hfuel
      have hitem := readValue_chars v hhead fuel depth (by omega) hhere
        (ends_charsItems items rest)
      obtain ⟨start, hstart⟩ := nextItem_item first hopens
        (tail ++ (charsItems false items ++ ']' :: rest)) offset
      rw [← List.cons_append, ← hchars] at hstart
      obtain ⟨next, hnext⟩ := hitem start
      have hrest := readItems_chars items htail fuel depth false (v.readBack :: done)
        rest (by omega) hthere next
      rw [charsItems, readItems]
      simp only [List.append_assoc, hstart, ok_bind, hnext]
      rw [List.reverse_cons, List.append_assoc, List.singleton_append] at hrest
      exact hrest

theorem readMembers_chars : ∀ (members : List (String × Json)), ProperMembers members →
    ∀ (fuel depth : Nat) (first : Bool) (done : Members) (rest : List Char),
    (charsMembers first members).length < fuel → depthMembers members < depth → ∀ offset,
    Gives (readMembers fuel depth first done ⟨charsMembers first members ++ '\x7d' :: rest, offset⟩)
      (some ((readBackMembers members).foldl (fun done m => Members.insert done m.1 m.2) done))
      ('\x7d' :: rest)
  | [], _, fuel + 1, depth, first, done, rest, _, _, offset => by
      rw [charsMembers, List.nil_append, readMembers, nextKey_close, readBackMembers]
      exact ⟨offset, rfl⟩
  | (k, v) :: members, hv, fuel + 1, depth, first, done, rest, hfuel, hdepth, offset => by
      obtain ⟨hhead, htail⟩ := hv
      obtain ⟨hhere, hthere⟩ := Nat.max_lt.mp hdepth
      simp only [charsMembers, List.length_append, List.length_cons] at hfuel
      obtain ⟨start, hstart⟩ := nextKey_key first k
        (':' :: (v.chars ++ (charsMembers false members ++ '\x7d' :: rest))) offset
      obtain ⟨next, hnext⟩ := readValue_chars v hhead fuel depth (by omega) hhere
        (ends_charsMembers members rest) (start + 1)
      have hrest := readMembers_chars members htail fuel depth false
        (done.insert k v.readBack) rest (by omega) hthere next
      rw [charsMembers, readMembers]
      simp only [List.append_assoc, List.cons_append, hstart, ok_bind, readColon_colon, hnext]
      exact hrest

end

end AgentGateway.Json
