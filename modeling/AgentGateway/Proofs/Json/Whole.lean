import AgentGateway.Proofs.Json.Values
import Mathlib.Data.String.Basic

/-!
# Values that come back as they were

The members of an object are held in the order of their keys, so a value without floating point
numbers is read back as it is (`Whole.readBack_eq`). A text may have the members in any order: what
is read from it is the same value (`readAny_chars`). A reader that refuses some level of nesting
reads the text of a value if and only if the value nests less deep (`readNested_chars`).
-/

namespace AgentGateway.Json

/-! ## Members in order -/

namespace Members

def Ascending (members : Members) : Prop := (members.map Prod.fst).Pairwise (· < ·)

theorem insert_last {members : Members} {key : String} (h : ∀ m ∈ members, m.1 < key)
    (value : Json) : members.insert key value = members ++ [(key, value)] := by
  induction members with
  | nil => rfl
  | cons m members ih =>
      obtain ⟨k, v⟩ := m
      obtain ⟨hfirst, hrest⟩ := List.forall_mem_cons.mp h
      rw [Members.insert, if_neg (lt_asymm hfirst), if_neg hfirst.ne', ih hrest, List.cons_append]

theorem foldl_insert_of_ascending (done : Members) {members : Members}
    (h : Ascending (done ++ members)) :
    members.foldl (fun done m => Members.insert done m.1 m.2) done = done ++ members := by
  induction members generalizing done with
  | nil => rw [List.foldl_nil, List.append_nil]
  | cons m members ih =>
      have hlast : ∀ d ∈ done, d.1 < m.1 := by
        rw [Ascending, List.map_append, List.pairwise_append] at h
        exact fun d hd => h.2.2 _ (List.mem_map_of_mem hd) _ (by simp)
      rw [List.append_cons] at h ⊢
      rw [List.foldl_cons, insert_last hlast, ih _ h]

theorem mem_of_mem_insert {members : Members} {key : String} {value : Json} {m : String × Json}
    (h : m ∈ members.insert key value) : m = (key, value) ∨ m ∈ members := by
  induction members with
  | nil => exact .inl (List.mem_singleton.mp h)
  | cons m' members ih =>
      obtain ⟨k, v⟩ := m'
      rw [Members.insert] at h
      split_ifs at h with hlt heq
      · exact List.mem_cons.mp h
      · exact (List.mem_cons.mp h).imp_right (List.mem_cons_of_mem _)
      · obtain rfl | h := List.mem_cons.mp h
        · exact .inr List.mem_cons_self
        · exact (ih h).imp_right (List.mem_cons_of_mem _)

theorem Ascending.insert {members : Members} (h : members.Ascending) (key : String)
    (value : Json) : (members.insert key value).Ascending := by
  induction members with
  | nil => simp [Members.insert, Ascending]
  | cons m members ih =>
      obtain ⟨k, v⟩ := m
      obtain ⟨hfirst, hrest⟩ := List.pairwise_cons.mp h
      rw [Members.insert]
      split_ifs with hlt heq
      · refine List.pairwise_cons.mpr ⟨fun name hname => ?_, h⟩
        obtain rfl | hname := List.mem_cons.mp hname
        · exact hlt
        · exact hlt.trans (hfirst name hname)
      · exact List.pairwise_cons.mpr ⟨heq ▸ hfirst, hrest⟩
      · refine List.pairwise_cons.mpr ⟨fun name hname => ?_, ih hrest⟩
        obtain ⟨m, hm, rfl⟩ := List.mem_map.mp hname
        obtain rfl | hm := mem_of_mem_insert hm
        · exact lt_of_le_of_ne (not_lt.mp hlt) (Ne.symm heq)
        · exact hfirst m.1 (List.mem_map_of_mem hm)

/-- A member with a new key is put in, and nothing else changes. -/
theorem insert_perm {members : Members} {key : String} (h : key ∉ members.map Prod.fst)
    (value : Json) : (members.insert key value).Perm ((key, value) :: members) := by
  induction members with
  | nil => exact .refl _
  | cons m members ih =>
      obtain ⟨k, v⟩ := m
      obtain ⟨hne, hrest⟩ := not_or.mp (List.mem_cons.not.mp h)
      rw [Members.insert]
      split_ifs with hlt
      · exact .refl _
      · exact ((ih hrest).cons _).trans (.swap _ _ _)

theorem foldl_insert_perm (done : Members) {members : Members}
    (h : ((done ++ members).map Prod.fst).Nodup) :
    (members.foldl (fun done m => Members.insert done m.1 m.2) done).Perm (done ++ members) := by
  induction members generalizing done with
  | nil => rw [List.foldl_nil, List.append_nil]
  | cons m members ih =>
      have hswap : (done ++ m :: members).Perm ((m :: done) ++ members) := List.perm_middle
      have hnodup := (hswap.map Prod.fst).nodup_iff.mp h
      have hinsert : (Members.insert done m.1 m.2).Perm (m :: done) := by
        refine insert_perm (fun hmem => ?_) m.2
        exact (List.nodup_cons.mp hnodup).1 (by simp [List.mem_map.mp hmem])
      have happend := hinsert.append_right members
      exact (ih _ ((happend.map Prod.fst).nodup_iff.mpr hnodup)).trans (happend.trans hswap.symm)

end Members

/-! ## Values without floating point numbers -/

def Number.Whole : Number → Prop
  | integer n => (integer n).Valid
  | real _ => False

mutual

/-- A value as it is held, all its numbers integers. -/
def Whole : Json → Prop
  | number n => n.Whole
  | array items => WholeItems items
  | object members => Members.Ascending members ∧ WholeMembers members
  | _ => True

def WholeItems : List Json → Prop
  | [] => True
  | v :: rest => v.Whole ∧ WholeItems rest

def WholeMembers : List (String × Json) → Prop
  | [] => True
  | (_, v) :: rest => v.Whole ∧ WholeMembers rest

end

@[simp] theorem whole_null : null.Whole := trivial

@[simp] theorem whole_bool (b : Bool) : (bool b).Whole := trivial

@[simp] theorem whole_string (s : String) : (string s).Whole := trivial

theorem wholeItems_iff {items : List Json} : WholeItems items ↔ ∀ v ∈ items, v.Whole := by
  induction items with
  | nil => simp [WholeItems]
  | cons v items ih => rw [WholeItems, ih, List.forall_mem_cons]

theorem wholeMembers_iff {members : List (String × Json)} :
    WholeMembers members ↔ ∀ m ∈ members, m.2.Whole := by
  induction members with
  | nil => simp [WholeMembers]
  | cons m members ih => rw [WholeMembers, ih, List.forall_mem_cons]

theorem Number.Whole.valid {n : Number} (h : n.Whole) : n.Valid := by
  cases n with
  | integer n => exact h
  | real x => exact h.elim

theorem Number.Whole.readBack_eq {n : Number} (h : n.Whole) : n.readBack = n := by
  cases n with
  | integer n => exact readBack_integer h
  | real x => exact h.elim

theorem Members.Ascending.nodup {members : Members} (h : members.Ascending) :
    (members.map Prod.fst).Nodup := h.imp fun hlt => hlt.ne

mutual

theorem Whole.proper : ∀ {v : Json}, v.Whole → v.Proper
  | .null, _ | .bool _, _ | .string _, _ => trivial
  | .number _, h => Number.Whole.valid h
  | .array _, h => WholeItems.proper h
  | .object _, h => ⟨h.1.nodup, WholeMembers.proper h.2⟩

theorem WholeItems.proper : ∀ {items : List Json}, WholeItems items → ProperItems items
  | [], _ => trivial
  | _ :: _, h => ⟨h.1.proper, WholeItems.proper h.2⟩

theorem WholeMembers.proper : ∀ {members : List (String × Json)}, WholeMembers members →
    ProperMembers members
  | [], _ => trivial
  | _ :: _, h => ⟨h.1.proper, WholeMembers.proper h.2⟩

end

mutual

theorem Whole.readBack_eq : ∀ {v : Json}, v.Whole → v.readBack = v
  | .null, _ | .bool _, _ | .string _, _ => rfl
  | .number _, h => congrArg number (Number.Whole.readBack_eq h)
  | .array _, h => congrArg array (WholeItems.readBack_eq h)
  | .object members, h => by
      rw [readBack, WholeMembers.readBack_eq h.2, ofMembers,
        Members.foldl_insert_of_ascending [] h.1, List.nil_append]

theorem WholeItems.readBack_eq : ∀ {items : List Json}, WholeItems items →
    readBackItems items = items
  | [], _ => rfl
  | _ :: _, h => congrArg₂ List.cons h.1.readBack_eq (WholeItems.readBack_eq h.2)

theorem WholeMembers.readBack_eq : ∀ {members : List (String × Json)}, WholeMembers members →
    readBackMembers members = members
  | [], _ => rfl
  | (k, _) :: _, h =>
      congrArg₂ List.cons (congrArg (Prod.mk k) h.1.readBack_eq) (WholeMembers.readBack_eq h.2)

end

theorem whole_foldl_insert {done members : Members} (hdone : (object done).Whole)
    (h : ∀ m ∈ members, m.2.Whole) :
    (object (members.foldl (fun done m => Members.insert done m.1 m.2) done)).Whole := by
  induction members generalizing done with
  | nil => exact hdone
  | cons m members ih =>
      obtain ⟨hfirst, hrest⟩ := List.forall_mem_cons.mp h
      refine ih ⟨hdone.1.insert m.1 m.2, wholeMembers_iff.mpr fun d hd => ?_⟩ hrest
      obtain rfl | hd := Members.mem_of_mem_insert hd
      · exact hfirst
      · exact wholeMembers_iff.mp hdone.2 d hd

/-- Objects that are put together from members are as they should be. -/
theorem whole_ofMembers {members : List (String × Json)} (h : ∀ m ∈ members, m.2.Whole) :
    (ofMembers members).Whole :=
  whole_foldl_insert ⟨.nil, trivial⟩ h

theorem whole_ofNat {n : Nat} (h : n ≤ maxWord64) : (ofNat n).Whole := by
  have hn : (n : Int) ≤ maxWord64 := by exact_mod_cast h
  exact ⟨by omega, hn⟩

/-! ## How deep values nest -/

theorem depthMembers_le_iff {members : List (String × Json)} {limit : Nat} :
    depthMembers members ≤ limit ↔ ∀ m ∈ members, m.2.depth ≤ limit := by
  induction members with
  | nil => simp [depthMembers]
  | cons m members ih => rw [depthMembers, Nat.max_le, ih, List.forall_mem_cons]

theorem depthMembers_perm {members members' : List (String × Json)} (h : members.Perm members') :
    depthMembers members = depthMembers members' := by
  refine Nat.le_antisymm (depthMembers_le_iff.mpr fun m hm => ?_)
    (depthMembers_le_iff.mpr fun m hm => ?_)
  · exact depth_le_of_mem (h.mem_iff.mp hm)
  · exact depth_le_of_mem (h.mem_iff.mpr hm)

theorem keys_readBackMembers (members : List (String × Json)) :
    (readBackMembers members).map Prod.fst = members.map Prod.fst := by
  induction members with
  | nil => rfl
  | cons m members ih => rw [readBackMembers, List.map_cons, List.map_cons, ih]

mutual

/-- What is read from a text nests as deep as what was written. -/
theorem depth_readBack : ∀ {v : Json}, v.Proper → v.readBack.depth = v.depth
  | .null, _ | .bool _, _ | .string _, _ | .number _, _ => rfl
  | .array _, h => congrArg (· + 1) (depthItems_readBack h)
  | .object members, h => by
      have hkeys : ((readBackMembers members).map Prod.fst).Nodup := by
        rw [keys_readBackMembers]
        exact h.1
      have hperm := Members.foldl_insert_perm [] hkeys
      rw [readBack, ofMembers, depth, depth, depthMembers_perm hperm, List.nil_append,
        depthMembers_readBack h.2]

theorem depthItems_readBack : ∀ {items : List Json}, ProperItems items →
    depthItems (readBackItems items) = depthItems items
  | [], _ => rfl
  | _ :: _, h => congrArg₂ max (depth_readBack h.1) (depthItems_readBack h.2)

theorem depthMembers_readBack : ∀ {members : List (String × Json)}, ProperMembers members →
    depthMembers (readBackMembers members) = depthMembers members
  | [], _ => rfl
  | _ :: _, h => congrArg₂ max (depth_readBack h.1) (depthMembers_readBack h.2)

end

mutual

theorem depth_le_length_chars : ∀ v : Json, v.depth ≤ v.chars.length
  | .null | .bool _ | .string _ | .number _ => Nat.zero_le _
  | .array items => by
      have := depthItems_le_length true items
      simp only [depth, chars, List.length_append, List.length_cons, List.length_nil]
      omega
  | .object members => by
      have := depthMembers_le_length true members
      simp only [depth, chars, List.length_append, List.length_cons, List.length_nil]
      omega

theorem depthItems_le_length (first : Bool) : ∀ items : List Json,
    depthItems items ≤ (charsItems first items).length
  | [] => Nat.zero_le _
  | v :: items => by
      have := depth_le_length_chars v
      have := depthItems_le_length false items
      simp only [depthItems, charsItems, List.length_append]
      omega

theorem depthMembers_le_length (first : Bool) : ∀ members : List (String × Json),
    depthMembers members ≤ (charsMembers first members).length
  | [] => Nat.zero_le _
  | (_, v) :: members => by
      have := depth_le_length_chars v
      have := depthMembers_le_length false members
      simp only [depthMembers, charsMembers, List.length_append, List.length_cons]
      omega

end

mutual

/-- A value that nests too deep is refused, at the first bracket that is one too many. -/
theorem readValue_tooDeep : ∀ (v : Json), v.Proper → ∀ (fuel limit : Nat) (rest : List Char),
    v.chars.length ≤ fuel → 0 < limit → limit ≤ v.depth → ∀ offset,
    ∃ p, readValue fuel limit ⟨v.chars ++ rest, offset⟩ = .error p
  | _, _, 0, _, _, _, _, _, _ => ⟨_, rfl⟩
  | .null, _, _ + 1, _, _, _, hlimit, hdeep, _ => absurd hdeep (Nat.not_le.mpr hlimit)
  | .bool _, _, _ + 1, _, _, _, hlimit, hdeep, _ => absurd hdeep (Nat.not_le.mpr hlimit)
  | .number _, _, _ + 1, _, _, _, hlimit, hdeep, _ => absurd hdeep (Nat.not_le.mpr hlimit)
  | .string _, _, _ + 1, _, _, _, hlimit, hdeep, _ => absurd hdeep (Nat.not_le.mpr hlimit)
  | .array items, hv, fuel + 1, limit, rest, hfuel, hlimit, hdeep, offset => by
      have hdigit : isDigit '[' = false := rfl
      rw [depth] at hdeep
      simp only [chars, List.length_append, List.length_cons, List.length_nil] at hfuel
      simp only [chars, List.append_assoc, List.cons_append, List.nil_append]
      rw [readValue, Cursor.skipBlank_cons rfl]
      simp only [Char.reduceEq, if_true, if_false, hdigit, Bool.false_eq_true]
      by_cases hlast : limit ≤ 1
      · exact ⟨_, if_pos hlast⟩
      · obtain ⟨p, hp⟩ := readItems_tooDeep items hv fuel (limit - 1) true [] rest (by omega)
          (by omega) (by omega) (offset + ('[' : Char).utf8Size)
        refine ⟨p, ?_⟩
        rw [if_neg hlast, Cursor.advance, hp]
        rfl
  | .object members, hv, fuel + 1, limit, rest, hfuel, hlimit, hdeep, offset => by
      have hdigit : isDigit '\x7b' = false := rfl
      rw [depth] at hdeep
      simp only [chars, List.length_append, List.length_cons, List.length_nil] at hfuel
      simp only [chars, List.append_assoc, List.cons_append, List.nil_append]
      rw [readValue, Cursor.skipBlank_cons rfl]
      simp only [Char.reduceEq, if_true, if_false, hdigit, Bool.false_eq_true]
      by_cases hlast : limit ≤ 1
      · exact ⟨_, if_pos hlast⟩
      · obtain ⟨p, hp⟩ := readMembers_tooDeep members hv.2 fuel (limit - 1) true [] rest
          (by omega) (by omega) (by omega) (offset + ('\x7b' : Char).utf8Size)
        refine ⟨p, ?_⟩
        rw [if_neg hlast, Cursor.advance, hp]
        rfl

theorem readItems_tooDeep : ∀ (items : List Json), ProperItems items →
    ∀ (fuel limit : Nat) (first : Bool) (done : List Json) (rest : List Char),
    (charsItems first items).length < fuel → 0 < limit → limit ≤ depthItems items → ∀ offset,
    ∃ p, readItems fuel limit first done ⟨charsItems first items ++ ']' :: rest, offset⟩ =
      .error p
  | [], _, _ + 1, _, _, _, _, _, hlimit, hdeep, _ => absurd hdeep (Nat.not_le.mpr hlimit)
  | v :: items, hv, fuel + 1, limit, first, done, rest, hfuel, hlimit, hdeep, offset => by
      obtain ⟨hhead, htail⟩ := hv
      obtain ⟨c, tail, hchars, hopens⟩ := exists_cons_chars hhead
      have hlen : 0 < v.chars.length := by simp [hchars]
      simp only [charsItems, List.length_append] at hfuel
      obtain ⟨start, hstart⟩ := nextItem_item first hopens
        (tail ++ (charsItems false items ++ ']' :: rest)) offset
      rw [← List.cons_append, ← hchars] at hstart
      rw [charsItems, readItems]
      simp only [List.append_assoc, hstart, ok_bind]
      by_cases hhere : limit ≤ v.depth
      · obtain ⟨p, hp⟩ := readValue_tooDeep v hhead fuel limit
          (charsItems false items ++ ']' :: rest) (by omega) hlimit hhere start
        exact ⟨p, by rw [hp]; rfl⟩
      · have hthere : limit ≤ depthItems items := (le_max_iff.mp hdeep).resolve_left hhere
        obtain ⟨next, hnext⟩ := readValue_chars v hhead fuel limit (by omega)
          (Nat.lt_of_not_le hhere) (ends_charsItems items rest) start
        rw [hnext]
        exact readItems_tooDeep items htail fuel limit false (v.readBack :: done) rest (by omega)
          hlimit hthere next

theorem readMembers_tooDeep : ∀ (members : List (String × Json)), ProperMembers members →
    ∀ (fuel limit : Nat) (first : Bool) (done : Members) (rest : List Char),
    (charsMembers first members).length < fuel → 0 < limit → limit ≤ depthMembers members →
    ∀ offset, ∃ p,
      readMembers fuel limit first done ⟨charsMembers first members ++ '\x7d' :: rest, offset⟩ =
        .error p
  | [], _, _ + 1, _, _, _, _, _, hlimit, hdeep, _ => absurd hdeep (Nat.not_le.mpr hlimit)
  | (k, v) :: members, hv, fuel + 1, limit, first, done, rest, hfuel, hlimit, hdeep, offset => by
      obtain ⟨hhead, htail⟩ := hv
      simp only [charsMembers, List.length_append, List.length_cons] at hfuel
      obtain ⟨start, hstart⟩ := nextKey_key first k
        (':' :: (v.chars ++ (charsMembers false members ++ '\x7d' :: rest))) offset
      rw [charsMembers, readMembers]
      simp only [List.append_assoc, List.cons_append, hstart, ok_bind, readColon_colon]
      by_cases hhere : limit ≤ v.depth
      · obtain ⟨p, hp⟩ := readValue_tooDeep v hhead fuel limit
          (charsMembers false members ++ '\x7d' :: rest) (by omega) hlimit hhere (start + 1)
        exact ⟨p, by rw [hp]; rfl⟩
      · have hthere : limit ≤ depthMembers members := (le_max_iff.mp hdeep).resolve_left hhere
        obtain ⟨next, hnext⟩ := readValue_chars v hhead fuel limit (by omega)
          (Nat.lt_of_not_le hhere) (ends_charsMembers members rest) (start + 1)
        rw [hnext]
        exact readMembers_tooDeep members htail fuel limit false (done.insert k v.readBack) rest
          (by omega) hlimit hthere next

end

/-! ## Whole texts -/

/-- Reads a value from a whole text; so many levels of nesting are refused. -/
def readNested (limit : Nat) (text : List Char) : Except Problem Json :=
  readWhole (readValue (text.length + 1) limit) text

/-- Reads a value that may nest as deep as its text is long. -/
def readAny (text : List Char) : Except Problem Json := readNested (text.length + 1) text

theorem parse_eq_readNested (text : List Char) : parse text = readNested depthLimit text := rfl

theorem readNested_chars {v : Json} (hv : v.Proper) {limit : Nat} (h : v.depth < limit) :
    readNested limit v.chars = .ok v.readBack := by
  have hends : Ends [] := by simp [Ends]
  obtain ⟨next, hnext⟩ := readValue_chars v hv (v.chars.length + 1) limit (Nat.le_succ _) h hends 0
  rw [List.append_nil] at hnext
  rw [readNested, readWhole, Cursor.start, hnext]
  rfl

theorem readNested_refuses {v : Json} (hv : v.Proper) {limit : Nat} (hlimit : 0 < limit)
    (h : limit ≤ v.depth) : ∃ p, readNested limit v.chars = .error p := by
  obtain ⟨p, hp⟩ := readValue_tooDeep v hv (v.chars.length + 1) limit [] (Nat.le_succ _)
    hlimit h 0
  rw [List.append_nil] at hp
  refine ⟨p, ?_⟩
  rw [readNested, readWhole, Cursor.start, hp]
  rfl

theorem readAny_chars {v : Json} (hv : v.Proper) : readAny v.chars = .ok v.readBack :=
  readNested_chars hv (Nat.lt_succ_of_le v.depth_le_length_chars)

end AgentGateway.Json
