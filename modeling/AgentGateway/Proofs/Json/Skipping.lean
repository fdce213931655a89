import AgentGateway.Proofs.Json.Values

/-!
# Values are passed over as they were written

Passing over the text of a value ends behind it (`skipValue_chars`), whatever follows. The fuel is
two units for each character: a value uses at most one for each of its tokens and one for going on
behind it.
-/

namespace AgentGateway.Json

/-- A value has been passed over inside the frames, with more than some fuel left. -/
def Passes (r : Except Problem Cursor) (fuel : Nat) (frames : List Frame) (rest : List Char) :
    Prop :=
  ∃ left next, fuel < left ∧ r = skipAfter left frames true ⟨rest, next⟩

theorem skipIn_word {c : Char} {letters : List Char}
    (h : (c, letters) ∈ [('n', ['u', 'l', 'l']), ('t', ['r', 'u', 'e']),
      ('f', ['a', 'l', 's', 'e'])]) (fuel : Nat) (frames : List Frame) (rest : List Char)
    (offset : Nat) :
    ∃ next, skipIn (fuel + 1) frames ⟨c :: (letters ++ rest), offset⟩ =
      skipAfter fuel frames true ⟨rest, next⟩ := by
  have hword := fun offset => Cursor.word_append letters rest offset
  refine ⟨offset + c.utf8Size + letters.length, ?_⟩
  simp only [List.mem_cons, List.not_mem_nil, or_false, Prod.mk.injEq] at h
  obtain ⟨rfl, rfl⟩ | ⟨rfl, rfl⟩ | ⟨rfl, rfl⟩ := h
  all_goals
    rw [skipIn, Cursor.skipBlank_cons rfl]
    simp only [Cursor.advance, Char.reduceEq, if_true, if_false, hword]
    rfl

theorem skipIn_string (s : String) (fuel : Nat) (frames : List Frame) (rest : List Char)
    (offset : Nat) :
    ∃ next, skipIn (fuel + 1) frames ⟨quote s ++ rest, offset⟩ =
      skipAfter fuel frames true ⟨rest, next⟩ := by
  obtain ⟨next, hnext⟩ := skipString_flatMap s.toList rest (offset + 1)
  refine ⟨next, ?_⟩
  have hdigit : isDigit '"' = false := rfl
  rw [quote_append, skipIn, Cursor.skipBlank_cons rfl]
  simp only [Char.reduceEq, if_true, if_false, hdigit, Bool.false_eq_true, hnext]
  rfl

theorem skipIn_number {n : Number} (hn : n.Valid) (fuel : Nat) (frames : List Frame)
    {rest : List Char} (hrest : Ends rest) (offset : Nat) :
    ∃ next, skipIn (fuel + 1) frames ⟨n.chars ++ rest, offset⟩ =
      skipAfter fuel frames true ⟨rest, next⟩ := by
  obtain ⟨negative, d, tail, hd, htext, -, hskip⟩ := number_cases hn hrest
  rw [htext]
  cases negative with
  | true =>
      obtain ⟨next, hnext⟩ := hskip (offset + ('-' : Char).utf8Size)
      refine ⟨next, ?_⟩
      simp only [if_true, List.singleton_append]
      rw [skipIn, Cursor.skipBlank_cons rfl]
      simp only [Cursor.advance, Char.reduceEq, if_true, if_false, hnext]
      rfl
  | false =>
      obtain ⟨next, hnext⟩ := hskip offset
      refine ⟨next, ?_⟩
      simp only [Bool.false_eq_true, if_false, List.nil_append]
      rw [skipIn, Cursor.skipBlank_cons (Opens.of_isDigit hd).blank]
      have hnull := ne_of_isDigit hd (d := 'n') rfl
      have ht := ne_of_isDigit hd (d := 't') rfl
      have hf := ne_of_isDigit hd (d := 'f') rfl
      have hminus := ne_of_isDigit hd (d := '-') rfl
      simp only [hnull, ht, hf, hminus, hd, if_true, if_false, hnext]
      rfl

/-! ## Lists and objects -/

theorem skipAfter_list_close (fuel : Nat) (frames : List Frame) (item : Bool) (rest : List Char)
    (offset : Nat) :
    skipAfter (fuel + 1) (.list :: frames) item ⟨']' :: rest, offset⟩ =
      skipAfter fuel frames true ⟨rest, offset + 1⟩ := by
  rw [skipAfter, Cursor.skipBlank_cons rfl]
  simp [Cursor.advance]
  rfl

theorem skipAfter_object_close (fuel : Nat) (frames : List Frame) (item : Bool)
    (rest : List Char) (offset : Nat) :
    skipAfter (fuel + 1) (.object :: frames) item ⟨'\x7d' :: rest, offset⟩ =
      skipAfter fuel frames true ⟨rest, offset + 1⟩ := by
  rw [skipAfter, Cursor.skipBlank_cons rfl]
  simp [Cursor.advance]
  rfl

theorem skipAfter_item (first : Bool) (fuel : Nat) (frames : List Frame) {c : Char}
    (hc : Opens c) (tail : List Char) (offset : Nat) :
    ∃ next, skipAfter (fuel + 1) (.list :: frames) (!first)
        ⟨(if first then [] else [',']) ++ c :: tail, offset⟩ =
      skipIn fuel (.list :: frames) ⟨c :: tail, next⟩ := by
  cases first with
  | true =>
      refine ⟨offset, ?_⟩
      simp only [if_true, List.nil_append]
      rw [skipAfter, Cursor.skipBlank_cons hc.blank]
      simp [hc.bracket]
  | false =>
      refine ⟨offset + 1, ?_⟩
      simp only [Bool.false_eq_true, if_false, List.singleton_append]
      rw [skipAfter, Cursor.skipBlank_cons rfl]
      simp [Cursor.advance]
      rfl

theorem skipKey_quote (key : String) (tail : List Char) (offset : Nat) :
    ∃ next, skipKey ⟨quote key ++ ':' :: tail, offset⟩ = .ok ⟨tail, next⟩ := by
  obtain ⟨next, hnext⟩ := skipString_flatMap key.toList (':' :: tail) (offset + 1)
  refine ⟨next + 1, ?_⟩
  rw [quote_append, skipKey, Cursor.skipBlank_cons rfl]
  simp only [hnext, ok_bind]
  rw [Cursor.skipBlank_cons rfl]
  rfl

theorem skipAfter_member (first : Bool) (fuel : Nat) (frames : List Frame) (key : String)
    (tail : List Char) (offset : Nat) :
    ∃ next, skipAfter (fuel + 1) (.object :: frames) (!first)
        ⟨(if first then [] else [',']) ++ (quote key ++ ':' :: tail), offset⟩ =
      skipIn fuel (.object :: frames) ⟨tail, next⟩ := by
  cases first with
  | true =>
      obtain ⟨next, hnext⟩ := skipKey_quote key tail offset
      refine ⟨next, ?_⟩
      simp only [if_true, List.nil_append]
      rw [quote_append] at hnext ⊢
      rw [skipAfter, Cursor.skipBlank_cons rfl]
      simp [hnext, ok_bind]
  | false =>
      obtain ⟨next, hnext⟩ := skipKey_quote key tail (offset + (',' : Char).utf8Size)
      refine ⟨next, ?_⟩
      simp only [Bool.false_eq_true, if_false, List.singleton_append]
      rw [skipAfter, Cursor.skipBlank_cons rfl]
      simp [Cursor.advance, hnext, ok_bind]

/-! ## Values -/

/-- Behind a value inside some frames, what is left over is enough for what is needed there. -/
theorem Passes.trans {r : Except Problem Cursor} {need fuel fuel' : Nat}
    {inner outer : List Frame} {rest rest' : List Char} (h : Passes r (need + fuel') inner rest)
    (hfuel : fuel ≤ fuel')
    (hnext : ∀ more offset,
      Passes (skipAfter (need + 1 + more) inner true ⟨rest, offset⟩) more outer rest') :
    Passes r fuel outer rest' := by
  obtain ⟨left, next, hleft, rfl⟩ := h
  obtain ⟨more, rfl⟩ : ∃ more, left = need + 1 + more := ⟨left - (need + 1), by omega⟩
  obtain ⟨last, stop, hlast, hstop⟩ := hnext more next
  exact ⟨last, stop, by omega, hstop⟩

/-- A value that holds no others takes one unit, and its text has a character at least. -/
theorem Passes.of_scalar {text rest : List Char} (hne : text ≠ []) {frames : List Frame}
    {offset : Nat} (fuel : Nat)
    (h : ∀ fuel, ∃ next, skipIn (fuel + 1) frames ⟨text ++ rest, offset⟩ =
      skipAfter fuel frames true ⟨rest, next⟩) :
    Passes (skipIn (2 * text.length + fuel) frames ⟨text ++ rest, offset⟩) fuel frames rest := by
  have hlen : 0 < text.length := List.length_pos_of_ne_nil hne
  obtain ⟨next, hnext⟩ := h (2 * text.length - 1 + fuel)
  refine ⟨2 * text.length - 1 + fuel, next, by omega, ?_⟩
  rw [← hnext]
  congr 1
  omega

theorem skipIn_list (fuel : Nat) (frames : List Frame) (text : List Char) (offset : Nat) :
    skipIn (fuel + 1) frames ⟨'[' :: text, offset⟩ =
      skipAfter fuel (.list :: frames) false ⟨text, offset + 1⟩ := by
  rw [skipIn, Cursor.skipBlank_cons rfl]
  rfl

theorem skipIn_object (fuel : Nat) (frames : List Frame) (text : List Char) (offset : Nat) :
    skipIn (fuel + 1) frames ⟨'\x7b' :: text, offset⟩ =
      skipAfter fuel (.object :: frames) false ⟨text, offset + 1⟩ := by
  rw [skipIn, Cursor.skipBlank_cons rfl]
  rfl

mutual

theorem skipIn_chars : ∀ (v : Json), v.Proper → ∀ {rest : List Char}, Ends rest →
    ∀ (fuel : Nat) (frames : List Frame) (offset : Nat),
    Passes (skipIn (2 * v.chars.length + fuel) frames ⟨v.chars ++ rest, offset⟩) fuel frames rest
  | .null, _, rest, _, fuel, frames, offset =>
      .of_scalar (by simp [chars]) fuel fun fuel =>
        skipIn_word (c := 'n') (by simp) fuel frames rest offset
  | .bool true, _, rest, _, fuel, frames, offset =>
      .of_scalar (by simp [chars]) fuel fun fuel =>
        skipIn_word (c := 't') (by simp) fuel frames rest offset
  | .bool false, _, rest, _, fuel, frames, offset =>
      .of_scalar (by simp [chars]) fuel fun fuel =>
        skipIn_word (c := 'f') (by simp) fuel frames rest offset
  | .number n, hv, rest, hrest, fuel, frames, offset =>
      .of_scalar (chars_ne_nil (v := .number n) hv) fuel fun fuel =>
        skipIn_number hv fuel frames hrest offset
  | .string s, _, rest, _, fuel, frames, offset =>
      .of_scalar (by simp [chars, quote]) fuel fun fuel => skipIn_string s fuel frames rest offset
  | .array items, hv, rest, _, fuel, frames, offset => by
      have hitems := skipAfter_items items hv true rest (fuel + 1) frames (offset + 1)
      rw [chars, List.length_append, List.length_cons, List.length_singleton,
        show 2 * ((charsItems true items).length + 1 + 1) + fuel =
          2 * (charsItems true items).length + 2 + (fuel + 1) + 1 by omega,
        List.append_assoc, List.cons_append, List.singleton_append, skipIn_list]
      obtain ⟨left, next, hleft, hnext⟩ := hitems
      exact ⟨left, next, by omega, hnext⟩
  | .object members, hv, rest, _, fuel, frames, offset => by
      have hmembers := skipAfter_members members hv.2 true rest (fuel + 1) frames (offset + 1)
      rw [chars, List.length_append, List.length_cons, List.length_singleton,
        show 2 * ((charsMembers true members).length + 1 + 1) + fuel =
          2 * (charsMembers true members).length + 2 + (fuel + 1) + 1 by omega,
        List.append_assoc, List.cons_append, List.singleton_append, skipIn_object]
      obtain ⟨left, next, hleft, hnext⟩ := hmembers
      exact ⟨left, next, by omega, hnext⟩

theorem skipAfter_items : ∀ (items : List Json), ProperItems items →
    ∀ (first : Bool) (rest : List Char) (fuel : Nat) (frames : List Frame) (offset : Nat),
    Passes (skipAfter (2 * (charsItems first items).length + 2 + fuel) (.list :: frames) (!first)
      ⟨charsItems first items ++ ']' :: rest, offset⟩) fuel frames rest
  | [], _, first, rest, fuel, frames, offset => by
      rw [charsItems, List.length_nil, List.nil_append,
        show 2 * 0 + 2 + fuel = fuel + 1 + 1 by omega, skipAfter_list_close]
      exact ⟨fuel + 1, _, by omega, rfl⟩
  | v :: items, hv, first, rest, fuel, frames, offset => by
      obtain ⟨hhead, htail⟩ := hv
      obtain ⟨c, tail, hchars, hopens⟩ := exists_cons_chars hhead
      -- Behind the value there is enough left for the other items and the bracket.
      obtain ⟨extra, hextra⟩ : ∃ extra,
          2 * (charsItems first (v :: items)).length + 2 + fuel =
            2 * v.chars.length + (2 * (charsItems false items).length + 1 + (fuel + extra)) + 1 :=
        ⟨2 * (if first then ([] : List Char) else [',']).length, by
          simp only [charsItems, List.length_append]
          omega⟩
      obtain ⟨start, hstart⟩ := skipAfter_item first
        (2 * v.chars.length + (2 * (charsItems false items).length + 1 + (fuel + extra))) frames
        hopens (tail ++ (charsItems false items ++ ']' :: rest)) offset
      rw [← List.cons_append, ← hchars] at hstart
      have hitem := skipIn_chars v hhead (ends_charsItems items rest)
        (2 * (charsItems false items).length + 1 + (fuel + extra)) (.list :: frames) start
      rw [hextra, charsItems, List.append_assoc, List.append_assoc, hstart]
      exact hitem.trans (Nat.le_add_right fuel extra) fun more next =>
        skipAfter_items items htail false rest more frames next

theorem skipAfter_members : ∀ (members : List (String × Json)), ProperMembers members →
    ∀ (first : Bool) (rest : List Char) (fuel : Nat) (frames : List Frame) (offset : Nat),
    Passes (skipAfter (2 * (charsMembers first members).length + 2 + fuel) (.object :: frames)
      (!first) ⟨charsMembers first members ++ '\x7d' :: rest, offset⟩) fuel frames rest
  | [], _, first, rest, fuel, frames, offset => by
      rw [charsMembers, List.length_nil, List.nil_append,
        show 2 * 0 + 2 + fuel = fuel + 1 + 1 by omega, skipAfter_object_close]
      exact ⟨fuel + 1, _, by omega, rfl⟩
  | (k, v) :: members, hv, first, rest, fuel, frames, offset => by
      obtain ⟨hhead, htail⟩ := hv
      obtain ⟨extra, hextra⟩ : ∃ extra,
          2 * (charsMembers first ((k, v) :: members)).length + 2 + fuel =
            2 * v.chars.length +
              (2 * (charsMembers false members).length + 1 + (fuel + extra)) + 1 :=
        ⟨2 * ((if first then ([] : List Char) else [',']).length + (quote k).length + 1), by
          simp only [charsMembers, List.length_append, List.length_cons]
          omega⟩
      obtain ⟨start, hstart⟩ := skipAfter_member first
        (2 * v.chars.length + (2 * (charsMembers false members).length + 1 + (fuel + extra)))
        frames k (v.chars ++ (charsMembers false members ++ '\x7d' :: rest)) offset
      have hmember := skipIn_chars v hhead (ends_charsMembers members rest)
        (2 * (charsMembers false members).length + 1 + (fuel + extra)) (.object :: frames) start
      rw [hextra, charsMembers]
      simp only [List.append_assoc, List.cons_append]
      rw [hstart]
      exact hmember.trans (Nat.le_add_right fuel extra) fun more next =>
        skipAfter_members members htail false rest more frames next

end

theorem skipValue_chars {v : Json} (hv : v.Proper) {rest : List Char} (hrest : Ends rest)
    (offset : Nat) : ∃ next, skipValue ⟨v.chars ++ rest, offset⟩ = .ok ⟨rest, next⟩ := by
  obtain ⟨left, next, hleft, hnext⟩ := skipIn_chars v hv hrest (2 * rest.length + 2) [] offset
  refine ⟨next, ?_⟩
  rw [skipValue, List.length_append, show 2 * (v.chars.length + rest.length) + 2 =
    2 * v.chars.length + (2 * rest.length + 2) by omega, hnext]
  obtain ⟨left, rfl⟩ := Nat.exists_eq_succ_of_ne_zero (by omega : left ≠ 0)
  rw [skipAfter]

end AgentGateway.Json
