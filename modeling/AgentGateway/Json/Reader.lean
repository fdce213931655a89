import AgentGateway.Json.Cursor
import AgentGateway.Power

/-!
# Reading JSON

Values are read in one pass, so the first problem in the order of the text is the one reported.
Three ways of reading share the scanners: a value of any kind, a value of a wanted kind, and a
value that is only passed over. Lists and objects nest at most 127 deep in a value that is kept.

Fuel bounds the recursion; each level uses at most one unit for each character that it reads, so
the length of the text is always enough.
-/

namespace AgentGateway.Json

def depthLimit : Nat := 128

/-! ## Lists and objects -/

/-- Looks for another item of a list: `none` at the closing bracket, which stays unread. -/
def nextItem (first : Bool) (c : Cursor) : Except Problem (Option Cursor) :=
  let c := c.skipBlank
  match c.rest with
  | [] => .error (c.blameNext .endInList)
  | ch :: _ =>
    if ch = ']' then .ok none
    else if first then .ok (some c)
    else if ch = ',' then
      let c := c.advance.skipBlank
      match c.rest with
      | [] => .error (c.blameNext .endInValue)
      | ']' :: _ => .error (c.blameNext .trailingComma)
      | _ => .ok (some c)
    else .error (c.blameNext .expectedListEnd)

def endList (c : Cursor) : Except Problem Cursor :=
  let c := c.skipBlank
  match c.rest with
  | [] => .error (c.blameNext .endInList)
  | ']' :: _ => .ok c.advance
  | ',' :: _ =>
    let c := c.advance.skipBlank
    match c.rest with
    | ']' :: _ => .error (c.blameNext .trailingComma)
    | _ => .error (c.blameNext .trailingCharacters)
  | _ => .error (c.blameNext .trailingCharacters)

/-- Looks for another key of an object and reads it: `none` at the closing brace, which stays
unread. -/
def nextKey (first : Bool) (c : Cursor) : Except Problem (Option (String × Cursor)) := do
  let c := c.skipBlank
  let c ← match c.rest with
    | [] => .error (c.blameNext .endInObject)
    | ch :: _ =>
      if ch = '}' then return none
      else if first then pure c
      else if ch = ',' then pure c.advance.skipBlank
      else .error (c.blameNext .expectedObjectEnd)
  match c.rest with
  | [] => .error (c.blameNext .endInValue)
  | '"' :: rest =>
    let (key, c) ← readString rest (c.offset + 1) []
    return some (String.ofList key, c)
  | '}' :: _ => .error (c.blameNext .trailingComma)
  | _ => .error (c.blameNext .keyMustBeString)

def readColon (c : Cursor) : Except Problem Cursor :=
  let c := c.skipBlank
  match c.rest with
  | [] => .error (c.blameNext .endInObject)
  | ':' :: _ => .ok c.advance
  | _ => .error (c.blameNext .expectedColon)

def endObject (c : Cursor) : Except Problem Cursor :=
  let c := c.skipBlank
  match c.rest with
  | [] => .error (c.blameNext .endInObject)
  | '}' :: _ => .ok c.advance
  | ',' :: _ => .error (c.blameNext .trailingComma)
  | _ => .error (c.blameNext .trailingCharacters)

/-- Where an object or list is left when what it holds is refused as a whole: blanks are passed
over, and the closing character if it comes next. -/
def leave (close : Char) (c : Cursor) : Cursor :=
  let c := c.skipBlank
  if c.rest.head? = some close then c.advance else c

/-! ## Values of any kind -/

mutual

/-- Reads a value; `depth` more levels of nesting are refused from one on. -/
def readValue (fuel depth : Nat) (c : Cursor) : Except Problem (Json × Cursor) :=
  match fuel with
  | 0 => .error (c.blame .tooDeep)
  | fuel + 1 => do
    let c := c.skipBlank
    match c.rest with
    | [] => .error (c.blameNext .endInValue)
    | ch :: rest =>
      if ch = 'n' then
        let c ← c.advance.word ['u', 'l', 'l']
        return (.null, c)
      else if ch = 't' then
        let c ← c.advance.word ['r', 'u', 'e']
        return (.bool true, c)
      else if ch = 'f' then
        let c ← c.advance.word ['a', 'l', 's', 'e']
        return (.bool false, c)
      else if ch = '-' then
        let (n, c) ← readNumber true c.advance
        return (.number n, c)
      else if isDigit ch then
        let (n, c) ← readNumber false c
        return (.number n, c)
      else if ch = '"' then
        let (s, c) ← readString rest (c.offset + 1) []
        return (.string (String.ofList s), c)
      else if ch = '[' then
        if depth ≤ 1 then .error (c.blameNext .tooDeep)
        else
          let (items, c) ← readItems fuel (depth - 1) true [] c.advance
          let c ← endList c
          return (.array items, c)
      else if ch = '{' then
        if depth ≤ 1 then .error (c.blameNext .tooDeep)
        else
          let (members, c) ← readMembers fuel (depth - 1) true [] c.advance
          let c ← endObject c
          return (.object members, c)
      else .error (c.blameNext .expectedValue)

/-- Reads the items of a list up to its closing bracket; those so far are held in reverse. -/
def readItems (fuel depth : Nat) (first : Bool) (done : List Json) (c : Cursor) :
    Except Problem (List Json × Cursor) :=
  match fuel with
  | 0 => .error (c.blame .tooDeep)
  | fuel + 1 => do
    match ← nextItem first c with
    | none => return (done.reverse, c)
    | some c =>
      let (item, c) ← readValue fuel depth c
      readItems fuel depth false (item :: done) c

def readMembers (fuel depth : Nat) (first : Bool) (done : Members) (c : Cursor) :
    Except Problem (Members × Cursor) :=
  match fuel with
  | 0 => .error (c.blame .tooDeep)
  | fuel + 1 => do
    match ← nextKey first c with
    | none => return (done, c)
    | some (key, c) =>
      let c ← readColon c
      let (value, c) ← readValue fuel depth c
      readMembers fuel depth false (done.insert key value) c

end

/-! ## Values that are passed over -/

def skipDigits (c : Cursor) : Cursor := c.drop (c.rest.takeWhile isDigit).length

/-- Passes over an exponent from its letter on. -/
def skipExponent (c : Cursor) : Except Problem Cursor :=
  let c := c.advance
  let c := match c.rest with
    | '+' :: _ | '-' :: _ => c.advance
    | _ => c
  match c.rest with
  | [] => .error (c.blame .invalidNumber)
  | ch :: _ =>
    if isDigit ch then .ok (skipDigits c) else .error ⟨.invalidNumber, c.offset + 1⟩

/-- Passes over what comes behind the digits before the point. -/
def skipBehindWhole (c : Cursor) : Except Problem Cursor :=
  match c.rest with
  | '.' :: _ =>
    let c := c.advance
    if c.rest.head?.any isDigit then
      let c := skipDigits c
      match c.rest with
      | 'e' :: _ | 'E' :: _ => skipExponent c
      | _ => .ok c
    else .error (c.blameNext .invalidNumber)
  | 'e' :: _ | 'E' :: _ => skipExponent c
  | _ => .ok c

/-- Passes over a number whose sign, if any, has been read. -/
def skipNumber (c : Cursor) : Except Problem Cursor :=
  match c.rest with
  | [] => .error (c.blame .invalidNumber)
  | ch :: rest =>
    if ch = '0' then
      if rest.head?.any isDigit then .error ⟨.invalidNumber, c.offset + 2⟩
      else skipBehindWhole c.advance
    else if isDigit ch then skipBehindWhole (skipDigits c)
    else .error ⟨.invalidNumber, c.offset + 1⟩

/-- An enclosing list or object of a value that is passed over. -/
inductive Frame where
  | list
  | object
  deriving DecidableEq, Repr

def skipKey (c : Cursor) : Except Problem Cursor := do
  let c := c.skipBlank
  match c.rest with
  | [] => .error (c.blameNext .endInObject)
  | '"' :: rest =>
    let c := (← skipString rest (c.offset + 1)).skipBlank
    match c.rest with
    | [] => .error (c.blameNext .endInObject)
    | ':' :: _ => .ok c.advance
    | _ => .error (c.blameNext .expectedColon)
  | _ => .error (c.blameNext .keyMustBeString)

mutual

/-- Passes over a value inside the given frames, innermost first, and then to their end. -/
def skipIn (fuel : Nat) (frames : List Frame) (c : Cursor) : Except Problem Cursor :=
  match fuel with
  | 0 => .error (c.blame .tooDeep)
  | fuel + 1 => do
    let c := c.skipBlank
    match c.rest with
    | [] => .error (c.blameNext .endInValue)
    | ch :: rest =>
      if ch = 'n' then skipAfter fuel frames true (← c.advance.word ['u', 'l', 'l'])
      else if ch = 't' then skipAfter fuel frames true (← c.advance.word ['r', 'u', 'e'])
      else if ch = 'f' then skipAfter fuel frames true (← c.advance.word ['a', 'l', 's', 'e'])
      else if ch = '-' then skipAfter fuel frames true (← skipNumber c.advance)
      else if isDigit ch then skipAfter fuel frames true (← skipNumber c)
      else if ch = '"' then skipAfter fuel frames true (← skipString rest (c.offset + 1))
      else if ch = '[' then skipAfter fuel (.list :: frames) false c.advance
      else if ch = '{' then skipAfter fuel (.object :: frames) false c.advance
      else .error (c.blameNext .expectedValue)

/-- Goes on behind a value, or behind an opening bracket when `item` is false. -/
def skipAfter (fuel : Nat) (frames : List Frame) (item : Bool) (c : Cursor) :
    Except Problem Cursor :=
  match fuel with
  | 0 => .error (c.blame .tooDeep)
  | fuel + 1 =>
    match frames with
    | [] => .ok c
    | frame :: outer => do
      let c := c.skipBlank
      let isList := frame == .list
      let next (c : Cursor) : Except Problem Cursor := do
        skipIn fuel frames (← if isList then pure c else skipKey c)
      match c.rest with
      | [] => .error (c.blameNext (if isList then .endInList else .endInObject))
      | ch :: _ =>
        if item ∧ ch = ',' then next c.advance
        else if (isList ∧ ch = ']') ∨ (!isList ∧ ch = '}') then
          skipAfter fuel outer true c.advance
        else if item then
          .error (c.blameNext (if isList then .expectedListEnd else .expectedObjectEnd))
        else next c

end

/-- Passes over a value of any kind and depth. -/
def skipValue (c : Cursor) : Except Problem Cursor := skipIn (2 * c.rest.length + 2) [] c

/-! ## Values of a wanted kind -/

def Number.found : Number → Found
  | .integer n => .integer n
  | .real x => .real x

/-- The problem with the next value when one of another kind was wanted. A scalar is read first,
so a fault inside it comes before the disappointment. -/
def mismatch (wanted : String) (c : Cursor) : Problem :=
  let because (found : Found) (c : Cursor) : Problem := c.blame (.invalidType found wanted)
  let settle {α : Type} (r : Except Problem α) (f : α → Problem) : Problem :=
    match r with
    | .ok a => f a
    | .error p => p
  match c.rest with
  | [] => c.blameNext .expectedValue
  | ch :: rest =>
    if ch = 'n' then settle (c.advance.word ['u', 'l', 'l']) (because .null)
    else if ch = 't' then settle (c.advance.word ['r', 'u', 'e']) (because (.bool true))
    else if ch = 'f' then settle (c.advance.word ['a', 'l', 's', 'e']) (because (.bool false))
    else if ch = '-' then
      settle (readNumber true c.advance) fun (n, c) => because n.found c
    else if isDigit ch then settle (readNumber false c) fun (n, c) => because n.found c
    else if ch = '"' then
      settle (readString rest (c.offset + 1) []) fun (s, c) =>
        because (.string (String.ofList s)) c
    else if ch = '[' then because .sequence c
    else if ch = '{' then because .map c
    else c.blameNext .expectedValue

def readText (c : Cursor) : Except Problem (String × Cursor) := do
  let c := c.skipBlank
  match c.rest with
  | [] => .error (c.blameNext .endInValue)
  | '"' :: rest =>
    let (s, c) ← readString rest (c.offset + 1) []
    return (String.ofList s, c)
  | _ => .error (mismatch "a string" c)

def readNumberAs {α : Type} (wanted : String) (convert : Number → Except Cause α) (c : Cursor) :
    Except Problem (α × Cursor) := do
  let c := c.skipBlank
  match c.rest with
  | [] => .error (c.blameNext .endInValue)
  | ch :: _ =>
    if ch = '-' ∨ isDigit ch then
      let (n, c) ← if ch = '-' then readNumber true c.advance else readNumber false c
      match convert n with
      | .ok a => return (a, c)
      | .error cause => .error (c.blame cause)
    else .error (mismatch wanted c)

def Number.toNat (wanted : String) (limit : Nat) : Number → Except Cause Nat
  | .integer n =>
    if 0 ≤ n ∧ n ≤ limit then .ok n.toNat else .error (.invalidValue (.integer n) wanted)
  | .real x => .error (.invalidType (.real x) wanted)

def Number.toBinary64 : Number → Binary64
  | .integer n => .ofInt n
  | .real x => x

def readUnsigned64 (c : Cursor) : Except Problem (Nat × Cursor) :=
  readNumberAs "u64" (Number.toNat "u64" maxWord64) c

def readUnsigned32 (c : Cursor) : Except Problem (Nat × Cursor) :=
  readNumberAs "u32" (Number.toNat "u32" maxWord32) c

def readReal (c : Cursor) : Except Problem (Binary64 × Cursor) :=
  readNumberAs "f64" (fun n => .ok n.toBinary64) c

def readOption {α : Type} (read : Cursor → Except Problem (α × Cursor)) (c : Cursor) :
    Except Problem (Option α × Cursor) := do
  let c := c.skipBlank
  match c.rest with
  | 'n' :: _ => return (none, ← c.advance.word ['u', 'l', 'l'])
  | _ =>
    let (a, c) ← read c
    return (some a, c)

/-- Reads the members of an object up to its closing brace, in the order of the text. `member`
gets the state so far, a key and the cursor behind the key, and reads the colon and the value. -/
def foldMembers {σ : Type} (member : σ → String → Cursor → Except Problem (σ × Cursor))
    (fuel : Nat) (first : Bool) (state : σ) (c : Cursor) : Except Problem (σ × Cursor) :=
  match fuel with
  | 0 => .error (c.blame .tooDeep)
  | fuel + 1 => do
    match ← nextKey first c with
    | none => return (state, c)
    | some (key, c) =>
      let (state, c) ← member state key c
      foldMembers member fuel false state c

/-- Reads a whole object: its members, then a conversion of what they gave, which may refuse it. -/
def readObject {σ α : Type} (member : σ → String → Cursor → Except Problem (σ × Cursor))
    (initial : σ) (finish : σ → Except Cause α) (c : Cursor) :
    Except Problem (α × Cursor) := do
  let c := c.advance
  let (state, c) ← foldMembers member (c.rest.length + 1) true initial c
  match finish state with
  | .ok a => return (a, ← endObject c)
  | .error cause => .error ((leave '}' c).blame cause)

/-- Reads the value behind a key into a field that must not have been filled before. -/
def readField {α : Type} (name : String) (filled : Option α)
    (read : Cursor → Except Problem (α × Cursor)) (c : Cursor) :
    Except Problem (Option α × Cursor) := do
  if filled.isSome then .error ((leave '}' c).blame (.duplicateField name))
  else
    let (a, c) ← read (← readColon c)
    return (some a, c)

/-- Passes over the value behind a key that means nothing here. -/
def skipField (c : Cursor) : Except Problem Cursor := do skipValue (← readColon c)

def readItem {α : Type} (first : Bool)
    (read : Cursor → Except Problem (α × Cursor)) (c : Cursor) :
    Except Problem (Option α × Cursor) := do
  match ← nextItem first c with
  | none => return (none, c)
  | some c =>
    let (a, c) ← read c
    return (some a, c)

def requireItem {α : Type} (index : Nat) (wanted : String) (item : Option α) (c : Cursor) :
    Except Problem α :=
  match item with
  | some a => .ok a
  | none => .error ((leave ']' c).blame (.invalidLength index wanted))

/-- Reads a record that may be written as an object or as the list of its fields. -/
def readStruct {σ α : Type} (wanted : String)
    (member : σ → String → Cursor → Except Problem (σ × Cursor)) (initial : σ)
    (finish : σ → Except Cause α) (items : Cursor → Except Problem (α × Cursor)) (c : Cursor) :
    Except Problem (α × Cursor) := do
  let c := c.skipBlank
  match c.rest with
  | [] => .error (c.blameNext .endInValue)
  | '\x7b' :: _ => readObject member initial finish c
  | '[' :: _ =>
    let (a, c) ← items c.advance
    return (a, ← endList c)
  | _ => .error (mismatch wanted c)

/-! ## Whole texts -/

def readEnd (c : Cursor) : Except Problem Unit :=
  let c := c.skipBlank
  if c.rest.isEmpty then .ok () else .error (c.blameNext .trailingCharacters)

def readWhole {α : Type} (read : Cursor → Except Problem (α × Cursor)) (text : List Char) :
    Except Problem α := do
  let (a, c) ← read (.start text)
  readEnd c
  return a

def parse (text : List Char) : Except Problem Json :=
  readWhole (readValue (text.length + 1) depthLimit) text

end AgentGateway.Json
