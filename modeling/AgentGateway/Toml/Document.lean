import AgentGateway.Toml.Scalar

/-!
# The grammar of the configuration format

A document is a sequence of lines: a header in brackets, a key with a value, a comment, or
nothing. Values nest at most 79 deep, and a key has at most 79 parts. Reading gives the sections
of the document; whether the sections fit together is decided afterwards.
-/

namespace AgentGateway.Toml

structure Assignment where
  path : List Key
  place : Option Nat
  value : Toml
  deriving Inhabited

/-- A header and the lines below it. The lines above the first header have the empty path. -/
structure Section where
  path : List Key
  isArray : Bool
  place : Nat
  lines : List Assignment
  deriving Inhabited

/-- The first number of parts or levels that is refused. -/
def nestingLimit : Nat := 80

def isBareKey (c : Char) : Bool :=
  isDigit c || ('a' ≤ c && c ≤ 'z') || ('A' ≤ c && c ≤ 'Z') || c == '_' || c == '-'

def keyPart? (cs : List Char) : Option (String × List Char) :=
  match cs with
  | '"' :: rest =>
    (basicString (rest.length + 1) [] rest).map fun (s, cs) => (String.ofList s, cs)
  | '\x27' :: rest => (literalString [] rest).map fun (s, cs) => (String.ofList s, cs)
  | cs =>
    let name := cs.takeWhile isBareKey
    if name.isEmpty then none else some (String.ofList name, cs.drop name.length)

/-- Reads a key with the blanks around its parts. `total` is the length of the whole text. -/
def key? (total fuel : Nat) (cs : List Char) : Option (List Key × List Char) :=
  match fuel with
  | 0 => none
  | fuel + 1 => do
    let cs := skipSpace cs
    let place := total - cs.length
    let (name, cs) ← keyPart? cs
    let cs := skipSpace cs
    match cs with
    | '.' :: cs =>
      let (more, cs) ← key? total fuel cs
      return (⟨name, place⟩ :: more, cs)
    | cs => return ([⟨name, place⟩], cs)

/-- Reads a key of an allowed number of parts. -/
def dottedKey? (total : Nat) (cs : List Char) : Option (List Key × List Char) := do
  let (path, cs) ← key? total (cs.length + 1) cs
  if path.length < nestingLimit then return (path, cs) else none

def skipComment : List Char → List Char
  | '#' :: cs => cs.dropWhile isPlain
  | cs => cs

/-- Passes over blanks, comments and ends of line. -/
def skipLayout (fuel : Nat) (cs : List Char) : List Char :=
  match fuel with
  | 0 => cs
  | fuel + 1 =>
    let cs := skipComment (skipSpace cs)
    match newline? cs with
    | some cs => skipLayout fuel cs
    | none => cs

/-! ## Tables that keys with dots open -/

/-- Follows a path of keys with dots through tables that such keys opened, and changes the entries
of the last one. Tables that are missing are opened. -/
def openDotted (origin : Origin) (change : Bool → Entries → Option Entries) :
    List Key → Bool → Entries → Option Entries
  | [], opened, entries => change opened entries
  | key :: path, _, entries =>
    match entries.find? key.name with
    | none =>
      (openDotted origin change path true []).map fun inner =>
        entries.set key none (.table origin inner)
    | some (_, place, .table found inner) =>
      if found = .dotted ∨ (found = .implied ∧ origin = .dotted) then
        (openDotted origin change path (found == .dotted) inner).map fun inner =>
          entries.set key place (.table found inner)
      else none
    | some (_, place, .tables items) =>
      (changeLast (openDotted origin change path false) items).map fun items =>
        entries.set key place (.tables items)
    | some _ => none

/-- Adds an assignment to the entries of a table. The last table on the way must have been opened
by a key with dots exactly if there is a way, and the name must be free. -/
def Entries.assign (entries : Entries) (a : Assignment) : Option Entries :=
  match a.path.getLast? with
  | none => none
  | some key =>
    let path := a.path.dropLast
    let add (opened : Bool) (entries : Entries) : Option Entries :=
      if opened = path.isEmpty ∨ (entries.find? key.name).isSome then none
      else some (entries ++ [(key, a.place, a.value)])
    openDotted .dotted add path false entries

def Entries.ofAssignments (lines : List Assignment) : Option Entries :=
  lines.foldlM Entries.assign []

/-! ## Values -/

mutual

/-- Reads a value at most `depth` levels deep. -/
def value? (total fuel depth : Nat) (cs : List Char) : Option (Toml × List Char) :=
  match fuel with
  | 0 => none
  | fuel + 1 =>
    match cs with
    | '"' :: _ | '\x27' :: _ => (string? cs).map fun (s, cs) => (.string s, cs)
    | '[' :: rest =>
      if depth ≤ 1 then none
      else (items? total fuel (depth - 1) [] rest).map fun (items, cs) => (.array items, cs)
    | '\x7b' :: rest =>
      if depth ≤ 1 then none
      else do
        let (lines, cs) ← pairs? total fuel (depth - 1) [] rest
        return (.table .inline (← Entries.ofAssignments lines), cs)
    | 't' :: 'r' :: 'u' :: 'e' :: cs => some (.boolean true, cs)
    | 'f' :: 'a' :: 'l' :: 's' :: 'e' :: cs => some (.boolean false, cs)
    | cs =>
      if looksLikeMoment cs then (moment? cs).map fun cs => (.moment, cs) else number? cs

/-- Reads the rest of an array; the items so far are held in reverse. -/
def items? (total fuel depth : Nat) (done : List (Option Nat × Toml)) (cs : List Char) :
    Option (List (Option Nat × Toml) × List Char) :=
  match fuel with
  | 0 => none
  | fuel + 1 =>
    let cs := skipLayout (cs.length + 1) cs
    match cs with
    | ']' :: cs => some (done.reverse, cs)
    | cs => do
      let place := total - cs.length
      let (v, cs) ← value? total fuel depth cs
      let done := (some place, v) :: done
      match skipLayout (cs.length + 1) cs with
      | ',' :: cs => items? total fuel depth done cs
      | ']' :: cs => return (done.reverse, cs)
      | _ => none

/-- Reads the rest of a table in braces; the assignments so far are held in reverse. -/
def pairs? (total fuel depth : Nat) (done : List Assignment) (cs : List Char) :
    Option (List Assignment × List Char) :=
  match fuel with
  | 0 => none
  | fuel + 1 =>
    match skipSpace cs, done with
    | '\x7d' :: cs, [] => some ([], cs)
    | cs, done => do
      let (a, cs) ← assignment? total fuel depth cs
      let done := a :: done
      match skipSpace cs with
      | ',' :: cs => pairs? total fuel depth done cs
      | '\x7d' :: cs => return (done.reverse, cs)
      | _ => none

def assignment? (total fuel depth : Nat) (cs : List Char) : Option (Assignment × List Char) :=
  match fuel with
  | 0 => none
  | fuel + 1 => do
    let (path, cs) ← dottedKey? total cs
    match cs with
    | '=' :: cs =>
      let cs := skipSpace cs
      let place := total - cs.length
      let (v, cs) ← value? total fuel depth cs
      return (⟨path, some place, v⟩, cs)
    | _ => none

end

/-! ## Lines -/

/-- Passes over the end of a line that holds nothing more but a comment. -/
def lineEnd? (cs : List Char) : Option (List Char) :=
  let cs := skipComment (skipSpace cs)
  if cs.isEmpty then some cs else newline? cs

/-- Reads a header: its path and whether it adds to an array. -/
def header? (total : Nat) (cs : List Char) : Option (List Key × Bool × List Char) :=
  match cs with
  | '[' :: '[' :: cs => do
    let (path, cs) ← dottedKey? total cs
    match cs with
    | ']' :: ']' :: cs => return (path, true, cs)
    | _ => none
  | '[' :: cs => do
    let (path, cs) ← dottedKey? total cs
    match cs with
    | ']' :: cs => return (path, false, cs)
    | _ => none
  | _ => none

def Section.push (s : Section) (a : Assignment) : Section := { s with lines := s.lines ++ [a] }

/-- Reads lines into the current section; finished sections are held in reverse. -/
def sections? (total fuel : Nat) (done : List Section) (current : Section) (cs : List Char) :
    Option (List Section) :=
  match fuel with
  | 0 => none
  | fuel + 1 =>
    match skipSpace cs with
    | [] => some (current :: done).reverse
    | '[' :: rest => do
      let place := total - (rest.length + 1)
      let (path, isArray, cs) ← header? total ('[' :: rest)
      let cs ← lineEnd? cs
      sections? total fuel (current :: done) ⟨path, isArray, place, []⟩ cs
    | c :: rest =>
      if c = '#' ∨ c = '\n' ∨ c = '\r' then do
        sections? total fuel done current (← lineEnd? (c :: rest))
      else do
        let (a, cs) ← assignment? total (2 * (rest.length + 2)) nestingLimit (c :: rest)
        sections? total fuel done (current.push a) (← lineEnd? cs)

/-- The sections of a document. A mark of byte order at the very start is passed over. -/
def document? (text : List Char) : Option (List Section) :=
  let body := match text with
    | c :: rest => if c.toNat = 0xFEFF then rest else text
    | [] => []
  sections? text.length (text.length + 1) [] ⟨[], false, 0, []⟩ body

end AgentGateway.Toml
