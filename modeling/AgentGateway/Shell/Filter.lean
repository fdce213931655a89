import AgentGateway.Shell.Format
import AgentGateway.Shell.Pattern
import AgentGateway.Text.Lines

/-!
# Text filters

What the usual filters make of bytes: counting, exchanging, choosing lines and parts of lines,
ordering, and searching. A last line without a newline counts as a line.
-/

namespace AgentGateway.Shell.Filter

def newline : UInt8 := 10

def lines (text : Bytes) : List Bytes :=
  let parts := Text.split (· == newline) text
  if (parts.getLast?.getD []).isEmpty then parts.dropLast else parts

def unlines (lines : List Bytes) : Bytes := (lines.map (· ++ [newline])).flatten

def isSpace (b : UInt8) : Bool := b == 32 || (9 ≤ b && b ≤ 13)

/-! ## Counting -/

structure Census where
  lines : Nat := 0
  words : Nat := 0
  bytes : Nat := 0
  inWord : Bool := false
  deriving DecidableEq, Repr, Inhabited

def Census.add (c : Census) (b : UInt8) : Census :=
  { lines := if b = newline then c.lines + 1 else c.lines
    words := if !isSpace b && !c.inWord then c.words + 1 else c.words
    bytes := c.bytes + 1
    inWord := !isSpace b }

def census (text : Bytes) : Census := text.foldl Census.add {}

/-! ## Exchanging -/

/-- What a set of bytes says, with escapes, and whether each byte was escaped; the fuel bounds its
length. -/
def plainSet : (fuel : Nat) → Bytes → List (UInt8 × Bool)
  | 0, _ | _, [] => []
  | fuel + 1, 92 :: text =>
    if text.isEmpty then [(92, true)]
    else
      let (b, rest) := escape text
      if b = 92 ∧ rest = text then (text.headD 92, true) :: plainSet fuel (text.drop 1)
      else (b, true) :: plainSet fuel rest
  | fuel + 1, b :: rest => (b, false) :: plainSet fuel rest

def allBytes (p : UInt8 → Bool) : Bytes := ((List.range 256).map Nat.toUInt8).filter p

def isUpper (b : UInt8) : Bool := 65 ≤ b && b ≤ 90

def isLower (b : UInt8) : Bool := 97 ≤ b && b ≤ 122

def namedClass? (name : String) : Option Bytes :=
  match name with
  | "alnum" => some (allBytes fun b => isDigitByte b || isUpper b || isLower b)
  | "alpha" => some (allBytes fun b => isUpper b || isLower b)
  | "digit" => some (allBytes isDigitByte)
  | "lower" => some (allBytes isLower)
  | "upper" => some (allBytes isUpper)
  | "space" => some (allBytes isSpace)
  | "blank" => some [9, 32]
  | "punct" => some (allBytes fun b =>
      33 ≤ b && b ≤ 126 && !(isDigitByte b || isUpper b || isLower b))
  | "print" => some (allBytes fun b => 32 ≤ b && b ≤ 126)
  | "graph" => some (allBytes fun b => 33 ≤ b && b ≤ 126)
  | "cntrl" => some (allBytes fun b => b ≤ 31 || b == 127)
  | _ => none

/-- The bytes of a set: ranges and named classes written out; the fuel bounds its parts. -/
def expandSet : (fuel : Nat) → List (UInt8 × Bool) → Bytes
  | 0, _ | _, [] => []
  | fuel + 1, (91, false) :: (58, false) :: rest =>
    let name := (rest.takeWhile fun b => b.1 != 58).map fun b => charOf b.1
    match namedClass? (String.ofList name), rest.drop name.length with
    | some members, (58, _) :: (93, _) :: rest => members ++ expandSet fuel rest
    | _, _ => 91 :: expandSet fuel ((58, false) :: rest)
  | fuel + 1, (a, _) :: (45, false) :: (b, _) :: rest =>
    allBytes (fun c => a ≤ c && c ≤ b) ++ expandSet fuel rest
  | fuel + 1, (b, _) :: rest => b :: expandSet fuel rest

def byteSet (text : Bytes) : Bytes :=
  expandSet (text.length + 1) (plainSet (text.length + 1) text)

/-- Leaves one of each run of equal bytes that belong to a set. -/
def squeeze (member : UInt8 → Bool) (text : Bytes) : Bytes :=
  (text.foldl (fun (out : Bytes) b =>
    if member b && out.head? == some b then out else b :: out) []).reverse

/-- A table that sends each byte of a set to the byte at its place in another; the last byte of
the other stands for all that are missing. -/
def exchangeTable (source target : Bytes) : Array UInt8 :=
  let targets := target ++ List.replicate (source.length - target.length) (target.getLast?.getD 0)
  (source.zip targets).foldl (fun (table : Array UInt8) (a, b) => table.set! a.toNat b)
    ((List.range 256).map Nat.toUInt8).toArray

structure Exchange where
  complement : Bool := false
  delete : Bool := false
  squeezes : Bool := false
  sets : List Bytes
  deriving Repr, Inhabited

def Exchange.apply (t : Exchange) (text : Bytes) : Bytes :=
  let first := byteSet (t.sets.headD [])
  let first := if t.complement then allBytes fun b => !first.contains b else first
  let flags : Array Bool := first.foldl (fun a b => a.set! b.toNat true) (Array.replicate 256 false)
  let member (b : UInt8) : Bool := flags.getD b.toNat false
  if t.delete then
    let kept := text.filter fun b => !member b
    match t.squeezes, t.sets[1]? with
    | true, some second =>
      let second := byteSet second
      squeeze second.contains kept
    | _, _ => kept
  else
    match t.sets[1]? with
    | none => if t.squeezes then squeeze member text else text
    | some second =>
      let target := byteSet second
      let table := exchangeTable first target
      let out := text.map fun b => table.getD b.toNat b
      if t.squeezes then squeeze target.contains out else out

/-! ## Choosing -/

def lastOf {α : Type} (count : Nat) (xs : List α) : List α := xs.drop (xs.length - count)

/-- A list of positions, as `2,4-6` or `3-` say it: first and last of each range. -/
def ranges (text : Bytes) : Option (List (Nat × Option Nat)) :=
  (Text.split (· == 44) text).mapM fun part =>
    let number (digits : Bytes) : Option Nat :=
      if !digits.isEmpty && digits.all isDigitByte then some (numberOf digits).1.toNat else none
    match Text.split (· == 45) part with
    | [single] => (number single).map fun n => (n, some n)
    | [a, []] => (number a).map fun n => (n, none)
    | [[], b] => (number b).map fun n => (1, some n)
    | [a, b] => do return (← number a, some (← number b))
    | _ => none

def inRanges (ranges : List (Nat × Option Nat)) (n : Nat) : Bool :=
  ranges.any fun (a, b) => decide (a ≤ n) && (match b with
    | some b => decide (n ≤ b)
    | none => true)

/-- The elements at some positions, counted from one. -/
def choose {α : Type} (positions : List (Nat × Option Nat)) (xs : List α) : List α :=
  ((xs.zipIdx 1).filter fun (x : α × Nat) => inRanges positions x.2).map fun x => x.1

/-- The chosen fields of a line; a line without the mark stays whole. -/
def fields (mark : UInt8) (positions : List (Nat × Option Nat)) (line : Bytes) : Bytes :=
  if line.contains mark then
    List.intercalate [mark] (choose positions (Text.split (· == mark) line))
  else line

/-! ## Ordering -/

/-- Whether a text comes before or together with another, byte by byte. -/
def precedes : Bytes → Bytes → Bool
  | [], _ => true
  | _ :: _, [] => false
  | a :: as, b :: bs => a < b || (a == b && precedes as bs)

def leadingNumber (line : Bytes) : Int :=
  let line := line.dropWhile isSpace
  let (negative, digits) := match line with
    | 45 :: rest => (true, rest)
    | _ => (false, line)
  let n := ((digits.takeWhile isDigitByte).foldl (fun n b => n * 10 + (b.toNat - 48)) 0 : Nat)
  if negative then -(n : Int) else n

def sorted (byNumber reversed unique : Bool) (lines : List Bytes) : List Bytes :=
  let le (a b : Bytes) : Bool :=
    if byNumber ∧ leadingNumber a ≠ leadingNumber b then leadingNumber a ≤ leadingNumber b
    else precedes a b
  let out := lines.mergeSort fun a b => if reversed then le b a else le a b
  if unique then
    (out.foldl (fun (done : List Bytes) l => if done.head? = some l then done else l :: done)
      []).reverse
  else out

def runs (lines : List Bytes) : List (Nat × Bytes) :=
  (lines.foldl (fun (done : List (Nat × Bytes)) l =>
    match done with
    | (n, m) :: rest => if l = m then (n + 1, m) :: rest else (1, l) :: done
    | [] => [(1, l)]) []).reverse

/-! ## Searching -/

/-- A search pattern: parts that may repeat, tied to the ends of the line or not. -/
structure Search where
  atStart : Bool
  atEnd : Bool
  parts : List (Wildcard × Bool)
  deriving Repr, Inhabited

/-- The parts of a search pattern; the fuel bounds their number. -/
def searchParts : (fuel : Nat) → Bytes → List (Wildcard × Bool)
  | 0, _ | _, [] => []
  | fuel + 1, text =>
    let (w, rest) : Wildcard × Bytes := match text with
      | 92 :: b :: rest => (Wildcard.byte b, rest)
      | 46 :: rest => (Wildcard.any, rest)
      | 91 :: rest =>
        let negated := rest.head? = some 94
        match Pattern.ranges ((if negated then rest.drop 1 else rest).map (·, true)) [] true with
        | some (set, rest) =>
          (Wildcard.oneOf negated set, rest.map fun (b : UInt8 × Bool) => b.1)
        | none => (Wildcard.byte 91, rest)
      | b :: rest => (Wildcard.byte b, rest)
      | [] => (Wildcard.any, [])
    match rest with
    | 42 :: rest => (w, true) :: searchParts fuel rest
    | _ => (w, false) :: searchParts fuel rest

def Search.ofBytes (text : Bytes) : Search :=
  let atStart := text.head? = some 94
  let text := if atStart then text.drop 1 else text
  let atEnd := text.getLast? = some 36 ∧ text.dropLast.getLast? ≠ some 92
  let text := if atEnd then text.dropLast else text
  ⟨atStart, atEnd, searchParts (text.length + 1) text⟩

def matchesFront (atEnd : Bool) : List (Wildcard × Bool) → Bytes → Bool
  | [], text => !atEnd || text.isEmpty
  | (_, true) :: parts, [] => matchesFront atEnd parts []
  | (w, true) :: parts, b :: text =>
    matchesFront atEnd parts (b :: text) ||
      (Pattern.accepts w b && matchesFront atEnd ((w, true) :: parts) text)
  | (_, false) :: _, [] => false
  | (w, false) :: parts, b :: text => Pattern.accepts w b && matchesFront atEnd parts text
termination_by parts text => parts.length + text.length

def Search.finds (s : Search) (line : Bytes) : Bool :=
  if s.atStart then matchesFront s.atEnd s.parts line
  else (List.range (line.length + 1)).any fun n => matchesFront s.atEnd s.parts (line.drop n)

end AgentGateway.Shell.Filter
