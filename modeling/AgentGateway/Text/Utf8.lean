/-!
# Reading bytes as text

A byte machine for UTF-8. Each byte moves the machine from one state to the next and may emit
characters; a sequence that breaks off or goes wrong emits one replacement character for the
longest part of it that could have begun a character, and the byte that broke it is read afresh.
Strict reading is lossy reading in which no replacement was needed.
-/

namespace AgentGateway.Text.Utf8

/-- Between characters, or inside one: the bits so far, how many bytes are still due, and the
range that the next one must fall in. -/
inductive State where
  | ground
  | inside (bits due low high : Nat)
  deriving DecidableEq, Repr, Inhabited

/-- What a byte at the start of a character does. `none` marks a byte that starts nothing. -/
def lead (b : Nat) : Option (State × List Char) :=
  if b < 0x80 then some (.ground, [Char.ofNat b])
  else if b < 0xC2 then none
  else if b < 0xE0 then some (.inside (b - 0xC0) 1 0x80 0xBF, [])
  else if b = 0xE0 then some (.inside 0 2 0xA0 0xBF, [])
  else if b = 0xED then some (.inside 0xD 2 0x80 0x9F, [])
  else if b < 0xF0 then some (.inside (b - 0xE0) 2 0x80 0xBF, [])
  else if b = 0xF0 then some (.inside 0 3 0x90 0xBF, [])
  else if b < 0xF4 then some (.inside (b - 0xF0) 3 0x80 0xBF, [])
  else if b = 0xF4 then some (.inside 4 3 0x80 0x8F, [])
  else none

/-- One byte: the next state, the characters it completes, and whether something was replaced. -/
def step (s : State) (b : UInt8) : State × List Char × Bool :=
  let n := b.toNat
  match s with
  | .ground =>
    match lead n with
    | some (t, out) => (t, out, false)
    | none => (.ground, [Char.ofNat 0xFFFD], true)
  | .inside bits due low high =>
    if low ≤ n ∧ n ≤ high then
      let bits := bits * 64 + n % 64
      if due ≤ 1 then (.ground, [Char.ofNat bits], false)
      else (.inside bits (due - 1) 0x80 0xBF, [], false)
    else
      match lead n with
      | some (t, out) => (t, Char.ofNat 0xFFFD :: out, true)
      | none => (.ground, [Char.ofNat 0xFFFD, Char.ofNat 0xFFFD], true)

/-- What is emitted when the bytes end in a given state. -/
def finish : State → List Char
  | .ground => []
  | .inside .. => [Char.ofNat 0xFFFD]

/-- A reading in progress: the state, the characters so far in reverse, and whether any of them
stands for something unreadable. -/
structure Reading where
  state : State := .ground
  emitted : List Char := []
  replaced : Bool := false
  deriving Repr, Inhabited

def Reading.push (r : Reading) (b : UInt8) : Reading :=
  let (state, out, replaced) := step r.state b
  ⟨state, out.reverse ++ r.emitted, r.replaced || replaced⟩

def Reading.chars (r : Reading) : List Char :=
  r.emitted.reverse ++ finish r.state

def run (bytes : List UInt8) : Reading := bytes.foldl Reading.push {}

/-- The characters that the bytes stand for, with replacements where they stand for none. -/
def decodeLossy (bytes : List UInt8) : List Char := (run bytes).chars

/-- The text that the bytes stand for, if they are valid throughout. -/
def decode? (bytes : List UInt8) : Option (List Char) :=
  let r := run bytes
  if r.replaced ∨ r.state ≠ .ground then none else some r.chars

def encodeChar (c : Char) : List UInt8 :=
  let n := c.toNat
  if n < 0x80 then [n.toUInt8]
  else if n < 0x800 then [(0xC0 + n / 64).toUInt8, (0x80 + n % 64).toUInt8]
  else if n < 0x10000 then
    [(0xE0 + n / 4096).toUInt8, (0x80 + n / 64 % 64).toUInt8, (0x80 + n % 64).toUInt8]
  else
    [(0xF0 + n / 262144).toUInt8, (0x80 + n / 4096 % 64).toUInt8,
      (0x80 + n / 64 % 64).toUInt8, (0x80 + n % 64).toUInt8]

def encode (chars : List Char) : List UInt8 := chars.flatMap encodeChar

def width (chars : List Char) : Nat :=
  chars.foldl (fun n c => n + c.utf8Size) 0

end AgentGateway.Text.Utf8
