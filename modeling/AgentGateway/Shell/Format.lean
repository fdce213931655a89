import AgentGateway.Power
import AgentGateway.Shell.Command

/-!
# Formatted output

Escapes stand for control bytes and for bytes by their octal number. A format is a text with
escapes and with places for arguments; it is used again as long as arguments are left.
-/

namespace AgentGateway.Shell

/-- The character of an ASCII byte; other bytes have none of interest here. -/
def charOf (b : UInt8) : Char := Char.ofNat b.toNat

def isOctal (b : UInt8) : Bool := 48 ≤ b && b ≤ 55

def isDigitByte (b : UInt8) : Bool := 48 ≤ b && b ≤ 57

def octalByte (digits : Bytes) : UInt8 :=
  (digits.foldl (fun (n : Nat) (b : UInt8) => n * 8 + (b.toNat - 48)) 0).toUInt8

def controlByte? (letter : Char) : Option UInt8 :=
  match letter with
  | '\\' => some 92
  | 'a' => some 7
  | 'b' => some 8
  | 'f' => some 12
  | 'n' => some 10
  | 'r' => some 13
  | 't' => some 9
  | 'v' => some 11
  | _ => none

/-- The byte that what follows a backslash stands for, and the rest. A backslash before anything
else stands for itself. -/
def escape (text : Bytes) : UInt8 × Bytes :=
  match text with
  | [] => (92, [])
  | b :: rest =>
    if isOctal b then
      let digits := (text.take 3).takeWhile isOctal
      (octalByte digits, text.drop digits.length)
    else
      match controlByte? (charOf b) with
      | some c => (c, rest)
      | none => (92, text)

/-- A text with its escapes replaced, and whether it asks for nothing to follow it. The fuel
bounds its length. -/
def unescape : (fuel : Nat) → Bytes → Bytes → Bytes × Bool
  | 0, _, done => (done.reverse, false)
  | _, [], done => (done.reverse, false)
  | fuel + 1, 92 :: text, done =>
    match text with
    | 99 :: _ => (done.reverse, true)
    | _ =>
      let digits := match text with
        | 48 :: d :: _ => if isOctal d then text.drop 1 else text
        | _ => text
      let (b, rest) := escape digits
      unescape fuel rest (b :: done)
  | fuel + 1, b :: rest, done => unescape fuel rest (b :: done)

/-- What `echo` writes: its arguments with their escapes replaced, and a newline unless the first
argument asks for none. -/
def echoed (arguments : List Bytes) : Bytes :=
  let (arguments, newline) := match arguments with
    | [45, 110] :: rest => (rest, false)
    | _ => (arguments, true)
  let text := List.intercalate [32] arguments
  let (text, stop) := unescape (text.length + 1) text []
  if newline && !stop then text ++ [10] else text

/-- A width or precision: given in the format or taken from the arguments. -/
inductive Measure where
  | fixed (value : Nat)
  | argument
  deriving DecidableEq, Repr, Inhabited

inductive Slot where
  | bytes (value : Bytes)
  | argument (flags : List Char) (width precision : Option Measure) (conversion : Char)
  deriving DecidableEq, Repr, Inhabited

def takeMeasure (text : Bytes) : Option Measure × Bytes :=
  match text with
  | 42 :: rest => (some .argument, rest)
  | _ =>
    let digits := text.takeWhile isDigitByte
    if digits.isEmpty then (none, text)
    else (some (.fixed (digits.foldl (fun n b => n * 10 + (b.toNat - 48)) 0)),
      text.drop digits.length)

/-- The parts of a format; the fuel bounds their number. -/
def slots : (fuel : Nat) → Bytes → List Slot
  | 0, _ | _, [] => []
  | fuel + 1, 92 :: text =>
    let (b, rest) := escape text
    .bytes [b] :: slots fuel rest
  | fuel + 1, 37 :: 37 :: rest => .bytes [37] :: slots fuel rest
  | fuel + 1, 37 :: text =>
    let flags := text.takeWhile fun b => "-+ #0".toList.contains (charOf b)
    let (width, text) := takeMeasure (text.drop flags.length)
    let (precision, text) := match text with
      | 46 :: more =>
        let (p, more) := takeMeasure more
        (some (p.getD (.fixed 0)), more)
      | _ => (none, text)
    match text with
    | c :: rest => .argument (flags.map charOf) width precision (charOf c) :: slots fuel rest
    | [] => [.bytes [37]]
  | fuel + 1, b :: rest => .bytes [b] :: slots fuel rest

/-- A number as an argument writes it: a sign, digits in base ten, eight or sixteen, or the code
of a character after a quote. Tells whether all of it was a number. -/
def numberOf (argument : Bytes) : Int × Bool :=
  match argument with
  | [] => (0, true)
  | q :: more =>
    if q = 34 ∨ q = 39 then
      match Text.Utf8.decodeLossy more with
      | c :: _ => (c.toNat, true)
      | [] => (0, true)
    else
      let negative := q = 45
      let digits := if q = 45 ∨ q = 43 then more else argument
      let (base, digits) := match digits with
        | 48 :: 120 :: rest | 48 :: 88 :: rest => (16, rest)
        | 48 :: _ => (8, digits)
        | _ => (10, digits)
      let valid (b : UInt8) : Option Nat :=
        let c := (charOf b).toLower
        let n := if c.isDigit then c.toNat - 48
          else if 'a' ≤ c ∧ c ≤ 'f' then c.toNat - 87 else 16
        if n < base then some n else none
      let good := digits.takeWhile fun b => (valid b).isSome
      let n := good.foldl (fun n b => n * base + (valid b).getD 0) 0
      (if negative then -(n : Int) else n, good.length = digits.length ∧ !digits.isEmpty)

def fill (left : Bool) (width : Nat) (text : Bytes) : Bytes :=
  let blanks := List.replicate (width - text.length) 32
  if left then text ++ blanks else blanks ++ text

def digitsIn (base : Nat) (upper : Bool) (n : Nat) : Bytes :=
  let digits := Nat.toDigits base n
  (if upper then digits.map Char.toUpper else digits).flatMap Text.Utf8.encodeChar

def formatNumber (flags : List Char) (width : Nat) (precision : Option Nat) (conversion : Char)
    (n : Int) : Bytes :=
  let signed := conversion = 'd' ∨ conversion = 'i'
  let magnitude := if signed then n.natAbs else (n % (maxWord64 + 1)).toNat
  let base := match conversion with
    | 'o' => 8
    | 'x' | 'X' => 16
    | _ => 10
  let digits := digitsIn base (conversion = 'X') magnitude
  let digits := List.replicate (precision.getD 1 - digits.length) 48 ++ digits
  let sign := if signed ∧ n < 0 then [45]
    else if signed ∧ flags.contains '+' then [43]
    else if signed ∧ flags.contains ' ' then [32]
    else if flags.contains '#' ∧ base = 16 ∧ magnitude ≠ 0 then
      (if conversion = 'X' then [48, 88] else [48, 120])
    else if flags.contains '#' ∧ base = 8 ∧ digits.head? ≠ some 48 then [48]
    else []
  if flags.contains '0' ∧ !flags.contains '-' ∧ precision.isNone then
    sign ++ List.replicate (width - sign.length - digits.length) 48 ++ digits
  else fill (flags.contains '-') width (sign ++ digits)

/-- Output in progress, in reverse, with the arguments that are no numbers where numbers are wanted
and the first conversion that there is none of. -/
structure Formatting where
  written : Bytes := []
  arguments : List Bytes
  rejected : List Bytes := []
  unknown : Option Char := none
  stopped : Bool := false
  deriving Repr, Inhabited

namespace Formatting

def isOver (f : Formatting) : Bool := f.stopped || f.unknown.isSome

def write (f : Formatting) (text : Bytes) : Formatting :=
  { f with written := text.reverse ++ f.written }

/-- Takes the next argument; a missing one is empty. -/
def take (f : Formatting) : Bytes × Formatting :=
  match f.arguments with
  | a :: rest => (a, { f with arguments := rest })
  | [] => ([], f)

def takeNumber (f : Formatting) : Int × Formatting :=
  let (a, f) := f.take
  let (n, good) := numberOf a
  (n, if good then f else { f with rejected := f.rejected ++ [a] })

def takeMeasure (f : Formatting) : Option Measure → Option Int × Formatting
  | none => (none, f)
  | some (.fixed n) => (some n, f)
  | some .argument =>
    let (n, f) := f.takeNumber
    (some n, f)

def place (f : Formatting) (slot : Slot) : Formatting :=
  if f.isOver then f
  else
    match slot with
    | .bytes value => f.write value
    | .argument flags width precision conversion =>
      let (width, f) := f.takeMeasure width
      let (precision, f) := f.takeMeasure precision
      let flags := if (width.getD 0) < 0 then '-' :: flags else flags
      let width := (width.getD 0).natAbs
      let precision := precision.bind fun p => if p < 0 then none else some p.toNat
      let left := flags.contains '-'
      let cut (text : Bytes) : Bytes := match precision with
        | some p => text.take p
        | none => text
      if conversion = 's' then
        let (a, f) := f.take
        f.write (fill left width (cut a))
      else if conversion = 'b' then
        let (a, f) := f.take
        let (text, stop) := unescape (a.length + 1) a []
        { f.write (fill left width (cut text)) with stopped := stop }
      else if conversion = 'c' then
        let (a, f) := f.take
        f.write (fill left width (a.take 1))
      else if "diouxX".toList.contains conversion then
        let (n, f) := f.takeNumber
        f.write (formatNumber flags width precision conversion n)
      else { f with unknown := some conversion }

def run (format : List Slot) : (fuel : Nat) → Formatting → Formatting
  | 0, f => f
  | fuel + 1, f =>
    let g := format.foldl place f
    if g.isOver ∨ g.arguments.isEmpty ∨ g.arguments.length = f.arguments.length then g
    else run format fuel g

end Formatting

def formatted (format : Bytes) (arguments : List Bytes) : Formatting :=
  Formatting.run (slots (format.length + 1) format) (arguments.length + 1) { arguments }

end AgentGateway.Shell
