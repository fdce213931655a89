import AgentGateway.Json.Problem
import AgentGateway.Power

/-!
# Scanning JSON text

A cursor holds the characters still to be read and the number of bytes read before them. The
scanners here read one token each: blanks, words, numbers and strings. A problem names the byte
offset that its position is shown for: either what has been read, or one byte more when the cause
is the byte that comes next.
-/

namespace AgentGateway.Json

structure Cursor where
  rest : List Char
  offset : Nat
  deriving Repr, Inhabited

namespace Cursor

def start (text : List Char) : Cursor := ⟨text, 0⟩

/-- The offset shown when the next byte is to blame; at the end of the text there is none. -/
def peekOffset (c : Cursor) : Nat := if c.rest.isEmpty then c.offset else c.offset + 1

def blameNext (c : Cursor) (cause : Cause) : Problem := ⟨cause, c.peekOffset⟩

def blame (c : Cursor) (cause : Cause) : Problem := ⟨cause, c.offset⟩

def advance (c : Cursor) : Cursor :=
  match c.rest with
  | [] => c
  | ch :: rest => ⟨rest, c.offset + ch.utf8Size⟩

/-- The blanks of the format: space, newline, tab and carriage return. -/
def isJsonBlank (ch : Char) : Bool := ch == ' ' || ch == '\n' || ch == '\t' || ch == '\r'

def skipBlankFrom : List Char → Nat → Cursor
  | [], offset => ⟨[], offset⟩
  | ch :: rest, offset =>
    if isJsonBlank ch then skipBlankFrom rest (offset + 1) else ⟨ch :: rest, offset⟩

def skipBlank (c : Cursor) : Cursor := skipBlankFrom c.rest c.offset

/-- Reads the rest of a word such as `true`, one expected character after another. -/
def word : List Char → Cursor → Except Problem Cursor
  | [], c => .ok c
  | expected :: more, c =>
    match c.rest with
    | [] => .error (c.blame .endInValue)
    | ch :: rest =>
      if ch = expected then word more ⟨rest, c.offset + 1⟩
      else .error ⟨.expectedIdent, c.offset + 1⟩

end Cursor

/-! ## Numbers -/

def isDigit (ch : Char) : Bool := '0' ≤ ch && ch ≤ '9'

def digitValue (ch : Char) : Nat := ch.toNat - 48

/-- The value of the leading digits as far as it fits 64 bits, and the number of digits left over
once one of them did not fit. -/
def accumulate (digits : List Char) : Nat × Nat :=
  digits.foldl (fun (value, left) ch =>
    let next := value * 10 + digitValue ch
    if left = 0 ∧ next ≤ maxWord64 then (next, 0) else (value, left + 1)) (0, 0)

/-- Extends a value by the digits of a fraction as far as it fits 64 bits: the value and the number
of digits that went into it. The flag says that a digit did not fit, which ends the counting. -/
def accumulateFraction (value : Nat) (digits : List Char) : Nat × Nat × Bool :=
  digits.foldl (fun (value, used, full) ch =>
    let next := value * 10 + digitValue ch
    if full ∨ maxWord64 < next then (value, used, true) else (next, used + 1, false))
    (value, 0, false)

def powerOfTen (k : Nat) : Binary64 := .ofDecimal false 1 k

/-- The magnitude `value · 10 ^ exponent`, by one rounded multiplication or division; exponents
beyond 308 divide several times. `none` when it is out of range. -/
def assemble (fuel : Nat) (value : Binary64) (exponent : Int) : Option Binary64 :=
  if exponent.natAbs ≤ 308 then
    if 0 ≤ exponent then
      let x := value.mul (powerOfTen exponent.toNat)
      if x.isFinite then some x else none
    else some (value.div (powerOfTen (-exponent).toNat))
  else if value.isZero then some value
  else if 0 ≤ exponent then none
  else
    match fuel with
    | 0 => some value
    | fuel + 1 => assemble fuel (value.div (powerOfTen 308)) (exponent + 308)

def finishReal (negative : Bool) (value : Nat) (exponent : Int) (c : Cursor) :
    Except Problem (Number × Cursor) :=
  match assemble 4 (.ofNat value) exponent with
  | some x => .ok (.real (if negative then x.neg else x), c)
  | none => .error (c.blame .numberOutOfRange)

/-- The value of exponent digits and how many were read; the value is missing when the last digit
read took it beyond 32 bits. -/
def exponentValue : (value used : Nat) → List Char → Option Nat × Nat
  | value, used, [] => (some value, used)
  | value, used, ch :: rest =>
    let next := value * 10 + digitValue ch
    if maxSigned32 < next then (none, used + 1) else exponentValue next (used + 1) rest

/-- Passes over a number of one-byte characters. -/
def Cursor.drop (c : Cursor) (count : Nat) : Cursor := ⟨c.rest.drop count, c.offset + count⟩

def clampExponent (e : Int) : Int := max (-(maxSigned32 : Int) - 1) (min e maxSigned32)

/-- Reads the digits of an exponent, which counts down from `start` if its sign was a minus. -/
def readExponentDigits (negative : Bool) (value : Nat) (start : Int) (down : Bool) (c : Cursor) :
    Except Problem (Number × Cursor) :=
  match c.rest with
  | [] => .error (c.blame .endInValue)
  | ch :: _ =>
    if isDigit ch then
      let digits := c.rest.takeWhile isDigit
      match exponentValue 0 0 digits with
      | (some e, used) =>
        let e := clampExponent (if down then start - e else start + e)
        finishReal negative value e (c.drop used)
      | (none, used) =>
        if value ≠ 0 ∧ !down then .error ((c.drop used).blame .numberOutOfRange)
        else .ok (.real (.zero negative), c.drop digits.length)
    else .error ⟨.invalidNumber, c.offset + 1⟩

def readExponent (negative : Bool) (value : Nat) (start : Int) (c : Cursor) :
    Except Problem (Number × Cursor) :=
  let c := c.advance
  match c.rest with
  | '+' :: _ => readExponentDigits negative value start false c.advance
  | '-' :: _ => readExponentDigits negative value start true c.advance
  | _ => readExponentDigits negative value start false c

/-- Reads a fraction from its point on; `start` counts integer digits left out of the value. -/
def readFraction (negative : Bool) (value : Nat) (start : Nat) (c : Cursor) :
    Except Problem (Number × Cursor) :=
  let c := c.advance
  let digits := c.rest.takeWhile isDigit
  let (value, used, _) := accumulateFraction value digits
  if digits.isEmpty then
    .error (c.blameNext (if c.rest.isEmpty then .endInValue else .invalidNumber))
  else
    let c := c.drop digits.length
    let exponent : Int := (start : Int) - used
    match c.rest with
    | 'e' :: _ | 'E' :: _ => readExponent negative value exponent c
    | _ => finishReal negative value exponent c

/-- What a number without fraction and exponent is: an integer if it fits 64 bits, where minus
zero and what is below the least integer become floating point numbers. -/
def integerOrReal (negative : Bool) (value : Nat) : Number :=
  if negative then
    if 0 < value ∧ value ≤ maxSigned64 + 1 then .integer (-(value : Int))
    else .real (Binary64.ofNat value).neg
  else .integer value

/-- Reads what comes behind the digits before the point; `left` of them are not in the value. -/
def readBehindWhole (negative : Bool) (value left : Nat) (c : Cursor) :
    Except Problem (Number × Cursor) :=
  match c.rest with
  | '.' :: _ => readFraction negative value left c
  | 'e' :: _ | 'E' :: _ => readExponent negative value left c
  | _ =>
    if left = 0 then .ok (integerOrReal negative value, c)
    else finishReal negative value left c

def readNumber (negative : Bool) (c : Cursor) : Except Problem (Number × Cursor) :=
  match c.rest with
  | [] => .error (c.blame .endInValue)
  | ch :: rest =>
    if ch = '0' ∧ (rest.head?.any isDigit) then .error ⟨.invalidNumber, c.offset + 2⟩
    else if isDigit ch then
      let digits := if ch = '0' then [ch] else c.rest.takeWhile isDigit
      let (value, left) := accumulate digits
      readBehindWhole negative value left (c.drop digits.length)
    else .error ⟨.invalidNumber, c.offset + 1⟩

/-! ## Strings -/

def hexValue (ch : Char) : Option Nat :=
  if isDigit ch then some (digitValue ch)
  else if 'a' ≤ ch ∧ ch ≤ 'f' then some (ch.toNat - 87)
  else if 'A' ≤ ch ∧ ch ≤ 'F' then some (ch.toNat - 55)
  else none

def hexQuad (a b c d : Char) : Option Nat := do
  let a ← hexValue a
  let b ← hexValue b
  let c ← hexValue c
  let d ← hexValue d
  return ((a * 16 + b) * 16 + c) * 16 + d

/-- The characters that a backslash and a letter stand for. -/
def shortEscape (ch : Char) : Option Char :=
  if ch = '"' ∨ ch = '\\' ∨ ch = '/' then some ch
  else if ch = 'b' then some (Char.ofNat 8)
  else if ch = 'f' then some (Char.ofNat 12)
  else if ch = 'n' then some '\n'
  else if ch = 'r' then some '\r'
  else if ch = 't' then some '\t'
  else none

def byteWidth (chars : List Char) : Nat := chars.foldl (fun n ch => n + ch.utf8Size) 0

/-- The problem with four bytes that are not all hexadecimal digits, or are not all there. -/
def hexProblem (rest : List Char) (offset : Nat) : Problem :=
  let width := byteWidth (rest.take 4)
  if 4 ≤ width then ⟨.invalidEscape, offset + 4⟩ else ⟨.endInString, offset + width⟩

/-- The problem with what follows the first half of a pair when no second half follows. -/
def pairProblem (rest : List Char) (offset : Nat) : Problem :=
  match rest with
  | [] => ⟨.endInString, offset⟩
  | '\\' :: [] => ⟨.endInString, offset + 1⟩
  | '\\' :: 'u' :: more => hexProblem more (offset + 2)
  | '\\' :: _ => ⟨.unexpectedEndOfEscape, offset + 2⟩
  | _ => ⟨.unexpectedEndOfEscape, offset + 1⟩

def isLeading (n : Nat) : Bool := 0xD800 ≤ n && n ≤ 0xDBFF

def isTrailing (n : Nat) : Bool := 0xDC00 ≤ n && n ≤ 0xDFFF

/-- Reads the rest of a string whose opening quote has been read; the characters so far are held
in reverse. -/
def readString : List Char → Nat → List Char → Except Problem (List Char × Cursor)
  | [], offset, _ => .error ⟨.endInString, offset⟩
  | ch :: rest, offset, done =>
    if ch = '"' then .ok (done.reverse, ⟨rest, offset + 1⟩)
    else if ch = '\\' then
      match rest with
      | [] => .error ⟨.endInString, offset + 1⟩
      | 'u' :: a :: b :: c :: d :: more =>
        match hexQuad a b c d with
        | none => .error (hexProblem (a :: b :: c :: d :: more) (offset + 2))
        | some n =>
          if isTrailing n then .error ⟨.loneSurrogate, offset + 6⟩
          else if isLeading n then
            match more with
            | '\\' :: 'u' :: e :: f :: g :: h :: more =>
              match hexQuad e f g h with
              | none => .error (hexProblem (e :: f :: g :: h :: more) (offset + 8))
              | some m =>
                if isTrailing m then
                  let value := (n - 0xD800) * 1024 + (m - 0xDC00) + 0x10000
                  readString more (offset + 12) (Char.ofNat value :: done)
                else .error ⟨.loneSurrogate, offset + 12⟩
            | _ => .error (pairProblem more (offset + 6))
          else readString more (offset + 6) (Char.ofNat n :: done)
      | letter :: more =>
        match shortEscape letter with
        | some x => readString more (offset + 2) (x :: done)
        | none =>
          if letter = 'u' then .error (hexProblem more (offset + 2))
          else .error ⟨.invalidEscape, offset + 2⟩
    else if ch.toNat < 0x20 then .error ⟨.controlCharacter, offset + 1⟩
    else readString rest (offset + ch.utf8Size) (ch :: done)

/-- Passes over the rest of a string. Escapes are looked at one by one, so halves of pairs need
not match. -/
def skipString : List Char → Nat → Except Problem Cursor
  | [], offset => .error ⟨.endInString, offset⟩
  | ch :: rest, offset =>
    if ch = '"' then .ok ⟨rest, offset + 1⟩
    else if ch = '\\' then
      match rest with
      | [] => .error ⟨.endInString, offset + 1⟩
      | 'u' :: a :: b :: c :: d :: more =>
        match hexQuad a b c d with
        | none => .error (hexProblem (a :: b :: c :: d :: more) (offset + 2))
        | some _ => skipString more (offset + 6)
      | letter :: more =>
        if (shortEscape letter).isSome then skipString more (offset + 2)
        else if letter = 'u' then .error (hexProblem more (offset + 2))
        else .error ⟨.invalidEscape, offset + 2⟩
    else if ch.toNat < 0x20 then .error ⟨.controlCharacter, offset⟩
    else skipString rest (offset + ch.utf8Size)

end AgentGateway.Json
