import AgentGateway.Power
import AgentGateway.Toml.Basic

/-!
# Scalars of the configuration format

Strings in four notations, integers in four bases, floating point numbers, dates and times. Each
reader takes the characters that are left and gives what it read with the rest, or nothing when
the text breaks a rule. Underscores may stand between digits.
-/

namespace AgentGateway.Toml

def isSpace (c : Char) : Bool := c == ' ' || c == '\t'

def skipSpace (cs : List Char) : List Char := cs.dropWhile isSpace

/-- Passes over one end of line, with or without a carriage return. -/
def newline? : List Char → Option (List Char)
  | '\n' :: rest => some rest
  | '\r' :: '\n' :: rest => some rest
  | _ => none

/-- Whether a character may stand in a comment or a string as it is. -/
def isPlain (c : Char) : Bool := c == '\t' || (0x20 ≤ c.toNat && c.toNat != 0x7F)

def isDigit (c : Char) : Bool := '0' ≤ c && c ≤ '9'

def digitOf (c : Char) : Nat :=
  if isDigit c then c.toNat - 48
  else if 'a' ≤ c ∧ c ≤ 'f' then c.toNat - 87
  else c.toNat - 55

def isHexDigit (c : Char) : Bool :=
  isDigit c || ('a' ≤ c && c ≤ 'f') || ('A' ≤ c && c ≤ 'F')

/-! ## Strings -/

/-- The character with a number, unless the number is half of a pair or too large. -/
def scalarChar? (n : Nat) : Option Char :=
  if n < 0xD800 ∨ (0xDFFF < n ∧ n < 0x110000) then some (Char.ofNat n) else none

/-- Reads a given number of hexadecimal digits. -/
def hexDigits : (count value : Nat) → List Char → Option (Nat × List Char)
  | 0, value, cs => some (value, cs)
  | count + 1, value, c :: cs =>
    if isHexDigit c then hexDigits count (value * 16 + digitOf c) cs else none
  | _ + 1, _, [] => none

def escape? : List Char → Option (Char × List Char)
  | 'b' :: cs => some (Char.ofNat 8, cs)
  | 't' :: cs => some ('\t', cs)
  | 'n' :: cs => some ('\n', cs)
  | 'f' :: cs => some (Char.ofNat 12, cs)
  | 'r' :: cs => some ('\r', cs)
  | '"' :: cs => some ('"', cs)
  | '\\' :: cs => some ('\\', cs)
  | 'u' :: cs => do
    let (n, cs) ← hexDigits 4 0 cs
    return (← scalarChar? n, cs)
  | 'U' :: cs => do
    let (n, cs) ← hexDigits 8 0 cs
    return (← scalarChar? n, cs)
  | _ => none

/-- Reads the rest of a string in quotes; the characters so far are held in reverse. -/
def basicString (fuel : Nat) (done : List Char) (cs : List Char) :
    Option (List Char × List Char) :=
  match fuel, cs with
  | 0, _ | _, [] => none
  | fuel + 1, c :: cs =>
    if c = '"' then some (done.reverse, cs)
    else if c = '\\' then
      match escape? cs with
      | some (x, cs) => basicString fuel (x :: done) cs
      | none => none
    else if isPlain c then basicString fuel (c :: done) cs
    else none

/-- Reads the rest of a string in apostrophes, in which nothing is escaped. -/
def literalString (done : List Char) : List Char → Option (List Char × List Char)
  | [] => none
  | c :: cs =>
    if c.toNat = 39 then some (done.reverse, cs)
    else if isPlain c then literalString (c :: done) cs
    else none

/-- Three quotes end a string over several lines; up to two more before them belong to it. -/
def closing (quote : Char) (done : List Char) (cs : List Char) :
    Option (List Char × List Char) :=
  let count := (cs.takeWhile (· == quote)).length
  if count < 3 then none
  else
    let extra := Nat.min (count - 3) 2
    some ((List.replicate extra quote ++ done).reverse, cs.drop (extra + 3))

/-- Passes over blanks and ends of line, of which there must be at least one. -/
def continuation (fuel : Nat) (seen : Bool) (cs : List Char) : Option (List Char) :=
  match fuel with
  | 0 => none
  | fuel + 1 =>
    let cs := skipSpace cs
    match newline? cs with
    | some cs => continuation fuel true cs
    | none => if seen then some cs else none

/-- Reads the rest of a string between three quotes. A backslash at the end of a line joins it to
the next text. -/
def multilineBasic (fuel : Nat) (done : List Char) (cs : List Char) :
    Option (List Char × List Char) :=
  match fuel, cs with
  | 0, _ | _, [] => none
  | fuel + 1, c :: rest =>
    if c = '"' then
      match closing '"' done cs with
      | some r => some r
      | none => multilineBasic fuel ('"' :: done) rest
    else if c = '\\' then
      match continuation (rest.length + 1) false rest with
      | some rest => multilineBasic fuel done rest
      | none =>
        match escape? rest with
        | some (x, rest) => multilineBasic fuel (x :: done) rest
        | none => none
    else
      match newline? cs with
      | some rest => multilineBasic fuel ('\n' :: done) rest
      | none => if isPlain c then multilineBasic fuel (c :: done) rest else none

/-- Reads the rest of a string between three apostrophes. -/
def multilineLiteral (fuel : Nat) (done : List Char) (cs : List Char) :
    Option (List Char × List Char) :=
  match fuel, cs with
  | 0, _ | _, [] => none
  | fuel + 1, c :: rest =>
    if c.toNat = 39 then
      match closing c done cs with
      | some r => some r
      | none => multilineLiteral fuel (c :: done) rest
    else
      match newline? cs with
      | some rest => multilineLiteral fuel ('\n' :: done) rest
      | none => if isPlain c then multilineLiteral fuel (c :: done) rest else none

/-- Passes over an end of line right after the opening quotes. -/
def skipFirstNewline (cs : List Char) : List Char := (newline? cs).getD cs

def string? (cs : List Char) : Option (String × List Char) :=
  let fuel := cs.length + 1
  let read := match cs with
    | '"' :: '"' :: '"' :: cs => multilineBasic fuel [] (skipFirstNewline cs)
    | '"' :: cs => basicString fuel [] cs
    | '\x27' :: '\x27' :: '\x27' :: cs => multilineLiteral fuel [] (skipFirstNewline cs)
    | '\x27' :: cs => literalString [] cs
    | _ => none
  read.map fun (s, cs) => (String.ofList s, cs)

/-! ## Numbers -/

/-- Reads digits with single underscores between them; there must be at least one digit. -/
def digitRun (ok : Char → Bool) (done : List Char) : List Char → Option (List Char × List Char)
  | [] => if done.isEmpty then none else some (done.reverse, [])
  | '_' :: c :: cs => if !done.isEmpty ∧ ok c then digitRun ok (c :: done) cs else none
  | c :: cs =>
    if ok c then digitRun ok (c :: done) cs
    else if done.isEmpty ∨ c = '_' then none
    else some (done.reverse, c :: cs)

def valueIn (base : Nat) (digits : List Char) : Nat :=
  digits.foldl (fun n c => n * base + digitOf c) 0

/-- Reads the digits of a decimal integer, which begin with zero only if they are zero. -/
def decimalDigits : List Char → Option (List Char × List Char)
  | '0' :: cs => some (['0'], cs)
  | cs => digitRun isDigit [] cs

def sign : List Char → Bool × List Char
  | '+' :: cs => (false, cs)
  | '-' :: cs => (true, cs)
  | cs => (false, cs)

/-- An integer, if it fits 64 bits with a sign. -/
def fitting? (negative : Bool) (n : Nat) : Option Toml :=
  if negative then (if n ≤ maxSigned64 + 1 then some (.integer (-(n : Int))) else none)
  else (if n ≤ maxSigned64 then some (.integer n) else none)

/-- The nearest floating point number to a decimal. Exponents far out of range need no exact
power: they give zero or infinity. -/
def decimalReal (negative : Bool) (digits : List Char) (exponent : Int) : Binary64 :=
  let value := valueIn 10 digits
  if value = 0 then .zero negative
  else if exponent + digits.length < -400 then .zero negative
  else if 400 < exponent then .infinite negative
  else .ofDecimal negative value exponent

/-- Reads a fraction and an exponent behind the digits before the point, at least one of them. A
positive number must be finite. -/
def realTail? (negative : Bool) (whole : List Char) (cs : List Char) :
    Option (Toml × List Char) := do
  let (fraction, cs) ← match cs with
    | '.' :: cs => digitRun isDigit [] cs
    | cs => some ([], cs)
  let (exponent, cs) ← match cs with
    | 'e' :: cs | 'E' :: cs =>
      let (down, cs) := sign cs
      (digitRun isDigit [] cs).map fun (digits, cs) =>
        (if down then -(valueIn 10 digits : Int) else valueIn 10 digits, cs)
    | cs => some (0, cs)
  let x := decimalReal negative (whole ++ fraction) (exponent - fraction.length)
  if x = .infinite false then none else return (.real x, cs)

/-- Reads a number in a base other than ten. -/
def based? (base : Nat) (ok : Char → Bool) (cs : List Char) : Option (Toml × List Char) := do
  let (digits, cs) ← digitRun ok [] cs
  return (← fitting? false (valueIn base digits), cs)

def number? (cs : List Char) : Option (Toml × List Char) :=
  match cs with
  | '0' :: 'x' :: cs => based? 16 isHexDigit cs
  | '0' :: 'o' :: cs => based? 8 (fun c => '0' ≤ c && c ≤ '7') cs
  | '0' :: 'b' :: cs => based? 2 (fun c => c == '0' || c == '1') cs
  | cs =>
    let (negative, cs) := sign cs
    match cs with
    | 'i' :: 'n' :: 'f' :: cs => some (.real (.infinite negative), cs)
    | 'n' :: 'a' :: 'n' :: cs => some (.real .nan, cs)
    | cs => do
      let (digits, cs) ← decimalDigits cs
      match cs with
      | '.' :: _ | 'e' :: _ | 'E' :: _ => realTail? negative digits cs
      | cs => return (← fitting? negative (valueIn 10 digits), cs)

/-! ## Dates and times -/

def fixedDigits : (count value : Nat) → List Char → Option (Nat × List Char)
  | 0, value, cs => some (value, cs)
  | count + 1, value, c :: cs =>
    if isDigit c then fixedDigits count (value * 10 + digitOf c) cs else none
  | _ + 1, _, [] => none

def mark? (m : Char) : List Char → Option (List Char)
  | c :: cs => if c = m then some cs else none
  | [] => none

def pair? (low high : Nat) (cs : List Char) : Option (Nat × List Char) := do
  let (n, cs) ← fixedDigits 2 0 cs
  if low ≤ n ∧ n ≤ high then return (n, cs) else none

def daysIn (year month : Nat) : Nat :=
  let leap := year % 4 = 0 ∧ (year % 100 ≠ 0 ∨ year % 400 = 0)
  if month = 2 then (if leap then 29 else 28)
  else if month = 4 ∨ month = 6 ∨ month = 9 ∨ month = 11 then 30
  else 31

def date? (cs : List Char) : Option (List Char) := do
  let (year, cs) ← fixedDigits 4 0 cs
  let cs ← mark? '-' cs
  let (month, cs) ← pair? 1 12 cs
  let cs ← mark? '-' cs
  let (day, cs) ← pair? 1 31 cs
  if day ≤ daysIn year month then return cs else none

/-- Passes over a time of day; a second sixty is a leap second. -/
def clock? (cs : List Char) : Option (List Char) := do
  let (_, cs) ← pair? 0 23 cs
  let cs ← mark? ':' cs
  let (_, cs) ← pair? 0 59 cs
  let cs ← mark? ':' cs
  let (_, cs) ← pair? 0 60 cs
  match cs with
  | '.' :: cs =>
    let rest := cs.dropWhile isDigit
    if rest.length = cs.length then none else return rest
  | cs => return cs

/-- Passes over a distance from universal time, if there is one. -/
def zone? : List Char → Option (List Char)
  | 'Z' :: cs | 'z' :: cs => some cs
  | '+' :: cs | '-' :: cs => do
    let (_, cs) ← pair? 0 23 cs
    let cs ← mark? ':' cs
    let (_, cs) ← pair? 0 59 cs
    return cs
  | cs => some cs

/-- Passes over a date, a time of day, or both. -/
def moment? (cs : List Char) : Option (List Char) :=
  match date? cs with
  | none => clock? cs
  | some rest =>
    match rest with
    | 'T' :: more | 't' :: more => (clock? more).bind zone?
    | ' ' :: more =>
      if more.head?.any isDigit then (clock? more).bind zone? else some rest
    | _ => some rest

/-- Whether a number or a date begins here: four digits and a minus, or two and a colon. -/
def looksLikeMoment (cs : List Char) : Bool :=
  let digits := (cs.takeWhile isDigit).length
  match cs.drop digits with
  | '-' :: _ => digits == 4
  | ':' :: _ => digits == 2
  | _ => false

end AgentGateway.Toml
