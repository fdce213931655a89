import AgentGateway.Power

/-!
# Whole number expressions

Expressions over 64-bit numbers with variables: reading them by precedence, and evaluating them.
Evaluation may set variables.
-/

namespace AgentGateway.Shell.Arithmetic

/-- An operator between two operands, which are both evaluated. -/
inductive Operator where
  | times | divide | rest | plus | minus | shiftLeft | shiftRight
  | less | atMost | greater | atLeast | equal | different
  | bitAnd | bitXor | bitOr
  deriving DecidableEq, Repr, Inhabited

/-- An expression. By `assign` a variable takes a value, or its old value combined with one. -/
inductive Expression where
  | literal (value : Int)
  | variable (name : String)
  | negative (operand : Expression)
  | not (operand : Expression)
  | complement (operand : Expression)
  | binary (operator : Operator) (left right : Expression)
  | both (left right : Expression)
  | either (left right : Expression)
  | choose (condition yes no : Expression)
  | assign (name : String) (operator : Option Operator) (value : Expression)
  deriving Repr, Inhabited

/-- Why an expression has no value. -/
inductive Problem where
  | divisionByZero
  | badNumber (text : List Char)
  deriving DecidableEq, Repr, Inhabited

inductive Token where
  | number (value : Int)
  | name (text : String)
  | sign (text : String)
  deriving DecidableEq, Repr, Inhabited

def signs : List String :=
  ["<<=", ">>=", "<<", ">>", "<=", ">=", "==", "!=", "&&", "||", "+=", "-=", "*=", "/=", "%=",
    "&=", "^=", "|=", "+", "-", "*", "/", "%", "<", ">", "=", "!", "~", "&", "^", "|", "?", ":",
    "(", ")", ","]

def digitValue? (base : Nat) (c : Char) : Option Nat :=
  let n := if c.isDigit then c.toNat - '0'.toNat
    else if 'a' ≤ c ∧ c ≤ 'f' then c.toNat - 'a'.toNat + 10
    else if 'A' ≤ c ∧ c ≤ 'F' then c.toNat - 'A'.toNat + 10
    else 16
  if n < base then some n else none

def digitsValue? (base : Nat) (digits : List Char) : Option Nat :=
  digits.foldl (fun n c => match n, digitValue? base c with
    | some n, some d => some (n * base + d)
    | _, _ => none) (some 0)

/-- A number as it is written: decimal, octal after a zero, or hexadecimal. -/
def numeral? : List Char → Option Nat
  | '0' :: 'x' :: digits | '0' :: 'X' :: digits =>
    if digits.isEmpty then none else digitsValue? 16 digits
  | '0' :: digits => digitsValue? 8 digits
  | [] => none
  | digits => digitsValue? 10 digits

def tokens : (fuel : Nat) → List Char → Option (List Token)
  | 0, _ => none
  | fuel + 1, text =>
    match text.dropWhile fun c => c == ' ' || c == '\t' || c == '\n' with
    | [] => some []
    | c :: cs =>
      if c.isAlphanum || c == '_' then
        let word := (c :: cs).takeWhile fun c => c.isAlphanum || c == '_'
        let more := (c :: cs).drop word.length
        if c.isDigit then do
          return .number (← numeral? word) :: (← tokens fuel more)
        else do
          return .name (String.ofList word) :: (← tokens fuel more)
      else do
        let sign ← signs.find? fun s => s.toList.isPrefixOf (c :: cs)
        return .sign sign :: (← tokens fuel ((c :: cs).drop sign.length))

/-- The operators of each precedence, the strongest first. -/
def levels : List (List (String × Operator)) :=
  [ [("*", .times), ("/", .divide), ("%", .rest)],
    [("+", .plus), ("-", .minus)],
    [("<<", .shiftLeft), (">>", .shiftRight)],
    [("<=", .atMost), (">=", .atLeast), ("<", .less), (">", .greater)],
    [("==", .equal), ("!=", .different)],
    [("&", .bitAnd)], [("^", .bitXor)], [("|", .bitOr)] ]

/-- The signs that assign, with the operator that they apply first. -/
def assignments : List (String × Option Operator) :=
  [("=", none), ("+=", some .plus), ("-=", some .minus), ("*=", some .times),
    ("/=", some .divide), ("%=", some .rest), ("<<=", some .shiftLeft),
    (">>=", some .shiftRight), ("&=", some .bitAnd), ("^=", some .bitXor), ("|=", some .bitOr)]

mutual

def readChoice : (fuel : Nat) → List Token → Option (Expression × List Token)
  | 0, _ => none
  | fuel + 1, tokens => do
    if let .name x :: .sign s :: rest := tokens then
      if let some (_, operator) := assignments.find? (·.1 == s) then
        let (value, rest) ← readChoice fuel rest
        return (.assign x operator value, rest)
    let (condition, rest) ← readEither fuel tokens
    match rest with
    | .sign "?" :: rest => do
      let (yes, rest) ← readChoice fuel rest
      match rest with
      | .sign ":" :: rest => do
        let (no, rest) ← readChoice fuel rest
        return (.choose condition yes no, rest)
      | _ => none
    | _ => return (condition, rest)

def readEither : (fuel : Nat) → List Token → Option (Expression × List Token)
  | 0, _ => none
  | fuel + 1, tokens => do
    let (left, rest) ← readBoth fuel tokens
    match rest with
    | .sign "||" :: rest => do
      let (right, rest) ← readEither fuel rest
      return (.either left right, rest)
    | _ => return (left, rest)

def readBoth : (fuel : Nat) → List Token → Option (Expression × List Token)
  | 0, _ => none
  | fuel + 1, tokens => do
    let (left, rest) ← readLevel fuel levels.reverse tokens
    match rest with
    | .sign "&&" :: rest => do
      let (right, rest) ← readBoth fuel rest
      return (.both left right, rest)
    | _ => return (left, rest)

/-- Operators of some precedences, the weakest first. -/
def readLevel : (fuel : Nat) → List (List (String × Operator)) → List Token →
    Option (Expression × List Token)
  | 0, _, _ => none
  | fuel + 1, [], tokens => readUnary fuel tokens
  | fuel + 1, operators :: stronger, tokens => do
    let (left, rest) ← readLevel fuel stronger tokens
    readOperands fuel operators stronger left rest

def readOperands : (fuel : Nat) → List (String × Operator) → List (List (String × Operator)) →
    Expression → List Token → Option (Expression × List Token)
  | 0, _, _, _, _ => none
  | fuel + 1, operators, stronger, left, tokens =>
    match tokens with
    | .sign s :: rest =>
      match operators.find? (·.1 == s) with
      | some (_, operator) => do
        let (right, rest) ← readLevel fuel stronger rest
        readOperands fuel operators stronger (.binary operator left right) rest
      | none => some (left, tokens)
    | _ => some (left, tokens)

def readUnary : (fuel : Nat) → List Token → Option (Expression × List Token)
  | 0, _ => none
  | fuel + 1, tokens =>
    match tokens with
    | .number n :: rest => some (.literal n, rest)
    | .name x :: rest => some (.variable x, rest)
    | .sign "(" :: rest => do
      let (e, rest) ← readChoice fuel rest
      match rest with
      | .sign ")" :: rest => return (e, rest)
      | _ => none
    | .sign "-" :: rest => do
      let (e, rest) ← readUnary fuel rest
      return (.negative e, rest)
    | .sign "+" :: rest => readUnary fuel rest
    | .sign "!" :: rest => do
      let (e, rest) ← readUnary fuel rest
      return (.not e, rest)
    | .sign "~" :: rest => do
      let (e, rest) ← readUnary fuel rest
      return (.complement e, rest)
    | _ => none

end

inductive Lack where
  | operand
  | ending
  deriving DecidableEq, Repr, Inhabited

def Lack.text : Lack → String
  | operand => "expecting primary"
  | ending => "expecting EOF"

def read (text : List Char) : Except Lack Expression :=
  match tokens (text.length + 1) text with
  | none => .error .ending
  | some [] => .ok (.literal 0)
  | some tokens =>
    match readChoice (32 * tokens.length + 32) tokens with
    | none => .error .operand
    | some (e, []) => .ok e
    | some _ => .error .ending

/-- A number brought into the range of 64 bits. -/
def wrap (n : Int) : Int := n.bmod (maxWord64 + 1)

def ofBool (b : Bool) : Int := if b then 1 else 0

/-- The bits of a number as an unsigned word. -/
def word (n : Int) : Nat := (n % (maxWord64 + 1)).toNat

def Operator.apply? (o : Operator) (a b : Int) : Except Problem Int :=
  match o with
  | times => .ok (wrap (a * b))
  | divide => if b = 0 then .error .divisionByZero else .ok (wrap (a.tdiv b))
  | rest => if b = 0 then .error .divisionByZero else .ok (a.tmod b)
  | plus => .ok (wrap (a + b))
  | minus => .ok (wrap (a - b))
  | shiftLeft => .ok (wrap (a * twoTo (word b % 64)))
  | shiftRight => .ok (a / twoTo (word b % 64))
  | less => .ok (ofBool (a < b))
  | atMost => .ok (ofBool (a ≤ b))
  | greater => .ok (ofBool (b < a))
  | atLeast => .ok (ofBool (b ≤ a))
  | equal => .ok (ofBool (a = b))
  | different => .ok (ofBool (a ≠ b))
  | bitAnd => .ok (wrap (word a &&& word b))
  | bitXor => .ok (wrap (word a ^^^ word b))
  | bitOr => .ok (wrap (word a ||| word b))

/-- The values of variables, the latest first. -/
abbrev Values := List (String × Int)

/-- The value of an expression, and the variables that it sets. `look` gives the value of a
variable that has not been set yet. -/
def evaluate (look : String → Except Problem Int) :
    Expression → Values → Except Problem (Int × Values)
  | .literal n, set => .ok (wrap n, set)
  | .variable x, set =>
    match set.lookup x with
    | some n => .ok (n, set)
    | none => do return (← look x, set)
  | .negative e, set => do
    let (n, set) ← evaluate look e set
    return (wrap (-n), set)
  | .not e, set => do
    let (n, set) ← evaluate look e set
    return (ofBool (n = 0), set)
  | .complement e, set => do
    let (n, set) ← evaluate look e set
    return (-n - 1, set)
  | .binary o a b, set => do
    let (m, set) ← evaluate look a set
    let (n, set) ← evaluate look b set
    return (← o.apply? m n, set)
  | .both a b, set => do
    let (m, set) ← evaluate look a set
    if m = 0 then return (0, set)
    let (n, set) ← evaluate look b set
    return (ofBool (n ≠ 0), set)
  | .either a b, set => do
    let (m, set) ← evaluate look a set
    if m ≠ 0 then return (1, set)
    let (n, set) ← evaluate look b set
    return (ofBool (n ≠ 0), set)
  | .choose c a b, set => do
    let (m, set) ← evaluate look c set
    if m ≠ 0 then evaluate look a set else evaluate look b set
  | .assign x o e, set => do
    let (n, set) ← evaluate look e set
    let value ← match o with
      | none => pure n
      | some o => do
        let old ← match set.lookup x with
          | some m => pure m
          | none => look x
        o.apply? old n
    return (value, (x, value) :: set)

/-- The value that a variable's text stands for: nothing is zero. -/
def ofText (whole : List Char) : Except Problem Int :=
  let blank (c : Char) : Bool := c == ' ' || c == '\t' || c == '\n'
  let text := ((whole.dropWhile blank).reverse.dropWhile blank).reverse
  match text with
  | [] => .ok 0
  | '-' :: digits =>
    match numeral? digits with
    | some n => .ok (wrap (-n))
    | none => .error (.badNumber whole)
  | digits =>
    match numeral? (if digits.head? = some '+' then digits.drop 1 else digits) with
    | some n => .ok (wrap n)
    | none => .error (.badNumber whole)

end AgentGateway.Shell.Arithmetic
