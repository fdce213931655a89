import AgentGateway.Shell.State

/-!
# Conditions

Conditions on texts, numbers and files, as `test` reads them from its arguments.
-/

namespace AgentGateway.Shell

inductive Objection where
  | badNumber (text : Bytes)
  | misplaced (text : Bytes)
  | missing
  deriving DecidableEq, Repr, Inhabited

def Objection.text : Objection → Bytes
  | badNumber text => bytes "Illegal number: " ++ text
  | misplaced text => text ++ bytes ": unexpected operator"
  | missing => bytes "argument expected"

namespace State

def conditionNumber (text : Bytes) : Except Objection Int :=
  let trimmed := text.dropWhile Filter.isSpace
  let digits := match trimmed with
    | 45 :: rest | 43 :: rest => rest
    | _ => trimmed
  let digits := (digits.reverse.dropWhile Filter.isSpace).reverse
  match count? digits with
  | some n => .ok (if trimmed.head? = some 45 then -(n : Int) else n)
  | none => .error (.badNumber text)

def unary? (s : State) (operator : String) (text : Bytes) : Option Bool :=
  let entry := s.lookAt text
  match operator with
  | "-n" => some (!text.isEmpty)
  | "-z" => some text.isEmpty
  | "-e" => some entry.isSome
  | "-r" | "-w" => some entry.isSome
  | "-f" => some (match entry with
      | some (.document _) | some (.program _) => true
      | _ => false)
  | "-d" => some (entry == some .folder)
  | "-x" => some (match entry with
      | some (.program _) | some .folder => true
      | _ => false)
  | "-s" => some (match entry with
      | some (.document content) => !content.isEmpty
      | some _ => true
      | none => false)
  | "-t" => some false
  | _ => none

def binary? (operator : String) (a b : Bytes) : Option (Except Objection Bool) :=
  let compare (f : Int → Int → Bool) : Except Objection Bool := do
    return f (← conditionNumber a) (← conditionNumber b)
  match operator with
  | "=" | "==" => some (.ok (a == b))
  | "!=" => some (.ok (a != b))
  | "-eq" => some (compare (· == ·))
  | "-ne" => some (compare (· != ·))
  | "-lt" => some (compare fun a b => decide (a < b))
  | "-le" => some (compare fun a b => decide (a ≤ b))
  | "-gt" => some (compare fun a b => decide (b < a))
  | "-ge" => some (compare fun a b => decide (b ≤ a))
  | "<" => some (.ok (Filter.precedes a b && a != b))
  | ">" => some (.ok (Filter.precedes b a && a != b))
  | _ => none

def primary (s : State) : List Bytes → Except Objection Bool
  | [] => .ok false
  | [a] => .ok (!a.isEmpty)
  | [o, a] =>
    if o = [33] then .ok a.isEmpty
    else
      match s.unary? (toText o) a with
      | some b => .ok b
      | none => .error (if o.head? = some 45 then .missing else .misplaced o)
  | [a, o, b] =>
    match binary? (toText o) a b with
    | some r => r
    | none =>
      if a = [33] then (s.primary [o, b]).map (!·)
      else if a = [40] ∧ b = [41] then s.primary [o]
      else .error (.misplaced a)
  | a :: rest =>
    if a = [33] then (s.primary rest).map (!·)
    else .error (.misplaced a)

/-- A condition: alternatives of conjunctions. -/
def condition (s : State) (arguments : List Bytes) : Except Objection Bool :=
  let split (word : String) (xs : List Bytes) : List (List Bytes) :=
    if xs.length ≤ 3 then [xs] else Text.split (· == bytes word) xs
  (split "-o" arguments).foldlM (fun b part =>
    (split "-a" part).foldlM (fun c p => do return c && (← s.primary p)) true
      |>.map (b || ·)) false

end State

/-- The names of signals, with their numbers. -/
def signals : List (String × Nat) :=
  [("HUP", 1), ("INT", 2), ("QUIT", 3), ("ILL", 4), ("TRAP", 5), ("ABRT", 6), ("BUS", 7),
    ("FPE", 8), ("KILL", 9), ("USR1", 10), ("SEGV", 11), ("USR2", 12), ("PIPE", 13), ("ALRM", 14),
    ("TERM", 15), ("STKFLT", 16), ("CHLD", 17), ("CONT", 18), ("STOP", 19), ("TSTP", 20),
    ("TTIN", 21), ("TTOU", 22), ("URG", 23), ("XCPU", 24), ("XFSZ", 25), ("VTALRM", 26),
    ("PROF", 27), ("WINCH", 28), ("IO", 29), ("PWR", 30), ("SYS", 31)]

def signal? (text : String) : Option Nat :=
  let name := text.toUpper
  let name := if name.startsWith "SIG" then (name.drop 3).toString else name
  match signals.lookup name with
  | some n => some n
  | none =>
    match count? (bytes text) with
    | some n => if n ≤ 64 then some n else none
    | none => if name = "EXIT" then some 0 else none

/-- The signals that a process does not notice unless it asks to. -/
def unnoticed : List Nat := [0, 17, 18, 23, 28]

/-- The signals that stop a process for good. -/
def stopping : List Nat := [19, 20, 21, 22]

/-- What is said of a process that a signal has ended. -/
def obituary (signal : Nat) : String :=
  match signal with
  | 1 => "Hangup"
  | 3 => "Quit"
  | 4 => "Illegal instruction"
  | 5 => "Trace/breakpoint trap"
  | 6 => "Aborted"
  | 7 => "Bus error"
  | 8 => "Floating point exception"
  | 9 => "Killed"
  | 10 => "User defined signal 1"
  | 11 => "Segmentation fault"
  | 12 => "User defined signal 2"
  | 14 => "Alarm clock"
  | 15 => "Terminated"
  | n => "Signal " ++ toString n

end AgentGateway.Shell
