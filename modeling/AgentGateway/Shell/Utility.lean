import AgentGateway.Power
import AgentGateway.Shell.Filter
import AgentGateway.Shell.Port
import AgentGateway.SystemError

/-!
# Utilities

Programs that run beside the shell. What one does is a function of how it is invoked: what it
writes and when, what it leaves unread, and when and how it exits. One that waits for more of a
source that does not end does not exit.
-/

namespace AgentGateway.Shell

/-- How a utility is invoked. -/
structure Invocation where
  arguments : List Bytes := []
  input : Source := {}
  start : Duration := .zero
  environment : List (String × Bytes) := []
  directory : String := "/"
  opens : Bytes → Except SystemError Source

/-- What a utility does. Errors are written at the start, it may not exit, and `input` is what it
leaves unread. -/
structure Effect where
  output : List (Duration × Bytes) := []
  complaint : Bytes := []
  finish : Option Duration
  status : Nat := 0
  input : Source := {}
  deriving Repr, Inhabited

def reason (e : SystemError) : String :=
  let text := e.text.toList
  match (List.range text.length).find? fun n => " (os error".toList.isPrefixOf (text.drop n) with
  | some n => String.ofList (text.take n)
  | none => e.text

namespace Invocation

def writes (i : Invocation) (text : Bytes) (status : Nat := 0) : Effect :=
  { output := [(i.start, text)], finish := some i.start, status, input := i.input }

def complains (i : Invocation) (text : String) (status : Nat := 1) : Effect :=
  { complaint := bytes (text ++ "\n"), finish := some i.start, status, input := i.input }

/-- The sources that files stand for; a dash stands for the input, and so does no file at all. -/
def sources (i : Invocation) (name : String) (files : List Bytes) : List Source × Bytes :=
  (if files.isEmpty then [[45]] else files).foldr (fun file (found, complaint) =>
    if file = [45] then (i.input :: found, complaint)
    else
      match i.opens file with
      | .ok s => (s :: found, complaint)
      | .error e =>
        (found, bytes (name ++ ": ") ++ file ++ bytes (": " ++ reason e ++ "\n") ++ complaint))
    ([], [])

/-- Reads files to their end and writes what a function makes of them. -/
def filters (i : Invocation) (name : String) (files : List Bytes)
    (f : Bytes → Bytes × Nat) : Effect :=
  let (found, complaint) := i.sources name files
  let finish := found.foldl (fun t s => t.bind s.finish?) (some i.start)
  match finish with
  | none => { complaint, finish := none }
  | some t =>
    let (out, status) := f (found.map Source.all).flatten
    { output := [(t, out)], complaint, finish := some t
      status := if complaint.isEmpty then status else 1
      input := { ending := i.input.ending } }

def numberLines (i : Invocation) (files : List Bytes) : Effect :=
  i.filters "cat" files fun text =>
    let numbered := ((Filter.lines text).zipIdx 1).map fun (line, n) =>
      fill false 6 (bytes (toString n)) ++ 9 :: line
    let out := Filter.unlines numbered
    (if text.getLast? = some 10 then out else out.dropLast, 0)

def cat (i : Invocation) : Effect :=
  if i.arguments.head? = some (bytes "-n") then i.numberLines (i.arguments.drop 1) else
  let (found, complaint) := i.sources "cat" (i.arguments.filter fun a => a != bytes "-u")
  let (output, finish) := found.foldl (fun (output, t) s =>
    match t with
    | none => (output, none)
    | some t => (output ++ s.chunks.map (fun c => (Source.later t c.1, c.2)), s.finish? t))
    (([] : List (Duration × Bytes)), some i.start)
  { output, complaint, finish, status := if complaint.isEmpty then 0 else 1
    input := { ending := i.input.ending } }

end Invocation

def count? (digits : Bytes) : Option Nat :=
  if !digits.isEmpty && digits.all isDigitByte then
    some (digits.foldl (fun n b => n * 10 + (b.toNat - 48)) 0)
  else none

/-- How much of a file is wanted. -/
inductive Extent where
  | lines (count : Nat)
  | bytes (count : Nat)
  | fromLine (number : Nat)
  | fromByte (number : Nat)
  deriving DecidableEq, Repr, Inhabited

def extentOf (inBytes : Bool) (value : Bytes) : Option Extent :=
  match value with
  | 43 :: digits => (count? digits).map (if inBytes then Extent.fromByte else .fromLine)
  | _ => (count? value).map (if inBytes then Extent.bytes else .lines)

def extent : List Bytes → Extent → Option (Extent × List Bytes)
  | [], e => some (e, [])
  | [45, 110] :: value :: rest, _ => (extentOf false value).bind (extent rest)
  | [45, 99] :: value :: rest, _ => (extentOf true value).bind (extent rest)
  | (45 :: 110 :: value) :: rest, _ => (extentOf false value).bind (extent rest)
  | (45 :: 99 :: value) :: rest, _ => (extentOf true value).bind (extent rest)
  | (45 :: d :: value) :: rest, _ => (extentOf false (d :: value)).bind (extent rest)
  | file :: rest, e => (extent rest e).map fun (e, files) => (e, file :: files)

def takeLines : (count : Nat) → Source → Duration → List Bytes →
    List Bytes × Option Duration × Source
  | 0, s, t, done => (done.reverse, some t, s)
  | n + 1, s, t, done =>
    match Source.takeLine s.chunks s.ending t with
    | (line, true, some t, s) => takeLines n s t ((line ++ [10]) :: done)
    | (line, _, finish, s) => ((line :: done).reverse, finish, s)

namespace Invocation

def head (i : Invocation) : Effect :=
  match extent i.arguments (.lines 10) with
  | some (wanted, files) =>
    match i.sources "head" (files.take 1) with
    | (source :: _, complaint) =>
      let (text, finish, left) := match wanted with
        | .bytes n => source.take n i.start
        | .lines n | .fromLine n | .fromByte n =>
          let (lines, finish, left) := takeLines n source i.start []
          (lines.flatten, finish, left)
      { output := finish.toList.map (·, text), complaint, finish
        input := if files.isEmpty then left else i.input }
    | ([], complaint) => { complaint, finish := some i.start, status := 1, input := i.input }
  | none => i.complains "head: invalid option"

def tail (i : Invocation) : Effect :=
  match extent i.arguments (.lines 10) with
  | some (wanted, files) =>
    i.filters "tail" files fun text =>
      let lines := Filter.lines text
      let keep (lines : List Bytes) : Bytes :=
        let out := Filter.unlines lines
        if text.getLast? = some 10 then out else out.dropLast
      (match wanted with
        | .bytes n => Filter.lastOf n text
        | .lines n => keep (Filter.lastOf n lines)
        | .fromByte n => text.drop (n - 1)
        | .fromLine n => keep (lines.drop (n - 1)), 0)
  | none => i.complains "tail: invalid option"

def wc (i : Invocation) : Effect :=
  let isOption (a : Bytes) : Bool := a.head? = some 45 && a.length > 1
  let options : Bytes := (i.arguments.filter isOption).flatMap (·.drop 1)
  let files := i.arguments.filter fun a => !isOption a
  i.filters "wc" files fun text =>
    let c := Filter.census text
    let wants (letter : UInt8) : Bool := options.isEmpty || options.contains letter
    let characters := if options.contains 109 then
      [(text.filter fun b => b < 128 || 192 ≤ b).length] else []
    let counts := (if wants 108 then [c.lines] else []) ++ (if wants 119 then [c.words] else []) ++
      characters ++ (if wants 99 then [c.bytes] else [])
    let shown := match counts with
      | [n] => bytes (toString n)
      | _ => List.intercalate [32] (counts.map fun n => fill false 7 (bytes (toString n)))
    (shown ++ (match files with
      | [] => []
      | file :: _ => 32 :: file) ++ [10], 0)

def tr (i : Invocation) : Effect :=
  let options : Bytes := (i.arguments.takeWhile fun a => a.head? = some 45 && a.length > 1).flatMap
    (·.drop 1)
  let sets := i.arguments.dropWhile fun a => a.head? = some 45 && a.length > 1
  let t : Filter.Exchange :=
    { complement := options.contains 99 || options.contains 67
      delete := options.contains 100, squeezes := options.contains 115, sets }
  if sets.isEmpty then
    i.complains "tr: missing operand\nTry 'tr --help' for more information."
  else i.filters "tr" [] fun text => (t.apply text, 0)

def cut (i : Invocation) : Effect :=
  let rec options : List Bytes → UInt8 → Option (Bool × Bytes) → List Bytes →
      UInt8 × Option (Bool × Bytes) × List Bytes
    | [], mark, list, files => (mark, list, files.reverse)
    | [45, 100] :: (m :: _) :: rest, _, list, files => options rest m list files
    | (45 :: 100 :: m :: _) :: rest, _, list, files => options rest m list files
    | [45, 102] :: l :: rest, mark, _, files => options rest mark (some (true, l)) files
    | (45 :: 102 :: l) :: rest, mark, _, files => options rest mark (some (true, l)) files
    | [45, 99] :: l :: rest, mark, _, files | [45, 98] :: l :: rest, mark, _, files =>
      options rest mark (some (false, l)) files
    | (45 :: 99 :: l) :: rest, mark, _, files | (45 :: 98 :: l) :: rest, mark, _, files =>
      options rest mark (some (false, l)) files
    | file :: rest, mark, list, files => options rest mark list (file :: files)
  let (mark, list, files) := options i.arguments 9 none []
  match list.bind fun (byFields, l) => (Filter.ranges l).map (byFields, ·) with
  | some (byFields, positions) =>
    i.filters "cut" files fun text =>
      (Filter.unlines ((Filter.lines text).map fun line =>
        if byFields then Filter.fields mark positions line
        else Filter.choose positions line), 0)
  | none => i.complains "cut: invalid list"

/-- The single letters among options, and the files. -/
def letters (i : Invocation) : Bytes × List Bytes :=
  ((i.arguments.filter fun a => a.head? = some 45 && a.length > 1).flatMap (·.drop 1),
    i.arguments.filter fun a => !(a.head? = some 45 && a.length > 1))

def sort (i : Invocation) : Effect :=
  let (options, files) := i.letters
  i.filters "sort" files fun text =>
    (Filter.unlines (Filter.sorted (options.contains 110) (options.contains 114)
      (options.contains 117) (Filter.lines text)), 0)

def uniq (i : Invocation) : Effect :=
  let (options, files) := i.letters
  i.filters "uniq" files fun text =>
    (Filter.unlines ((Filter.runs (Filter.lines text)).map fun (n, line) =>
      if options.contains 99 then fill false 7 (bytes (toString n)) ++ 32 :: line else line), 0)

def grep (i : Invocation) : Effect :=
  let (options, operands) := i.letters
  match operands with
  | [] => i.complains "Usage: grep [OPTION]... PATTERNS [FILE]..." 2
  | pattern :: files =>
    i.filters "grep" files fun text =>
      let search := Filter.Search.ofBytes pattern
      let found := (Filter.lines text).filter fun line =>
        search.finds line != options.contains 118
      let status := if found.isEmpty then 1 else 0
      if options.contains 113 then ([], status)
      else if options.contains 99 then (bytes (toString found.length ++ "\n"), status)
      else (Filter.unlines found, status)

def seq (i : Invocation) : Effect :=
  let rec run : (fuel : Nat) → Int → Int → Int → List Bytes → List Bytes
    | 0, _, _, _, done => done.reverse
    | fuel + 1, n, step, last, done =>
      if (0 < step ∧ n ≤ last) ∨ (step < 0 ∧ last ≤ n) then
        run fuel (n + step) step last (bytes (toString n) :: done)
      else done.reverse
  let numbers := i.arguments.map numberOf
  if numbers.any fun n => !n.2 then i.complains "seq: invalid floating point argument"
  else
    match numbers.map (·.1) with
    | [last] => i.writes (Filter.unlines (run (last.natAbs + 1) 1 1 last []))
    | [first, last] =>
      i.writes (Filter.unlines (run ((last - first).natAbs + 1) first 1 last []))
    | [first, step, last] =>
      i.writes (Filter.unlines (run ((last - first).natAbs + 1) first step last []))
    | _ => i.complains "seq: missing operand"

/-- A span as it is written: a decimal number and perhaps a unit. -/
def span? (text : Bytes) : Option Duration :=
  let whole := text.takeWhile isDigitByte
  let rest := text.drop whole.length
  let (fraction, unit) := match rest with
    | 46 :: more => (more.takeWhile isDigitByte, more.dropWhile isDigitByte)
    | _ => ([], rest)
  let factor := match unit with
    | [] | [115] => some 1
    | [109] => some 60
    | [104] => some 3600
    | [100] => some 86400
    | _ => none
  if whole.isEmpty ∧ fraction.isEmpty then none
  else factor.map fun factor =>
    ⟨(digits (whole ++ fraction) * factor * Duration.nanosPerSecond) / tenTo fraction.length⟩
where
  /-- The number that digits are. -/
  digits (ds : Bytes) : Nat := ds.foldl (fun n b => n * 10 + (b.toNat - 48)) 0

def sleep (i : Invocation) : Effect :=
  if i.arguments.isEmpty then
    i.complains "sleep: missing operand\nTry 'sleep --help' for more information."
  else if i.arguments = [bytes "infinity"] then { finish := none, input := i.input }
  else
    match i.arguments.find? fun a => (span? a).isNone with
    | some a =>
      { (i.complains "") with
        complaint := bytes "sleep: invalid time interval '" ++ a ++
          bytes "'\nTry 'sleep --help' for more information.\n" }
    | none =>
      { finish := some (i.arguments.foldl (fun t a => t + (span? a).getD .zero) i.start)
        input := i.input }

def echo (i : Invocation) : Effect :=
  let rec options : List Bytes → Bool → Bool → Bool × Bool × List Bytes
    | [45, 110] :: rest, _, escapes => options rest false escapes
    | [45, 101] :: rest, newline, _ => options rest newline true
    | [45, 69] :: rest, newline, _ => options rest newline false
    | rest, newline, escapes => (newline, escapes, rest)
  let (newline, escapes, words) := options i.arguments true false
  let text := List.intercalate [32] words
  let (text, stop) := if escapes then unescape (text.length + 1) text [] else (text, false)
  i.writes (if newline && !stop then text ++ [10] else text)

/-- Writes its arguments as a format writes. -/
def printf (i : Invocation) : Effect :=
  match i.arguments with
  | format :: arguments => i.writes (formatted format arguments).written.reverse
  | [] => i.complains "printf: missing operand\nTry 'printf --help' for more information."

/-- Writes the variables, or some of their values. -/
def printenv (i : Invocation) : Effect :=
  match i.arguments with
  | [] => i.writes (Filter.unlines (i.environment.map fun (x, v) => bytes (x ++ "=") ++ v))
  | names =>
    let values := names.map fun x =>
      i.environment.lookup (String.ofList (Text.Utf8.decodeLossy x))
    i.writes (Filter.unlines (values.filterMap id)) (if values.all Option.isSome then 0 else 1)

def rev (i : Invocation) : Effect :=
  i.filters "rev" i.arguments fun text =>
    (Filter.unlines ((Filter.lines text).map List.reverse), 0)

def tac (i : Invocation) : Effect :=
  i.filters "tac" i.arguments fun text => (Filter.unlines (Filter.lines text).reverse, 0)

def yes (i : Invocation) : Effect :=
  let line := if i.arguments.isEmpty then [121] else List.intercalate [32] i.arguments
  { output := (Source.endless (line ++ [10])).chunks.map fun c => (i.start, c.2)
    finish := none, input := i.input }

end Invocation

def utility? (name : String) : Option (Invocation → Effect) :=
  match name with
  | "cat" => some Invocation.cat
  | "cut" => some Invocation.cut
  | "echo" => some Invocation.echo
  | "false" => some fun i => i.writes [] 1
  | "grep" => some Invocation.grep
  | "head" => some Invocation.head
  | "printenv" | "env" => some Invocation.printenv
  | "printf" => some Invocation.printf
  | "pwd" => some fun i => i.writes (bytes (i.directory ++ "\n"))
  | "rev" => some Invocation.rev
  | "seq" => some Invocation.seq
  | "sleep" => some Invocation.sleep
  | "sort" => some Invocation.sort
  | "tac" => some Invocation.tac
  | "tail" => some Invocation.tail
  | "tr" => some Invocation.tr
  | "true" => some fun i => i.writes []
  | "uniq" => some Invocation.uniq
  | "wc" => some Invocation.wc
  | "yes" => some Invocation.yes
  | _ => none

end AgentGateway.Shell
