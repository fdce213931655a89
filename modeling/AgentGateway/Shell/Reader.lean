import AgentGateway.Shell.Command
import AgentGateway.Text.Lines

/-!
# Reading scripts

A script is read one complete command at a time, so that commands before a mistake still run.
Reading goes by descent through lists, pipelines, commands and words; a substitution inside a word
descends into a list again. The fuel is the measure of this descent: every level and every
character takes one, and a script supplies more than it can use.
-/

namespace AgentGateway.Shell

/-- A script that cannot be read: the line of the mistake and what is said of it. -/
structure Fault where
  line : Nat
  text : String
  deriving DecidableEq, Repr, Inhabited

structure Cursor where
  rest : List Char
  lines : Nat
  deriving Repr, Inhabited

namespace Cursor

def ofText (text : List Char) : Cursor := ⟨text, text.count '\n' + 1⟩

def line (c : Cursor) : Nat := c.lines - c.rest.count '\n'

end Cursor

abbrev Reading := EStateM Fault Cursor

namespace Reading

def fail {α : Type} (text : String) : Reading α := do throw ⟨(← get).line, text⟩

def malformed {α : Type} (text : String) : Reading α := fail ("Syntax error: " ++ text)

def rest : Reading (List Char) := do return (← get).rest

def setRest (rest : List Char) : Reading Unit := modify fun c => { c with rest }

def skip (count : Nat) : Reading Unit := modify fun c => { c with rest := c.rest.drop count }

def takeWhile (p : Char → Bool) : Reading (List Char) := do
  let chars := (← rest).takeWhile p
  skip chars.length
  return chars

end Reading

open Reading

/-! ## Characters and tokens -/

/-- Whether a character ends a word that is not quoted. -/
def isDelimiter (c : Char) : Bool := " \t\n;&|()<>".toList.contains c

def isNameStart (c : Char) : Bool := c.isAlpha || c == '_'

def isNameChar (c : Char) : Bool := c.isAlphanum || c == '_'

def isName (s : List Char) : Bool :=
  match s with
  | [] => false
  | c :: cs => isNameStart c && cs.all isNameChar

/-- Leaves out blanks and continued line ends. -/
def dropBlanks : List Char → List Char
  | '\\' :: '\n' :: rest | ' ' :: rest | '\t' :: rest => dropBlanks rest
  | rest => rest

def dropComment (text : List Char) : List Char :=
  match dropBlanks text with
  | '#' :: rest => rest.dropWhile (· != '\n')
  | rest => rest

def skipBlanks : Reading Unit := do setRest (dropComment (← rest))

/-- Leaves out line ends as well; the fuel bounds their number. -/
def dropLines : (fuel : Nat) → List Char → List Char
  | 0, text => text
  | fuel + 1, text =>
    match dropComment text with
    | '\n' :: rest => dropLines fuel rest
    | rest => rest

def skipLines : Reading Unit := do
  let text ← rest
  setRest (dropLines (text.length + 1) text)

/-- The words that have a meaning where a command may stand. -/
def reservedWords : List String :=
  ["!", "case", "do", "done", "elif", "else", "esac", "fi", "for", "if", "in", "then", "until",
    "while", "\x7b", "\x7d"]

def closingWords : List String :=
  ["do", "done", "elif", "else", "esac", "fi", "then", "\x7d"]

def nextToken : Reading String := do
  return String.ofList ((← rest).takeWhile fun c => !isDelimiter c)

def operators : List String := ["&&", "||", ";;", ";", "&", "|", "(", ")"]

/-- How the next token is called in a complaint. -/
def describeNext (text : List Char) : String :=
  match text with
  | [] => "end of file"
  | '\n' :: _ => "newline"
  | '<' :: _ | '>' :: _ => "redirection"
  | _ =>
    match operators.find? fun o => o.toList.isPrefixOf text with
    | some o => "\"" ++ o ++ "\""
    | none =>
      let token := String.ofList (text.takeWhile fun c => !isDelimiter c)
      if reservedWords.contains token then "\"" ++ token ++ "\"" else "word"

def unexpected {α : Type} : Reading α := do malformed (describeNext (← rest) ++ " unexpected")

def unexpectedInstead {α : Type} (wanted : String) : Reading α := do
  malformed (describeNext (← rest) ++ " unexpected (expecting \"" ++ wanted ++ "\")")

def reserved (word : String) : Reading Unit := do
  skipLines
  if (← nextToken) = word then skip word.length else unexpectedInstead word

def atListEnd : Reading Bool := do
  match ← rest with
  | [] | ')' :: _ | ';' :: ';' :: _ => return true
  | _ => return closingWords.contains (← nextToken)

/-! ## Words -/

/-- Where pieces stand, which says what ends them and what is special among them: in a word, between
double quotes, after the operator of an expansion in braces, in an expression between double
parentheses, or in a text that a descriptor reads. -/
inductive Place where
  | bare
  | quoted
  | braced (quoted : Bool)
  | expression
  | document
  deriving DecidableEq, Repr, Inhabited

/-- Whether values that stand there are left whole. -/
def Place.isQuoted : Place → Bool
  | bare => false
  | braced q => q
  | quoted | expression | document => true

def mergeTexts : List Piece → List Piece
  | .text a q :: rest =>
    match mergeTexts rest with
    | .text b r :: more =>
      if q = r then .text (a ++ b) q :: more else .text a q :: .text b r :: more
    | more => .text a q :: more
  | p :: rest => p :: mergeTexts rest
  | [] => []

/-- What a backslash stands for before a character. -/
def escaped (place : Place) (c : Char) : Piece :=
  let special := match place with
    | .document => "$\x60\\"
    | _ => "$\x60\"\\\x7d"
  if c = '\n' then .text [] place.isQuoted
  else if !place.isQuoted || special.toList.contains c then
    .text (Text.Utf8.encodeChar c) true
  else .text (Text.Utf8.encode ['\\', c]) true

/-- The text between backquotes, of which backslashes before special characters are taken away,
and what follows. -/
def backquoted : List Char → List Char → Option (List Char × List Char)
  | [], _ => none
  | '\x60' :: rest, done => some (done.reverse, rest)
  | '\\' :: c :: rest, done =>
    if "$\x60\\".toList.contains c then backquoted rest (c :: done)
    else backquoted rest (c :: '\\' :: done)
  | c :: rest, done => backquoted rest (c :: done)

def parameterName (manyDigits : Bool) : Reading (Option String) := do
  let text ← rest
  match text with
  | c :: _ =>
    if isNameStart c then return some (String.ofList (← takeWhile isNameChar))
    else if c.isDigit then
      let digits := if manyDigits then text.takeWhile Char.isDigit else [c]
      skip digits.length
      return some (String.ofList digits)
    else if "@*#?-$!".toList.contains c then
      skip 1
      return some c.toString
    else return none
  | [] => return none

def treatment : Reading Treatment := do
  let operator (orEmpty : Bool) : Char → Option Treatment
    | '-' => some (.orElse orEmpty)
    | '=' => some (.assign orEmpty)
    | '?' => some (.demand orEmpty)
    | '+' => some (.instead orEmpty)
    | _ => none
  let badSubstitution := fail "Bad substitution"
  match ← rest with
  | '\x7d' :: _ => return .plain
  | '#' :: '#' :: _ => skip 2; return .cutFront true
  | '#' :: _ => skip 1; return .cutFront false
  | '%' :: '%' :: _ => skip 2; return .cutBack true
  | '%' :: _ => skip 1; return .cutBack false
  | ':' :: c :: _ =>
    match operator true c with
    | some t => skip 2; return t
    | none => badSubstitution
  | c :: _ =>
    match operator false c with
    | some t => skip 1; return t
    | none => badSubstitution
  | [] => malformed "Missing '\x7d'"

def splitDocument (delimiter : List Char) (dropTabs : Bool) :
    List (List Char) → List (List Char) → List (List Char) × List (List Char)
  | [], done => (done.reverse, [])
  | line :: rest, done =>
    let line := if dropTabs then line.dropWhile (· == '\t') else line
    if line = delimiter then (done.reverse, rest)
    else splitDocument delimiter dropTabs rest (line :: done)

def joinLines (lines : List (List Char)) : List Char := lines.flatMap (· ++ ['\n'])

/-- The text of a document that is announced here; the rest of the line stays to be read. -/
def takeDocument (delimiter : List Char) (dropTabs : Bool) : Reading (List Char) := do
  let text ← rest
  let line := text.takeWhile (· != '\n')
  let (body, after) := splitDocument delimiter dropTabs
    (Text.split (· == '\n') (text.drop (line.length + 1))) []
  let after := (joinLines after).dropLast
  setRest (if after.isEmpty then line else line ++ '\n' :: after)
  return joinLines body

/-- The characters of a text without its quotes: the delimiter of a document. -/
def unquoted (text : List Char) : List Char :=
  text.filter fun c => !"'\"\\".toList.contains c

/-- What stands before the sign of a redirection. -/
def redirectionAhead : Reading Bool := do
  match (← rest).dropWhile Char.isDigit with
  | '<' :: _ | '>' :: _ => return true
  | _ => return false

def digitsValue (digits : List Char) : Nat :=
  digits.foldl (fun n c => n * 10 + (c.toNat - '0'.toNat)) 0

def assignmentAhead : Reading (Option String) := do
  let text ← rest
  let name := text.takeWhile isNameChar
  if isName name && (text.drop name.length).head? = some '=' then
    return some (String.ofList name)
  else return none

def definitionAhead : Reading (Option String) := do
  let text ← rest
  let name := text.takeWhile isNameChar
  match isName name, dropBlanks (text.drop name.length) with
  | true, '(' :: more =>
    setRest (dropBlanks more)
    match ← rest with
    | ')' :: more =>
      setRest more
      return some (String.ofList name)
    | _ => unexpectedInstead ")"
  | _, _ => return none

/-! ## The descent -/

mutual

/-- Pieces up to what ends them in their place. `depth` counts parentheses in an expression. -/
def readPieces : (fuel : Nat) → Place → (depth : Nat) → List Piece → Reading (List Piece)
  | 0, _, _, done => return done.reverse
  | fuel + 1, place, depth, done => do
    match place, ← rest with
    | .bare, [] | .document, [] => return done.reverse
    | .quoted, [] => malformed "Unterminated quoted string"
    | .braced _, [] => malformed "Missing '\x7d'"
    | .expression, [] => malformed "Missing '))'"
    | .quoted, '"' :: _ | .braced _, '\x7d' :: _ => return done.reverse
    | .expression, ')' :: ')' :: more =>
      if depth = 0 then return done.reverse
      setRest (')' :: more)
      readPieces fuel place (depth - 1) (.text [41] true :: done)
    | _, '\\' :: c :: _ =>
      skip 2
      readPieces fuel place depth (escaped place c :: done)
    | _, '$' :: _ =>
      skip 1
      let piece ← readDollar fuel place.isQuoted
      readPieces fuel place depth (piece :: done)
    | _, '\x60' :: more =>
      match backquoted more [] with
      | none => malformed "EOF in backquote substitution"
      | some (script, after) =>
        let outer ← get
        set (Cursor.ofText script)
        let body ← readList fuel true
        set { outer with rest := after }
        readPieces fuel place depth (.output body place.isQuoted :: done)
    | _, c :: more =>
      if place = .bare ∧ isDelimiter c then return done.reverse
      else if c = '\'' ∧ !place.isQuoted then
        let text := more.takeWhile (· != '\'')
        match more.drop text.length with
        | _ :: after =>
          setRest after
          readPieces fuel place depth (.text (Text.Utf8.encode text) true :: done)
        | [] =>
          setRest []
          malformed "Unterminated quoted string"
      else if c = '"' ∧ place ≠ .document ∧ place ≠ .expression then
        skip 1
        let inner ← readPieces fuel .quoted 0 []
        skip 1
        let inner := if inner.isEmpty then [.text [] true] else inner
        readPieces fuel place depth (inner.reverse ++ done)
      else
        skip 1
        let depth := if place ≠ .expression then depth
          else if c = '(' then depth + 1 else if c = ')' then depth - 1 else depth
        readPieces fuel place depth (.text (Text.Utf8.encodeChar c) place.isQuoted :: done)

def readDollar : (fuel : Nat) → (quoted : Bool) → Reading Piece
  | 0, _ => return .text [36] true
  | fuel + 1, quoted => do
    match ← rest with
    | '(' :: '(' :: _ =>
      skip 2
      let expression ← readPieces fuel .expression 0 []
      skip 2
      return .number (mergeTexts expression) quoted
    | '(' :: _ =>
      skip 1
      let body ← readList fuel true
      match ← rest with
      | ')' :: _ =>
        skip 1
        return .output body quoted
      | _ => unexpectedInstead ")"
    | '\x7b' :: '#' :: '\x7d' :: _ =>
      skip 3
      return .parameter "#" .plain [] quoted
    | '\x7b' :: '#' :: _ =>
      skip 2
      let some name ← parameterName true | fail "Bad substitution"
      let '\x7d' :: _ ← rest | fail "Bad substitution"
      skip 1
      return .parameter name .length [] quoted
    | '\x7b' :: _ =>
      skip 1
      let some name ← parameterName true | fail "Bad substitution"
      let how ← treatment
      let isPattern := match how with
        | .cutFront _ | .cutBack _ => true
        | _ => false
      let operand ← readPieces fuel (.braced (quoted && !isPattern)) 0 []
      skip 1
      return .parameter name how (mergeTexts operand) quoted
    | _ =>
      match ← parameterName false with
      | some name => return .parameter name .plain [] quoted
      | none => return .text [36] quoted

/-- A word, which may be empty if none is there. -/
def readWord : (fuel : Nat) → Reading (List Piece)
  | 0 => return []
  | fuel + 1 => do return mergeTexts (← readPieces fuel .bare 0 [])

def readOperand : (fuel : Nat) → Reading (List Piece)
  | 0 => return []
  | fuel + 1 => do
    skipBlanks
    let word ← readWord fuel
    if word.isEmpty then unexpected else return word

def readRedirection : (fuel : Nat) → Reading Redirection
  | 0 => unexpected
  | fuel + 1 => do
    let digits ← takeWhile Char.isDigit
    let descriptor (usual : Nat) := if digits.isEmpty then usual else digitsValue digits
    match ← rest with
    | '<' :: '<' :: more =>
      let dropTabs := more.head? = some '-'
      skip (if dropTabs then 3 else 2)
      skipBlanks
      let word ← takeWhile fun c => !isDelimiter c
      let delimiter := unquoted word
      let text ← takeDocument delimiter dropTabs
      if delimiter ≠ word then
        return .document (descriptor 0) [.text (Text.Utf8.encode text) true]
      let outer ← get
      set (Cursor.ofText text)
      let pieces ← readPieces fuel .document 0 []
      set outer
      return .document (descriptor 0) (mergeTexts pieces)
    | '<' :: '&' :: _ => skip 2; return .copy (descriptor 0) (← readOperand fuel)
    | '<' :: _ => skip 1; return .file (descriptor 0) .reading (← readOperand fuel)
    | '>' :: '>' :: _ => skip 2; return .file (descriptor 1) .appending (← readOperand fuel)
    | '>' :: '&' :: _ => skip 2; return .copy (descriptor 1) (← readOperand fuel)
    | '>' :: '|' :: _ => skip 2; return .file (descriptor 1) .writing (← readOperand fuel)
    | '>' :: _ => skip 1; return .file (descriptor 1) .writing (← readOperand fuel)
    | _ => unexpected

def readRedirections : (fuel : Nat) → List Redirection → Reading (List Redirection)
  | 0, done => return done.reverse
  | fuel + 1, done => do
    skipBlanks
    if ← redirectionAhead then
      let r ← readRedirection fuel
      readRedirections fuel (r :: done)
    else return done.reverse

def readSimple : (fuel : Nat) → (line : Nat) → List (String × List Piece) → List (List Piece) →
    List Redirection → Reading Command
  | 0, line, assignments, words, redirections =>
    return .simple line assignments.reverse words.reverse redirections.reverse
  | fuel + 1, line, assignments, words, redirections => do
    skipBlanks
    if ← redirectionAhead then
      let r ← readRedirection fuel
      readSimple fuel line assignments words (r :: redirections)
    else
      let name ← if words.isEmpty then assignmentAhead else pure none
      match name with
      | some name =>
        skip (name.length + 1)
        let value ← readWord fuel
        readSimple fuel line ((name, value) :: assignments) words redirections
      | none =>
        match ← readWord fuel with
        | [] =>
          match ← rest with
          | '(' :: _ => unexpected
          | _ => return .simple line assignments.reverse words.reverse redirections.reverse
        | word => readSimple fuel line assignments (word :: words) redirections

def readWords : (fuel : Nat) → List (List Piece) → Reading (List (List Piece))
  | 0, done => return done.reverse
  | fuel + 1, done => do
    skipBlanks
    match ← readWord fuel with
    | [] => return done.reverse
    | word => readWords fuel (word :: done)

/-- The patterns of a case, up to the parenthesis behind them. -/
def readPatterns : (fuel : Nat) → List (List Piece) → Reading (List (List Piece))
  | 0, done => return done.reverse
  | fuel + 1, done => do
    skipBlanks
    let word ← readWord fuel
    if word.isEmpty then unexpectedInstead ")"
    skipBlanks
    match ← rest with
    | '|' :: _ =>
      skip 1
      readPatterns fuel (word :: done)
    | ')' :: _ =>
      skip 1
      return (word :: done).reverse
    | _ => unexpectedInstead ")"

def readCases : (fuel : Nat) → List (List (List Piece) × Command) →
    Reading (List (List (List Piece) × Command))
  | 0, done => return done.reverse
  | fuel + 1, done => do
    skipLines
    if (← nextToken) = "esac" then
      skip 4
      return done.reverse
    if (← rest).head? = some '(' then skip 1
    let patterns ← readPatterns fuel []
    let body ← readList fuel true
    match ← rest with
    | ';' :: ';' :: _ =>
      skip 2
      readCases fuel ((patterns, body) :: done)
    | _ =>
      skipLines
      if (← nextToken) = "esac" then
        skip 4
        return ((patterns, body) :: done).reverse
      else unexpectedInstead ";;"

def readBranch : (fuel : Nat) → Reading Command
  | 0 => unexpected
  | fuel + 1 => do
    let condition ← readBody fuel
    reserved "then"
    let body ← readBody fuel
    match ← nextToken with
    | "elif" =>
      skip 4
      return .branch condition body (← readBranch fuel)
    | "else" =>
      skip 4
      let other ← readBody fuel
      reserved "fi"
      return .branch condition body other
    | _ =>
      reserved "fi"
      return .branch condition body .nothing

def readDo : (fuel : Nat) → Reading Command
  | 0 => unexpected
  | fuel + 1 => do
    reserved "do"
    let body ← readBody fuel
    reserved "done"
    return body

def readCommand : (fuel : Nat) → Reading Command
  | 0 => unexpected
  | fuel + 1 => do
    skipBlanks
    let compound (body : Command) : Reading Command := do
      match ← readRedirections fuel [] with
      | [] => return body
      | rs => return .redirect body rs
    if (← rest).head? = some '(' then
      skip 1
      let body ← readBody fuel
      match ← rest with
      | ')' :: _ =>
        skip 1
        compound (.isolate body)
      | _ => unexpectedInstead ")"
    else
      match ← nextToken with
      | "\x7b" =>
        skip 1
        let body ← readBody fuel
        reserved "\x7d"
        compound body
      | "if" =>
        skip 2
        compound (← readBranch fuel)
      | "while" =>
        skip 5
        let condition ← readBody fuel
        compound (.loop true condition (← readDo fuel))
      | "until" =>
        skip 5
        let condition ← readBody fuel
        compound (.loop false condition (← readDo fuel))
      | "for" =>
        skip 3
        skipBlanks
        let name ← takeWhile isNameChar
        if !isName name then malformed "Bad for loop variable"
        skipLines
        let words ← if (← nextToken) = "in" then do
            skip 2
            let words ← readWords fuel []
            pure (some words)
          else pure none
        skipBlanks
        match ← rest with
        | ';' :: _ => skip 1
        | '\n' :: _ => pure ()
        | _ => if words.isSome then unexpected
        compound (.each (String.ofList name) words (← readDo fuel))
      | "case" =>
        skip 4
        skipBlanks
        let subject ← readWord fuel
        if subject.isEmpty then
          malformed (describeNext (← rest) ++ " unexpected (expecting word)")
        reserved "in"
        compound (.choose subject (← readCases fuel []))
      | token =>
        if reservedWords.contains token ∧ token ≠ "in" then unexpected
        else
          match ← definitionAhead with
          | some name =>
            skipLines
            return .define name (← readCommand fuel)
          | none =>
            let line := (← get).line
            match ← readSimple fuel line [] [] [] with
            | .simple _ [] [] [] => unexpected
            | command => return command

def readPipes : (fuel : Nat) → List Command → Reading (List Command)
  | 0, done => return done.reverse
  | fuel + 1, done => do
    skipBlanks
    match ← rest with
    | '|' :: '|' :: _ => return done.reverse
    | '|' :: _ =>
      skip 1
      skipLines
      let next ← readCommand fuel
      readPipes fuel (next :: done)
    | _ => return done.reverse

def readPipeline : (fuel : Nat) → Reading Command
  | 0 => unexpected
  | fuel + 1 => do
    skipBlanks
    if (← nextToken) = "!" then
      skip 1
      return .negate (← readPipeline fuel)
    let first ← readCommand fuel
    match ← readPipes fuel [first] with
    | [single] => return single
    | parts => return .pipeline parts

/-- The pipelines that hang on those before them. -/
def readJunctions : (fuel : Nat) → Command → Reading Command
  | 0, done => return done
  | fuel + 1, done => do
    skipBlanks
    match ← rest with
    | '&' :: '&' :: _ =>
      skip 2
      skipLines
      let next ← readPipeline fuel
      readJunctions fuel (.join .onSuccess done next)
    | '|' :: '|' :: _ =>
      skip 2
      skipLines
      let next ← readPipeline fuel
      readJunctions fuel (.join .onFailure done next)
    | _ => return done

def readList : (fuel : Nat) → (manyLines : Bool) → Reading Command
  | 0, _ => return .nothing
  | fuel + 1, manyLines => do
    if manyLines then skipLines else skipBlanks
    if ← atListEnd then return .nothing
    let first ← readPipeline fuel
    let first ← readJunctions fuel first
    let continued (first : Command) : Reading Command := do
      return .join .always first (← readList fuel manyLines)
    match ← rest with
    | ';' :: ';' :: _ => return first
    | ';' :: _ =>
      skip 1
      continued first
    | '&' :: _ =>
      skip 1
      continued (.background first)
    | '\n' :: _ => if manyLines then continued first else return first
    | _ => return first

/-- A list that may not be empty, unless the script ends with it. -/
def readBody : (fuel : Nat) → Reading Command
  | 0 => unexpected
  | fuel + 1 => do
    match ← readList fuel true with
    | .nothing => if (← rest).isEmpty then return .nothing else unexpected
    | body => return body

end

/-- More levels and characters than the descent takes for a script. -/
def readingFuel (text : List Char) : Nat := 32 * text.length + 256

def readComplete : Reading (Option Command) := do
  skipLines
  let text ← rest
  if text.isEmpty then return none
  let command ← readList (readingFuel text) false
  match ← rest with
  | [] | '\n' :: _ => return some command
  | _ => unexpected

end AgentGateway.Shell
