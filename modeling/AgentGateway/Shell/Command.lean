import AgentGateway.Text.Utf8

/-!
# Commands

What a shell script says once it has been read: commands made of words, and words made of pieces
whose values are only known when the script runs. All text that a script handles is bytes.
-/

namespace AgentGateway.Shell

abbrev Bytes := List UInt8

def bytes (s : String) : Bytes := Text.Utf8.encode s.toList

/-- What an expansion makes of a parameter: its length, a word in place of a missing value, which
the parameter may keep, a complaint in place of one, a word in place of a value that is there, or
the value without a match of a pattern at its front or back. With `orEmpty` an empty value counts as
none. -/
inductive Treatment where
  | plain
  | length
  | orElse (orEmpty : Bool)
  | assign (orEmpty : Bool)
  | demand (orEmpty : Bool)
  | instead (orEmpty : Bool)
  | cutFront (longest : Bool)
  | cutBack (longest : Bool)
  deriving DecidableEq, Repr, Inhabited

inductive Opening where
  | reading
  | writing
  | appending
  deriving DecidableEq, Repr, Inhabited

/-- How the second of two commands hangs on the first. -/
inductive Junction where
  | always
  | onSuccess
  | onFailure
  deriving DecidableEq, Repr, Inhabited

mutual

/-- A part of a word. Within quotes a value is neither cut into fields nor read as a pattern. -/
inductive Piece where
  | text (value : Bytes) (quoted : Bool)
  | parameter (name : String) (how : Treatment) (operand : List Piece) (quoted : Bool)
  | output (body : Command) (quoted : Bool)
  | number (expression : List Piece) (quoted : Bool)

/-- A change of what a descriptor stands for: a file, a copy of another one or nothing, or a text to
read. -/
inductive Redirection where
  | file (descriptor : Nat) (how : Opening) (path : List Piece)
  | copy (descriptor : Nat) (source : List Piece)
  | document (descriptor : Nat) (text : List Piece)

/-- A command. The commands of a pipeline run at once, each reading what the one before it writes;
`isolate` runs one in a process of its own. A loop runs its body as long as its condition succeeds,
or as long as it fails; `each` runs it for each field of some words, or for each argument. -/
inductive Command where
  | nothing
  | simple (line : Nat) (assignments : List (String × List Piece)) (words : List (List Piece))
      (redirections : List Redirection)
  | join (how : Junction) (first second : Command)
  | negate (body : Command)
  | pipeline (parts : List Command)
  | background (body : Command)
  | isolate (body : Command)
  | redirect (body : Command) (redirections : List Redirection)
  | branch (condition body other : Command)
  | loop (whileSuccess : Bool) (condition body : Command)
  | each (name : String) (words : Option (List (List Piece))) (body : Command)
  | choose (subject : List Piece) (cases : List (List (List Piece) × Command))
  | define (name : String) (body : Command)

end

instance : Inhabited Command := ⟨.nothing⟩

instance : Inhabited Piece := ⟨.text [] false⟩

end AgentGateway.Shell
