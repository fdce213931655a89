import AgentGateway.Json.Value
import AgentGateway.Binary64.Shortest
import AgentGateway.Text.Quoted

/-!
# What can be wrong with a JSON text

The causes for which a text or a value is refused, each with its wording. A cause found while
reading text is shown with the line and column up to which the text was read.
-/

namespace AgentGateway.Json

inductive Found where
  | null
  | bool (b : Bool)
  | integer (n : Int)
  | real (x : Binary64)
  | string (s : String)
  | sequence
  | map
  deriving DecidableEq, Repr, Inhabited

def Found.describe : Found → String
  | null => "null"
  | bool b => "boolean \x60" ++ toString b ++ "\x60"
  | integer n => "integer \x60" ++ toString n ++ "\x60"
  | real x => "floating point \x60" ++ x.format ++ "\x60"
  | string s => "string " ++ Text.quoted s
  | sequence => "sequence"
  | map => "map"

inductive Cause where
  | endInValue
  | endInString
  | endInObject
  | endInList
  | expectedValue
  | expectedIdent
  | expectedColon
  | expectedObjectEnd
  | expectedListEnd
  | keyMustBeString
  | trailingComma
  | trailingCharacters
  | invalidNumber
  | numberOutOfRange
  | invalidEscape
  | loneSurrogate
  | unexpectedEndOfEscape
  | controlCharacter
  | tooDeep
  | missingField (name : String)
  | duplicateField (name : String)
  | invalidType (found : Found) (wanted : String)
  | invalidValue (found : Found) (wanted : String)
  | invalidLength (length : Nat) (wanted : String)
  deriving DecidableEq, Repr, Inhabited

/-- The wording of a cause, without a position. -/
def Cause.message : Cause → String
  | endInValue => "EOF while parsing a value"
  | endInString => "EOF while parsing a string"
  | endInObject => "EOF while parsing an object"
  | endInList => "EOF while parsing a list"
  | expectedValue => "expected value"
  | expectedIdent => "expected ident"
  | expectedColon => "expected \x60:\x60"
  | expectedObjectEnd => "expected \x60,\x60 or \x60\x7d\x60"
  | expectedListEnd => "expected \x60,\x60 or \x60]\x60"
  | keyMustBeString => "key must be a string"
  | trailingComma => "trailing comma"
  | trailingCharacters => "trailing characters"
  | invalidNumber => "invalid number"
  | numberOutOfRange => "number out of range"
  | invalidEscape => "invalid escape"
  | loneSurrogate => "lone leading surrogate in hex escape"
  | unexpectedEndOfEscape => "unexpected end of hex escape"
  | controlCharacter => "control character (\\u0000-\\u001F) found while parsing a string"
  | tooDeep => "recursion limit exceeded"
  | missingField name => "missing field \x60" ++ name ++ "\x60"
  | duplicateField name => "duplicate field \x60" ++ name ++ "\x60"
  | invalidType found wanted => "invalid type: " ++ found.describe ++ ", expected " ++ wanted
  | invalidValue found wanted => "invalid value: " ++ found.describe ++ ", expected " ++ wanted
  | invalidLength length wanted =>
    "invalid length " ++ toString length ++ ", expected " ++ wanted

structure Problem where
  cause : Cause
  offset : Nat
  deriving DecidableEq, Repr, Inhabited

/-- Line and column of a byte offset: lines count from one, and the column is the number of bytes
of the line that lie before the offset. -/
def positionFrom (offset : Nat) : List Char → (place lineStart line : Nat) → Nat × Nat
  | [], _, lineStart, line => (line, offset - lineStart)
  | c :: rest, place, lineStart, line =>
    if offset ≤ place then (line, offset - lineStart)
    else if c = '\n' then positionFrom offset rest (place + 1) (place + 1) (line + 1)
    else positionFrom offset rest (place + c.utf8Size) lineStart line

def position (text : List Char) (offset : Nat) : Nat × Nat := positionFrom offset text 0 0 1

def Problem.describe (p : Problem) (text : List Char) : String :=
  let (line, column) := position text p.offset
  p.cause.message ++ " at line " ++ toString line ++ " column " ++ toString column

end AgentGateway.Json
