import AgentGateway.Json.Value
import AgentGateway.Binary64.Shortest

/-!
# Writing JSON

The compact form: no blanks between tokens, and every character below the space escaped, so the
text of a value holds no newline. Quotes and backslashes are escaped too; all other characters
stand for themselves.
-/

namespace AgentGateway.Json

def hexDigit (n : Nat) : Char := if n < 10 then Char.ofNat (48 + n) else Char.ofNat (87 + n)

/-- How a character is written inside a string. -/
def escapeChar (c : Char) : List Char :=
  if c = '"' then ['\\', '"']
  else if c = '\\' then ['\\', '\\']
  else if 0x20 ≤ c.toNat then [c]
  else if c = '\n' then ['\\', 'n']
  else if c = '\r' then ['\\', 'r']
  else if c = '\t' then ['\\', 't']
  else if c.toNat = 8 then ['\\', 'b']
  else if c.toNat = 12 then ['\\', 'f']
  else ['\\', 'u', '0', '0', hexDigit (c.toNat / 16), hexDigit (c.toNat % 16)]

def quote (s : String) : List Char := '"' :: (s.toList.flatMap escapeChar ++ ['"'])

/-- A number; one that is not finite has no JSON form and is written as `null`. -/
def Number.chars : Number → List Char
  | .integer n => (toString n).toList
  | .real x => if x.isFinite then x.format.toList else ['n', 'u', 'l', 'l']

mutual

def chars : Json → List Char
  | null => ['n', 'u', 'l', 'l']
  | bool true => ['t', 'r', 'u', 'e']
  | bool false => ['f', 'a', 'l', 's', 'e']
  | number n => n.chars
  | string s => quote s
  | array items => '[' :: charsItems true items ++ [']']
  | object members => '{' :: charsMembers true members ++ ['}']

/-- The items of an array, a comma before each but the first. -/
def charsItems (first : Bool) : List Json → List Char
  | [] => []
  | v :: rest => (if first then [] else [',']) ++ chars v ++ charsItems false rest

/-- The members of an object, a comma before each but the first. -/
def charsMembers (first : Bool) : List (String × Json) → List Char
  | [] => []
  | (k, v) :: rest =>
    (if first then [] else [',']) ++ quote k ++ ':' :: chars v ++ charsMembers false rest

end

def print (v : Json) : String := String.ofList v.chars

end AgentGateway.Json
