import AgentGateway.Text.Unprintable

/-!
# Quoted text

A text between quotes, as diagnostics show it: quotes and backslashes are escaped, the common
controls have short forms, and other characters without a shape are shown by number.
-/

namespace AgentGateway.Text

/-- The hexadecimal digits of a number, in lower case. -/
def hexText (n : Nat) : List Char := Nat.toDigits 16 n

def quotedChar (c : Char) : List Char :=
  if c = '"' then ['\\', '"']
  else if c = '\\' then ['\\', '\\']
  else if c = '\n' then ['\\', 'n']
  else if c = '\r' then ['\\', 'r']
  else if c = '\t' then ['\\', 't']
  else if c.toNat = 0 then ['\\', '0']
  else if isUnprintable c then ['\\', 'u', '\x7b'] ++ hexText c.toNat ++ ['\x7d']
  else [c]

def quoted (s : String) : String :=
  String.ofList ('"' :: (s.toList.flatMap quotedChar ++ ['"']))

end AgentGateway.Text
