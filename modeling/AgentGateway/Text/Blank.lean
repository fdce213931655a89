/-!
# Blank characters

The characters with the white space property, and texts trimmed of them at either end.
-/

namespace AgentGateway.Text

def isBlank (c : Char) : Bool :=
  let n := c.toNat
  (9 ≤ n && n ≤ 13) || n == 0x20 || n == 0x85 || n == 0xA0 || n == 0x1680 ||
    (0x2000 ≤ n && n ≤ 0x200A) || n == 0x2028 || n == 0x2029 || n == 0x202F ||
    n == 0x205F || n == 0x3000

def trimEnd (chars : List Char) : List Char :=
  (chars.reverse.dropWhile isBlank).reverse

def trim (chars : List Char) : List Char := trimEnd (chars.dropWhile isBlank)

end AgentGateway.Text
