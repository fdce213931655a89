/-!
# Powers and the ends of ranges

Powers of two and of ten, and the ends of the ranges of machine words. Many limits are one of
these.
-/

namespace AgentGateway

def twoTo (n : Nat) : Nat := Nat.pow 2 n

def tenTo (n : Nat) : Nat := Nat.pow 10 n

/-- The largest number of 32 bits without a sign. -/
def maxWord32 : Nat := 4294967295

/-- The largest number of 64 bits without a sign. -/
def maxWord64 : Nat := 18446744073709551615

/-- The largest number of 32 bits with a sign. -/
def maxSigned32 : Nat := 2147483647

/-- The largest number of 64 bits with a sign. -/
def maxSigned64 : Nat := 9223372036854775807

end AgentGateway
