import AgentGateway.Json.Value
import AgentGateway.Power

/-!
# Token usage

What an agent reports to have consumed. Token counts are 64 bits wide and stay at the largest
count once they reach it. A cost is known as soon as one record has named it.
-/

namespace AgentGateway

/-- Tokens read and written, and the cost in dollars when it is known. -/
structure Usage where
  inputTokens : Nat := 0
  outputTokens : Nat := 0
  cost : Option Binary64 := none
  deriving DecidableEq, Repr, Inhabited

namespace Usage

def maxTokens : Nat := maxWord64

/-- The sum of two token counts, or the largest count if the sum is beyond it. -/
def addTokens (a b : Nat) : Nat := min (a + b) maxTokens

/-- Adds what another record reports. The first cost is added to zero. -/
def accumulate (u other : Usage) : Usage where
  inputTokens := addTokens u.inputTokens other.inputTokens
  outputTokens := addTokens u.outputTokens other.outputTokens
  cost := match other.cost with
    | some cost => some ((u.cost.getD (.zero false)).add cost)
    | none => u.cost

def totalTokens (u : Usage) : Nat := addTokens u.inputTokens u.outputTokens

/-- The members of the wire form; an unknown cost is left out. -/
def members (u : Usage) : Json.Members :=
  [("input_tokens", .ofNat u.inputTokens), ("output_tokens", .ofNat u.outputTokens)] ++
    match u.cost with
    | some cost => [("cost_usd", .ofBinary64 cost)]
    | none => []

def toJson (u : Usage) : Json := .ofMembers u.members

end Usage

end AgentGateway
