import AgentGateway.Duration

/-!
# How long an execution may run

How long an answer takes depends only loosely on its size, so the rule is a value: the same time
for every prompt, or a time that grows with the budget of tokens between a floor and a ceiling.
-/

namespace AgentGateway

/-- A rule for the time limit of an execution: the same limit for every prompt, or a floor, an
addition for each thousand tokens, and a ceiling. -/
inductive TimeoutPolicy where
  | fixed (limit : Duration)
  | scaled (base perThousand max : Duration)
  deriving DecidableEq, Repr, Inhabited

namespace TimeoutPolicy

/-- The time added for a budget of tokens, if it is a representable span. -/
def addition? (perThousand : Duration) (tokens : Nat) : Option Duration :=
  perThousand.scale? ((Binary64.ofNat tokens).div (Binary64.ofNat 1000))

/-- The limit for a prompt. A prompt without a budget gets the floor. There is no limit when the
addition is not a representable span, however low the ceiling is. -/
def limit? (p : TimeoutPolicy) (maxTokens : Option Nat) : Option Duration :=
  match p with
  | fixed limit => some limit
  | scaled base perThousand max =>
    match maxTokens with
    | none => some (base.min max)
    | some tokens =>
      (addition? perThousand tokens).map fun addition => (base.saturatingAdd addition).min max

end TimeoutPolicy

end AgentGateway
