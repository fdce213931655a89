import AgentGateway.Shell.Command

/-!
# Patterns

Patterns match whole texts: a star any bytes, a question mark a single byte, and a bracket one
byte of a set.
-/

namespace AgentGateway.Shell

/-- A part of a pattern. By `oneOf` it matches one byte of some ranges, or one of none of them. -/
inductive Wildcard where
  | byte (b : UInt8)
  | any
  | anything
  | oneOf (negated : Bool) (ranges : List (UInt8 × UInt8))
  deriving DecidableEq, Repr, Inhabited

abbrev Pattern := List Wildcard

namespace Pattern

/-- The ranges between brackets, and what follows the bracket that closes them. -/
def ranges : List (UInt8 × Bool) → List (UInt8 × UInt8) → Bool →
    Option (List (UInt8 × UInt8) × List (UInt8 × Bool))
  | [], _, _ => none
  | (93, true) :: rest, done, false => some (done, rest)
  | (a, _) :: (45, true) :: (b, q) :: rest, done, _ =>
    if b = 93 ∧ q then some ((45, 45) :: (a, a) :: done, rest)
    else ranges rest ((a, b) :: done) false
  | (a, _) :: rest, done, _ => ranges rest ((a, a) :: done) false

/-- The pattern that bytes are, of which some stand for themselves only; the fuel bounds the
number of parts. -/
def ofBytes : (fuel : Nat) → List (UInt8 × Bool) → Pattern
  | 0, _ | _, [] => []
  | fuel + 1, (b, special) :: rest =>
    if !special then .byte b :: ofBytes fuel rest
    else if b = 42 then .anything :: ofBytes fuel rest
    else if b = 63 then .any :: ofBytes fuel rest
    else if b = 91 then
      let negated := match rest with
        | (33, _) :: _ | (94, _) :: _ => true
        | _ => false
      match ranges (if negated then rest.drop 1 else rest) [] true with
      | some (set, rest) => .oneOf negated set :: ofBytes fuel rest
      | none => .byte b :: ofBytes fuel rest
    else .byte b :: ofBytes fuel rest

/-- Whether a part that stands for a single byte stands for this one. -/
def accepts (w : Wildcard) (b : UInt8) : Bool :=
  match w with
  | .byte c => b == c
  | .any => true
  | .anything => false
  | .oneOf negated set => (set.any fun r => decide (r.1 ≤ b ∧ b ≤ r.2)) != negated

def matchesAll : Pattern → Bytes → Bool
  | [], text => text.isEmpty
  | .anything :: p, [] => matchesAll p []
  | .anything :: p, b :: text => matchesAll p (b :: text) || matchesAll (.anything :: p) text
  | _ :: _, [] => false
  | w :: p, b :: text => accepts w b && matchesAll p text
termination_by p text => p.length + text.length

/-- The text without the shortest or the longest front that the pattern matches. -/
def cutFront (p : Pattern) (longest : Bool) (text : Bytes) : Bytes :=
  let lengths := List.range (text.length + 1)
  match (if longest then lengths.reverse else lengths).find? fun n =>
    matchesAll p (text.take n) with
  | some n => text.drop n
  | none => text

/-- The text without the shortest or the longest back that the pattern matches. -/
def cutBack (p : Pattern) (longest : Bool) (text : Bytes) : Bytes :=
  let lengths := List.range (text.length + 1)
  match (if longest then lengths else lengths.reverse).find? fun n =>
    matchesAll p (text.drop n) with
  | some n => text.take n
  | none => text

end Pattern

end AgentGateway.Shell
