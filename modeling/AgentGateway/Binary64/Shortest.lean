import AgentGateway.Binary64.Basic
import AgentGateway.Power

/-!
# Shortest decimal digits

The digits of a finite number: the fewest that read back as the same number, and of those the
nearest to it. The numbers that read back form an interval around the value, whose ends belong to
it when the mantissa is even. On the grid of decimals with `n` digits the only candidates are the
two neighbours of the value, so the first grid with a candidate in the interval settles the
digits.
-/

namespace AgentGateway.Binary64

structure Decimal where
  digits : Nat
  exponent : Int
  deriving DecidableEq, Repr, Inhabited

/-- The interval of values that round to `m · 2 ^ e`, in quarter steps of `2 ^ (e - 2)`: the lower
end, the value and the upper end. Below a power of two the steps are half as wide. -/
def interval (m : Nat) (e : Int) : Nat × Nat × Nat :=
  let lower := if m = leastMantissa ∧ minExponent < e then 4 * m - 1 else 4 * m - 2
  (lower, 4 * m, 4 * m + 2)

def decimalExponent (num den : Nat) : Int :=
  ((Nat.toDigits 10 (num * tenTo 330 / den)).length : Int) - 331

def scaledTen (num den : Nat) (p : Int) : Nat × Nat :=
  if 0 ≤ p then (num, den * tenTo p.toNat) else (num * tenTo (-p).toNat, den)

/-- Whether the decimal `k · 10 ^ p` lies in the interval. -/
def inside (m : Nat) (e p : Int) (k : Nat) : Bool :=
  let (lower, _, upper) := interval m e
  let (unit, den) := magnitude 1 (e - 2)
  let (a, b) := scaledTen (k * den) unit (-p)
  if m % 2 = 0 then lower * b ≤ a && a ≤ upper * b else lower * b < a && a < upper * b

/-- A candidate on the grid of step `10 ^ p` that lies in the interval, nearest to the value. -/
def candidate (m : Nat) (e : Int) (p : Int) : Option Nat :=
  let (_, value, _) := interval m e
  let (unit, den) := magnitude 1 (e - 2)
  let (vn, vd) := scaledTen (value * unit) den p
  let below := vn / vd
  let rest := vn % vd
  let lowFits := inside m e p below
  let highFits := rest != 0 && inside m e p (below + 1)
  if lowFits && highFits then
    if 2 * rest < vd then some below
    else if vd < 2 * rest then some (below + 1)
    else some (below + below % 2)
  else if lowFits then some below
  else if highFits then some (below + 1)
  else none

def shortestFrom (m : Nat) (e : Int) (top : Int) (count : Nat) : List Nat → Decimal
  | [] => let (num, den) := magnitude m e; ⟨num / den, 0⟩
  | _ :: more =>
    let p := top - (count : Int)
    match candidate m e p with
    | some digits => ⟨digits, p⟩
    | none => shortestFrom m e top (count + 1) more

/-- Moves trailing zeros of the digits into the exponent. -/
def Decimal.strip (fuel : Nat) (d : Decimal) : Decimal :=
  match fuel with
  | 0 => d
  | fuel + 1 =>
    if d.digits ≠ 0 ∧ d.digits % 10 = 0 then Decimal.strip fuel ⟨d.digits / 10, d.exponent + 1⟩
    else d

def shortest (m : Nat) (e : Int) : Decimal :=
  if m = 0 then ⟨0, 0⟩
  else
    let (num, den) := magnitude m e
    let d := shortestFrom m e (decimalExponent num den) 0 (List.range 20)
    d.strip 400

def positional (digits : List Char) (point : Int) : String :=
  let count : Int := digits.length
  if point ≤ 0 then
    "0." ++ String.ofList (List.replicate (-point).toNat '0' ++ digits)
  else if count ≤ point then
    String.ofList (digits ++ List.replicate (point - count).toNat '0') ++ ".0"
  else
    String.ofList (digits.take point.toNat) ++ "." ++ String.ofList (digits.drop point.toNat)

/-- One digit before the point and an exponent behind the rest. -/
def scientific (digits : List Char) (point : Int) : String :=
  let mantissa := match digits with
    | [] => "0"
    | [d] => String.singleton d
    | d :: more => String.singleton d ++ "." ++ String.ofList more
  mantissa ++ "e" ++ (if 0 < point then "+" else "") ++ toString (point - 1)

/-- A finite number with a point for moderate sizes and with an exponent below `10 ^ -5` and from
`10 ^ 16` on; the others by name. -/
def format : Binary64 → String
  | nan => "NaN"
  | infinite s => if s then "-inf" else "inf"
  | finite s m e =>
    let d := shortest m e
    let digits := Nat.toDigits 10 d.digits
    let point := (digits.length : Int) + d.exponent
    let sign := if s then "-" else ""
    sign ++ (if m = 0 then "0.0"
      else if -5 < point ∧ point ≤ 16 then positional digits point
      else scientific digits point)

/-- A number with a point however large or small it is. -/
def formatPlain : Binary64 → String
  | nan => "NaN"
  | infinite s => if s then "-inf" else "inf"
  | finite s m e =>
    let d := shortest m e
    let digits := Nat.toDigits 10 d.digits
    let sign := if s then "-" else ""
    sign ++ (if m = 0 then "0.0" else positional digits ((digits.length : Int) + d.exponent))

end AgentGateway.Binary64
