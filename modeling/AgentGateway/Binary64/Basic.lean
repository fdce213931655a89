import AgentGateway.Power

/-!
# Binary floating point, exactly

Numbers of the IEEE 754 format binary64 as plain data. A finite number is its sign, mantissa and
exponent, so it stands for `± mantissa · 2 ^ exponent`; every operation computes the exact result
as a quotient of natural numbers and rounds it once, to the nearest number and to the even one of
two equally near. No machine arithmetic is involved, so every equation about these numbers can be
checked by calculation.
-/

namespace AgentGateway

/-- A number of the format binary64. Finite numbers are kept in the form that `Binary64.IsNormal`
describes, in which each value with a sign has one representation. -/
inductive Binary64 where
  | nan
  | infinite (negative : Bool)
  | finite (negative : Bool) (mantissa : Nat) (exponent : Int)
  deriving DecidableEq, Repr, Inhabited

/-- The nearest natural number to `num / den`, the even one of two equally near. -/
def roundHalfEven (num den : Nat) : Nat :=
  let quotient := num / den
  let rest := num % den
  if 2 * rest < den then quotient
  else if den < 2 * rest then quotient + 1
  else quotient + quotient % 2

namespace Binary64

/-- The exponent of the smallest steps of the format. -/
def minExponent : Int := -1074

def maxExponent : Int := 971

def leastMantissa : Nat := 4503599627370496

def IsNormal : Binary64 → Prop
  | finite _ m e =>
    m < 2 * leastMantissa ∧ minExponent ≤ e ∧ e ≤ maxExponent ∧
      (leastMantissa ≤ m ∨ e = minExponent)
  | _ => True

def zero (negative : Bool) : Binary64 := finite negative 0 minExponent

def scaled (num den : Nat) (e : Int) : Nat × Nat :=
  if 0 ≤ e then (num, den * twoTo e.toNat) else (num * twoTo (-e).toNat, den)

/-- The exponent at which `num / den` has a mantissa of 53 bits, or the least exponent. -/
def exponentFor (num den : Nat) : Int :=
  let guess : Int := (num.log2 : Int) - (den.log2 : Int) - 52
  let (n, d) := scaled num den guess
  let exact := if n < d * leastMantissa then guess - 1 else guess
  max exact minExponent

/-- The whole number of steps of size `2 ^ e` nearest to `num / den`. -/
def stepsAt (num den : Nat) (e : Int) : Nat :=
  roundHalfEven (scaled num den e).1 (scaled num den e).2

/-- The number with this mantissa and exponent, or infinity beyond the largest exponent. -/
def bounded (negative : Bool) (m : Nat) (e : Int) : Binary64 :=
  if maxExponent < e then infinite negative else finite negative m e

/-- The number nearest to `± num / den`; `den` must not be zero. -/
def round (negative : Bool) (num den : Nat) : Binary64 :=
  if num = 0 then zero negative
  else
    let e := exponentFor num den
    let m := stepsAt num den e
    if m = 2 * leastMantissa then bounded negative leastMantissa (e + 1)
    else bounded negative m e

/-- The magnitude of a finite number as a quotient. -/
def magnitude (m : Nat) (e : Int) : Nat × Nat :=
  if 0 ≤ e then (m * twoTo e.toNat, 1) else (m, twoTo (-e).toNat)

def ofNat (n : Nat) : Binary64 := round false n 1

def ofInt (n : Int) : Binary64 := round (n < 0) n.natAbs 1

def ofDecimal (negative : Bool) (digits : Nat) (exponent : Int) : Binary64 :=
  if 0 ≤ exponent then round negative (digits * tenTo exponent.toNat) 1
  else round negative digits (tenTo (-exponent).toNat)

def isNegative : Binary64 → Bool
  | nan => false
  | infinite s | finite s _ _ => s

def isFinite : Binary64 → Bool
  | finite .. => true
  | _ => false

def isZero : Binary64 → Bool
  | finite _ m _ => m == 0
  | _ => false

def neg : Binary64 → Binary64
  | nan => nan
  | infinite s => infinite !s
  | finite s m e => finite (!s) m e

/-- A finite number as an integer count of steps of size `2 ^ exponent`. -/
def signedMantissa (negative : Bool) (m : Nat) : Int := if negative then -(m : Int) else m

/-- The sum, rounded. Two numbers that cancel give the positive zero. -/
def add : Binary64 → Binary64 → Binary64
  | nan, _ | _, nan => nan
  | infinite s, infinite t => if s = t then infinite s else nan
  | infinite s, finite .. | finite .., infinite s => infinite s
  | finite s m e, finite t n f =>
    let low := min e f
    let a := signedMantissa s m * twoTo (e - low).toNat
    let b := signedMantissa t n * twoTo (f - low).toNat
    let sum := a + b
    if sum = 0 then zero (s && t)
    else
      let (num, den) := magnitude sum.natAbs low
      round (sum < 0) num den

def mul : Binary64 → Binary64 → Binary64
  | nan, _ | _, nan => nan
  | infinite s, infinite t => infinite (s != t)
  | infinite s, finite t m _ | finite t m _, infinite s =>
    if m = 0 then nan else infinite (s != t)
  | finite s m e, finite t n f =>
    let (num, den) := magnitude (m * n) (e + f)
    round (s != t) num den

def div : Binary64 → Binary64 → Binary64
  | nan, _ | _, nan => nan
  | infinite _, infinite _ => nan
  | infinite s, finite t .. => infinite (s != t)
  | finite s .., infinite t => zero (s != t)
  | finite s m e, finite t n f =>
    if n = 0 then (if m = 0 then nan else infinite (s != t))
    else
      let (a, b) := magnitude m e
      let (c, d) := magnitude n f
      round (s != t) (a * d) (b * c)

/-- Whether one number is below another; nothing is below or above `nan`. -/
def lt : Binary64 → Binary64 → Bool
  | nan, _ | _, nan => false
  | infinite s, infinite t => s && !t
  | infinite s, finite .. => s
  | finite .., infinite t => !t
  | finite s m e, finite t n f =>
    let low := min e f
    decide (signedMantissa s m * twoTo (e - low).toNat <
      signedMantissa t n * twoTo (f - low).toNat)

/-- Whether two numbers stand for the same value; the two zeros do. -/
def same (a b : Binary64) : Bool :=
  match a, b with
  | nan, _ | _, nan => false
  | _, _ => !a.lt b && !b.lt a

def le (a b : Binary64) : Bool := a.lt b || a.same b

/-- The power by repeated squaring: the base is squared once for each bit of the exponent after
the first, and each set bit multiplies the square of its place into the result. -/
def powBits (fuel : Nat) (base result : Binary64) (exponent : Nat) : Binary64 :=
  match fuel with
  | 0 => result
  | fuel + 1 =>
    let result := if exponent % 2 = 1 then mul result base else result
    if exponent / 2 = 0 then result
    else powBits fuel (mul base base) result (exponent / 2)

def pow (base : Binary64) (exponent : Nat) : Binary64 :=
  powBits (exponent.log2 + 1) base (ofNat 1) exponent

end Binary64

end AgentGateway
