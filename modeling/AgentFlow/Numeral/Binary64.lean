/-!
# Double-precision numbers

A double is a sign, a mantissa below `2 ^ 53` and a power of two from `2 ^ (-1074)` on, or an
infinity, or no number at all. Doubles enter the library by rounding an exact fraction to the
nearest double, ties to the even mantissa; all arithmetic here is exact arithmetic on naturals.
-/

namespace AgentFlow.Numeral

/-- A double-precision number; `finite s m e` stands for `m * 2 ^ e`, negated if `s`. -/
inductive Binary64 where
  | finite (negative : Bool) (mantissa : Nat) (exponent : Int)
  | infinite (negative : Bool)
  | notANumber
  deriving DecidableEq, Repr

/-- The quotient rounded to the nearest natural number, a half to the even one. -/
def roundDiv (num den : Nat) : Nat :=
  let q := num / den
  let twice := 2 * (num % den)
  if twice < den then q
  else if den < twice then q + 1
  else if q % 2 = 0 then q else q + 1

/-- Numerator and denominator of `num / den` divided by a power of two. -/
def scaleDown (num den : Nat) : (exponent : Int) → Nat × Nat
  | .ofNat e => (num, den * Nat.pow 2 e)
  | .negSucc e => (num * Nat.pow 2 (e + 1), den)

namespace Binary64

def minExponent : Int := -1074

def maxExponent : Int := 971

def zero (negative : Bool) : Binary64 := .finite negative 0 minExponent

/-- The exponent at which the mantissa of a positive fraction has 53 binary digits, or the least
exponent if that is greater. -/
def exponentOf (num den : Nat) : Int :=
  let guess : Int := (num.log2 : Int) - (den.log2 : Int) - 52
  let (n, d) := scaleDown num den guess
  -- the logarithms are rounded down, so the guess can be one too high
  max minExponent (if n / d < Nat.pow 2 52 then guess - 1 else guess)

/-- The double nearest to a fraction, ties to the even mantissa; beyond the greatest double it is an
infinity. -/
def ofFraction (negative : Bool) (num den : Nat) : Binary64 :=
  if num = 0 then zero negative
  else
    let e := exponentOf num den
    let (n, d) := scaleDown num den e
    let m := roundDiv n d
    -- rounding up can carry into one more digit
    let (m, e) := if m = Nat.pow 2 53 then (Nat.pow 2 52, e + 1) else (m, e)
    if maxExponent < e then .infinite negative else .finite negative m e

/-- The double nearest to an integer. -/
def ofInt (i : Int) : Binary64 := ofFraction (i < 0) i.natAbs 1

/-- The double nearest to `digits * 10 ^ exponent`. Far outside the range of doubles the answer is
known from the number of digits alone. -/
def ofScientific (negative : Bool) (digits : Nat) (exponent : Int) : Binary64 :=
  let magnitude : Int := digits.repr.length + exponent
  if digits = 0 then zero negative
  else if 400 < magnitude then .infinite negative
  else if magnitude < -400 then zero negative
  else match exponent with
    | .ofNat e => ofFraction negative (digits * Nat.pow 10 e) 1
    | .negSucc e => ofFraction negative digits (Nat.pow 10 (e + 1))

/-- Neither an infinity nor the missing number. -/
def isFinite : Binary64 → Bool
  | .finite .. => true
  | _ => false

def isZero : Binary64 → Bool
  | .finite _ m _ => m == 0
  | _ => false

/-- The integer that the double stands for, if it has no fractional part. -/
def toInt? : Binary64 → Option Int
  | .finite negative m (.ofNat e) =>
    let n : Int := (m * Nat.pow 2 e : Nat)
    some (if negative then -n else n)
  | .finite negative m (.negSucc e) =>
    if m % Nat.pow 2 (e + 1) = 0 then
      let n : Int := (m / Nat.pow 2 (e + 1) : Nat)
      some (if negative then -n else n)
    else none
  | _ => none

end Binary64

end AgentFlow.Numeral
