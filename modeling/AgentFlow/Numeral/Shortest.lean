import AgentFlow.Numeral.Binary64

/-!
# The shortest decimal that reads back

Among the decimals that round to a given double, the one with the fewest digits is written, and the
nearest to the double among those. The search goes through the decimal grids of 1, 2, … 17 digits
and tests the two grid points around the double.
-/

namespace AgentFlow.Numeral

structure Decimal where
  digits : Nat
  exponent : Int
  deriving DecidableEq, Repr

/-- The interval of fractions that round to a double, all over one denominator: the value itself,
the two ends, and whether the ends belong to it. -/
structure RoundingInterval where
  low : Nat
  value : Nat
  high : Nat
  den : Nat
  closed : Bool

/-- The fractions that round to `m * 2 ^ e`. The gap below a power of two is half as wide as the
gap above it. -/
def roundingInterval (m : Nat) (e : Int) : RoundingInterval :=
  let up := Nat.pow 2 e.toNat
  -- in quarters of a gap, so that the ends are whole
  let gapBelow := if m = Nat.pow 2 52 ∧ e ≠ Binary64.minExponent then 1 else 2
  ⟨(4 * m - gapBelow) * up, 4 * m * up, (4 * m + 2) * up, 4 * Nat.pow 2 (-e).toNat, m % 2 == 0⟩

namespace RoundingInterval

/-- The point `d * 10 ^ p` and the interval's denominator, brought to a common scale with the three
numerators: the point, and the factor of the numerators. -/
def scaledPoint (I : RoundingInterval) (d : Nat) : (p : Int) → Nat × Nat
  | .ofNat p => (d * Nat.pow 10 p * I.den, 1)
  | .negSucc p => (d * I.den, Nat.pow 10 (p + 1))

def contains (I : RoundingInterval) (d : Nat) (p : Int) : Bool :=
  let (x, k) := I.scaledPoint d p
  if I.closed then I.low * k ≤ x && x ≤ I.high * k else I.low * k < x && x < I.high * k

/-- The distance of `d * 10 ^ p` from the double, on a scale that depends on `p` only. -/
def distance (I : RoundingInterval) (d : Nat) (p : Int) : Nat :=
  let (x, k) := I.scaledPoint d p
  (x - I.value * k) + (I.value * k - x)

/-- The number of digits before the decimal point, or minus the number of zeros after it. -/
def pointPosition (I : RoundingInterval) : Int :=
  ((Nat.pow 10 340 * I.value / I.den).repr.length : Int) - 340

/-- The grid point just below the double, in units of `10 ^ p`. -/
def floorAt (I : RoundingInterval) : (p : Int) → Nat
  | .ofNat p => I.value / (I.den * Nat.pow 10 p)
  | .negSucc p => I.value * Nat.pow 10 (p + 1) / I.den

/-- The nearest point of the grid `10 ^ p` that rounds to the double; of two points at the same
distance the even one. -/
def onGrid (I : RoundingInterval) (p : Int) : Option Nat :=
  let below := I.floorAt p
  match I.contains below p, I.contains (below + 1) p with
  | true, true =>
    let a := I.distance below p
    let b := I.distance (below + 1) p
    some (if a < b then below else if b < a then below + 1
      else if below % 2 = 0 then below else below + 1)
  | true, false => some below
  | false, true => some (below + 1)
  | false, false => none

end RoundingInterval

/-- The decimal without trailing zeros among its digits; `fuel` bounds their number. -/
def Decimal.strip : (fuel : Nat) → Decimal → Decimal
  | 0, d => d
  | fuel + 1, d =>
    if d.digits ≠ 0 ∧ d.digits % 10 = 0 then strip fuel ⟨d.digits / 10, d.exponent + 1⟩ else d

/-- The shortest decimal that rounds to the positive double `m * 2 ^ e`. Seventeen digits are always
enough. -/
def shortest (m : Nat) (e : Int) : Decimal :=
  let I := roundingInterval m e
  let position := I.pointPosition
  let found := (List.range 17).findSome? fun (k : Nat) =>
    -- with `k + 1` digits
    let p := position - (k + 1 : Nat)
    (I.onGrid p).map fun d => (⟨d, p⟩ : Decimal)
  (found.getD ⟨I.floorAt (position - 17), position - 17⟩).strip 18

end AgentFlow.Numeral
