import AgentFlow.Numeral.Shortest

/-!
# The text of a double

A double is written with the digits of its shortest decimal: positionally while the decimal point
stands at most sixteen digits to the right of the first digit and at most four to the left, and with
a signed exponent of at least two digits otherwise. A whole number keeps one zero after its point.
-/

namespace AgentFlow.Numeral

/-- The format's decisions about where the decimal point may stand. -/
structure PointRange where
  least : Int
  greatest : Int

/-- Decimals are written positionally from `0.0001` up to sixteen digits before the point. -/
def positionalRange : PointRange := ⟨-3, 16⟩

def exponentText (e : Int) : String :=
  let digits := e.natAbs.repr
  (if e < 0 then "-" else "+") ++ (if digits.length < 2 then "0" ++ digits else digits)

/-- The digits with the decimal point after the first `position` of them; the point may also stand
before or after all digits. -/
def placePoint (digits : List Char) (position : Int) : String :=
  let count : Int := digits.length
  if position ≤ 0 then "0." ++ String.ofList (List.replicate (-position).toNat '0' ++ digits)
  else if count ≤ position then
    String.ofList (digits ++ List.replicate (position - count).toNat '0') ++ ".0"
  else
    String.ofList (digits.take position.toNat) ++ "." ++ String.ofList (digits.drop position.toNat)

def Decimal.text (d : Decimal) : String :=
  let digits := d.digits.repr.toList
  let position : Int := digits.length + d.exponent
  if positionalRange.least ≤ position ∧ position ≤ positionalRange.greatest then
    placePoint digits position
  else
    let tail := digits.drop 1
    String.ofList (digits.take 1) ++ (if tail.isEmpty then "" else "." ++ String.ofList tail) ++
      "e" ++ exponentText (position - 1)

def Binary64.text : Binary64 → String
  | .finite negative m e =>
    (if negative then "-" else "") ++ (if m = 0 then "0.0" else (shortest m e).text)
  | .infinite negative => if negative then "-inf" else "inf"
  | .notANumber => "nan"

end AgentFlow.Numeral
