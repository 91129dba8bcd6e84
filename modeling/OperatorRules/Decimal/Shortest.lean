import OperatorRules.Decimal.Double
import OperatorRules.Text.Digits

/-!
# The shortest decimal

The text of a number of double precision: the fewest digits that read back as the same number, the
nearest of those. Numbers from 0.00001 up to 10^16 are written with a point and at least one digit
on each side of it, all others with an exponent and its sign.
-/

namespace OperatorRules.Decimal

/-- The number `significand * 10 ^ exponent`. -/
structure Scientific where
  significand : Nat
  exponent : Int
  deriving DecidableEq, Repr

/-- Compares `a * 10 ^ i` with `n * 2 ^ j`. -/
def compareScaled (a : Nat) (i : Int) (n : Nat) (j : Int) : Ordering :=
  compare (a * Nat.pow 10 i.toNat * Nat.pow 2 (-j).toNat)
    (n * Nat.pow 2 j.toNat * Nat.pow 10 (-i).toNat)

namespace Double

/-- Whether the gap to the number below is half the gap to the number above. -/
def narrowBelow (x : Double) : Bool := x.mantissa == Nat.pow 2 52 && leastExponent < x.exponent

/-- Whether the decimal is one of the reals that round to `x`. -/
def readsBack (x : Double) (d : Scientific) : Bool :=
  let low := 4 * x.mantissa - if x.narrowBelow then 1 else 2
  let high := 4 * x.mantissa + 2
  let closed := x.mantissa % 2 == 0
  let atLow := compareScaled d.significand d.exponent low (x.exponent - 2)
  let atHigh := compareScaled d.significand d.exponent high (x.exponent - 2)
  (atLow == .gt || (closed && atLow == .eq)) && (atHigh == .lt || (closed && atHigh == .eq))

/-- The whole number of steps of `10 ^ k` in `x`. -/
def stepsOfTen (x : Double) (k : Int) : Nat :=
  (x.mantissa * Nat.pow 2 x.exponent.toNat * Nat.pow 10 (-k).toNat) /
    (Nat.pow 2 (-x.exponent).toNat * Nat.pow 10 k.toNat)

/-- The nearer of two neighbouring decimals, the even one of two equally near. -/
def nearer (x : Double) (below above : Scientific) : Scientific :=
  match compareScaled (below.significand + above.significand) below.exponent
      (2 * x.mantissa) x.exponent with
  | .lt => above
  | .gt => below
  | .eq => if below.significand % 2 = 0 then below else above

/-- The decimal on the grid of `10 ^ k` that reads back as `x`, the nearer of two. -/
def onGrid? (x : Double) (k : Int) : Option Scientific :=
  let below : Scientific := ⟨x.stepsOfTen k, k⟩
  let above : Scientific := ⟨x.stepsOfTen k + 1, k⟩
  match x.readsBack below, x.readsBack above with
  | true, true => some (x.nearer below above)
  | true, false => some below
  | false, true => some above
  | false, false => none

/-- The number of decimal digits before the point: zero or less for numbers below one tenth. -/
def magnitude (x : Double) : Int :=
  let guess : Int := ((x.mantissa.log2 : Int) + x.exponent) * 30103 / 100000
  let tooSmall := fun k : Int => compareScaled 1 k x.mantissa x.exponent != .gt
  if tooSmall (guess + 1) then guess + 2
  else if tooSmall guess then guess + 1
  else guess

/-- The grid with the fewest digits, `n` or more, that holds a decimal which reads back; the exact
value beyond seventeen digits. -/
def searchGrid (x : Double) (magnitude : Int) : Nat → Scientific
  | 0 => ⟨x.stepsOfTen (min x.exponent 0), min x.exponent 0⟩
  | left + 1 =>
    match x.onGrid? (magnitude - (17 - left : Nat)) with
    | some d => d
    | none => searchGrid x magnitude left

def stripZeros : Nat → Scientific → Scientific
  | 0, d => d
  | steps + 1, d =>
    if d.significand ≠ 0 ∧ d.significand % 10 = 0 then
      stripZeros steps ⟨d.significand / 10, d.exponent + 1⟩
    else d

/-- The shortest decimal that reads back as `x`. -/
def shortest (x : Double) : Scientific :=
  if x.mantissa = 0 then ⟨0, 0⟩
  else
    let d := x.searchGrid x.magnitude 17
    stripZeros d.significand d

end Double

/-- How numbers are laid out: the exponents of the first digit that are written positionally. -/
structure Layout where
  least : Int
  greatest : Int
  deriving DecidableEq, Repr

/-- Positional from 0.00001 up to 10^16. -/
def Layout.standard : Layout := ⟨-5, 15⟩

def Scientific.chars (l : Layout) (d : Scientific) : List Char :=
  let ds := Text.decimal d.significand
  let first : Int := d.exponent + ds.length - 1
  if l.least ≤ first ∧ first ≤ l.greatest then
    if first < 0 then
      ['0', '.'] ++ List.replicate (-first - 1).toNat '0' ++ ds
    else if d.exponent < 0 then
      let whole := (first + 1).toNat
      ds.take whole ++ ['.'] ++ ds.drop whole
    else ds ++ List.replicate d.exponent.toNat '0' ++ ['.', '0']
  else
    let sign := if first < 0 then '-' else '+'
    let fraction := if ds.length = 1 then [] else '.' :: ds.drop 1
    ds.take 1 ++ fraction ++ ['e', sign] ++ Text.decimal first.natAbs

end OperatorRules.Decimal
