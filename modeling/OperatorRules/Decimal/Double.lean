/-!
# Double precision

Finite non-negative numbers of double precision as natural multiples of powers of two, with exact
rounding to nearest, ties to the even multiple. `ofDecimal` is the reading of a decimal in two
steps: the significand is rounded first and then scaled by rounded powers of ten, so its last bit
may differ from that of a reader which rounds once.
-/

namespace OperatorRules.Decimal

/-- The number `mantissa * 2 ^ exponent`. -/
structure Double where
  mantissa : Nat
  exponent : Int
  deriving DecidableEq, Repr

namespace Double

def leastExponent : Int := -1074

def greatestExponent : Int := 971

def zero : Double := ⟨0, leastExponent⟩

/-- The quotient rounded to the nearest integer, ties to the even one. -/
def roundDiv (num den : Nat) : Nat :=
  let q := num / den
  let twice := 2 * (num % den)
  if twice < den ∨ (twice = den ∧ q % 2 = 0) then q else q + 1

/-- The multiple of `2 ^ e` nearest to `num / den`. -/
def multipleAt (num den : Nat) (e : Int) : Nat :=
  roundDiv (num * Nat.pow 2 (-e).toNat) (den * Nat.pow 2 e.toNat)

/-- The number nearest to `num / den`; none if it would be out of range. -/
def ofRatio? (num den : Nat) : Option Double :=
  if num = 0 then some zero
  else
    let guess : Int := (num.log2 : Int) - den.log2 - 52
    let fits := den * Nat.pow 2 (52 + guess).toNat ≤ num * Nat.pow 2 (-(52 + guess)).toNat
    let e := max leastExponent (if fits then guess else guess - 1)
    let m := multipleAt num den e
    let (m, e) := if m = Nat.pow 2 53 then (Nat.pow 2 52, e + 1) else (m, e)
    if greatestExponent < e then none else some ⟨m, e⟩

def ratio (x : Double) : Nat × Nat :=
  (x.mantissa * Nat.pow 2 x.exponent.toNat, Nat.pow 2 (-x.exponent).toNat)

def mul? (x y : Double) : Option Double :=
  ofRatio? (x.ratio.1 * y.ratio.1) (x.ratio.2 * y.ratio.2)

def div? (x y : Double) : Option Double :=
  ofRatio? (x.ratio.1 * y.ratio.2) (x.ratio.2 * y.ratio.1)

/-- The greatest power of ten in range. -/
def greatestTen : Nat := 308

/-- `x` scaled by a power of ten, a table of whose rounded values ends at `greatestTen`; a smaller
power is reached by repeated division. -/
def scaleByTen (x : Double) : Nat → Int → Option Double
  | 0, _ => some zero
  | steps + 1, k =>
    if k.natAbs ≤ greatestTen then
      (ofRatio? (Nat.pow 10 k.natAbs) 1).bind fun ten => if 0 ≤ k then x.mul? ten else x.div? ten
    else if x.mantissa = 0 then some zero
    else if 0 ≤ k then none
    else (ofRatio? (Nat.pow 10 greatestTen) 1).bind fun ten =>
      (x.div? ten).bind fun y => scaleByTen y steps (k + greatestTen)

/-- The reading of `significand * 10 ^ k`; none if it is out of range. Three divisions bring any
significand of 64 bits to zero. -/
def ofDecimal? (significand : Nat) (k : Int) : Option Double :=
  (ofRatio? significand 1).bind fun x => x.scaleByTen 4 k

end Double

end OperatorRules.Decimal
