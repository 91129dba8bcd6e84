import OperatorRules.Text.Digits

/-!
# What a plain scalar would be read as

A reader of YAML takes some plain scalars for null, for a boolean or for a number. A text that
would be taken so has to be written in quotes, and so has one of digits after a leading zero, which
readers treat differently.
-/

namespace OperatorRules.Yaml

/-- The kinds of value that a plain scalar may be taken for. -/
inductive Resolution where
  | null
  | bool
  | integer
  | real
  | text
  deriving DecidableEq, Repr

def nulls : List String := ["null", "Null", "NULL", "~"]

def booleans : List String := ["true", "True", "TRUE", "false", "False", "FALSE"]

def infinities : List String := [".inf", ".Inf", ".INF"]

def nans : List String := [".nan", ".NaN", ".NAN"]

/-- Splits off one sign; true for minus. -/
def splitSign : List Char → Option Bool × List Char
  | '-' :: cs => (some true, cs)
  | '+' :: cs => (some false, cs)
  | cs => (none, cs)

/-- More than one digit and a zero in front, after at most one sign. -/
def isZeroLed (cs : List Char) : Bool :=
  match (splitSign cs).2 with
  | '0' :: d :: ds => (d :: ds).all Text.isDigit
  | _ => false

/-- The base that the first two characters announce, and the rest. -/
def splitBase : List Char → Option (Nat × List Char)
  | '0' :: 'x' :: cs => some (16, cs)
  | '0' :: 'o' :: cs => some (8, cs)
  | '0' :: 'b' :: cs => some (2, cs)
  | _ => none

def natural? (b : Nat) : List Char → Option Nat
  | [] => none
  | cs => Text.ofDigits? b cs

/-- Whether the digits stand for an integer of 128 bits, with a sign bit if negative. -/
def fits (negative : Bool) (n : Nat) : Bool :=
  if negative then n ≤ Nat.pow 2 127 else n < Nat.pow 2 128

/-- An integer of 128 bits: decimal, or in another base that is announced, after at most one
sign. -/
def isInteger (cs : List Char) : Bool :=
  let (sign, body) := splitSign cs
  let within := fun n? : Option Nat => n?.any (fits (sign == some true))
  match splitBase body with
  | some (b, ds) => within (natural? b ds)
  | none => !isZeroLed cs && within (natural? 10 body)

/-- A decimal number: the digits before and after the point and the exponent. -/
structure Decimal where
  whole : List Char
  fraction : List Char
  exponent : Int
  deriving DecidableEq, Repr

def exponent? : List Char → Option Int
  | [] => some 0
  | c :: cs =>
    if c = 'e' ∨ c = 'E' then
      let (sign, ds) := splitSign cs
      if ds.all Text.isDigit then
        (natural? 10 ds).map fun n => if sign = some true then -(n : Int) else n
      else none
    else none

/-- Reads a decimal number without a sign; a point needs a digit on one of its sides only. -/
def decimal? (cs : List Char) : Option Decimal :=
  let (whole, rest) := Text.splitDigits cs
  let (fraction, rest) := match rest with
    | '.' :: rest => Text.splitDigits rest
    | rest => ([], rest)
  if whole.isEmpty && fraction.isEmpty then none
  else (exponent? rest).map fun e => ⟨whole, fraction, e⟩

/-- The least number that rounds to infinity in double precision. -/
def overflowBound : Nat := Nat.pow 2 1024 - Nat.pow 2 970

/-- Whether the number stays finite in double precision. The bounds on its magnitude keep the
powers of ten small. -/
def Decimal.isFinite (d : Decimal) : Bool :=
  let ds := (d.whole ++ d.fraction).dropWhile (· == '0')
  let shift : Int := d.exponent - d.fraction.length
  let places : Int := ds.length + shift
  if ds.isEmpty || places < 300 then true
  else if 320 < places then false
  else
    let m := (natural? 10 ds).getD 0
    m * Nat.pow 10 shift.toNat < overflowBound * Nat.pow 10 (-shift).toNat

def isFiniteReal (cs : List Char) : Bool := (decimal? (splitSign cs).2).any Decimal.isFinite

/-- Infinity after at most one sign, or what is no number. -/
def isSpecialReal (cs : List Char) : Bool :=
  String.ofList (splitSign cs).2 ∈ infinities || String.ofList cs ∈ nans

/-- What a reader takes the plain scalar for. -/
def resolve (cs : List Char) : Resolution :=
  if cs.isEmpty || String.ofList cs ∈ nulls then .null
  else if String.ofList cs ∈ booleans then .bool
  else if isInteger cs then .integer
  else if !isZeroLed cs && (isFiniteReal cs || isSpecialReal cs) then .real
  else .text

/-- Whether the text may not stand plain because of what it would be taken for. -/
def isAmbiguous (cs : List Char) : Bool := resolve cs != .text || isZeroLed cs

end OperatorRules.Yaml
