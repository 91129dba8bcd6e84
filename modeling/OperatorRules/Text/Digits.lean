/-!
# Numerals

Natural numbers as digits in a base from two to sixteen, most significant digit first, and the
value that a list of digits stands for. Every numeral of the library is written here: counts and
exit codes in decimal, code points in hexadecimal.
-/

namespace OperatorRules.Text

/-- The digit of value `n`, in lower case from ten on. -/
def digitChar (n : Nat) : Char :=
  if n < 10 then Char.ofNat (48 + n) else Char.ofNat (87 + n)

def isDigit (c : Char) : Bool := '0' ≤ c && c ≤ '9'

def splitDigits (cs : List Char) : List Char × List Char :=
  (cs.takeWhile isDigit, cs.dropWhile isDigit)

/-- The value of a hexadecimal digit of either case. -/
def digitValue? (c : Char) : Option Nat :=
  if '0' ≤ c ∧ c ≤ '9' then some (c.toNat - 48)
  else if 'a' ≤ c ∧ c ≤ 'f' then some (c.toNat - 87)
  else if 'A' ≤ c ∧ c ≤ 'F' then some (c.toNat - 55)
  else none

/-- The digits of `n` in base `b`, without leading zeros. -/
def digits (b n : Nat) : List Char :=
  if _h : n < b ∨ b < 2 then [digitChar n]
  else digits b (n / b) ++ [digitChar (n % b)]
termination_by n
decreasing_by
  have : b ≤ n ∧ 2 ≤ b := by omega
  exact Nat.div_lt_self (by omega) (by omega)

/-- The digits of `n` in base `b`, filled up with zeros in front to at least `width` places. -/
def paddedDigits (b width n : Nat) : List Char :=
  let ds := digits b n
  List.replicate (width - ds.length) '0' ++ ds

/-- The number that the digits stand for in base `b`; no number if one of them is no digit. -/
def ofDigits? (b : Nat) (cs : List Char) : Option Nat :=
  cs.foldl (fun acc c => do
    let n ← acc
    let d ← digitValue? c
    if d < b then some (n * b + d) else none) (some 0)

def decimal (n : Nat) : List Char := digits 10 n

def signedDecimal : Int → List Char
  | .ofNat n => decimal n
  | .negSucc n => '-' :: decimal (n + 1)

def hexadecimal (n : Nat) : List Char := digits 16 n

end OperatorRules.Text
