import OperatorRules.Decimal.Shortest
import OperatorRules.Roster

/-!
# JSON values

A value as a tree. The members of an object are a list of pairs, so a value fixes their order; a
number is an integer of 64 bits or a finite number of double precision.
-/

namespace OperatorRules.Json

/-- A number: an integer from -2^63 to 2^64 - 1, or any other number in double precision. -/
inductive Number where
  | integer (n : Int)
  | real (negative : Bool) (magnitude : Decimal.Double)
  deriving DecidableEq, Repr

def Number.chars : Number → List Char
  | integer n => Text.signedDecimal n
  | real negative x =>
    (if negative then ['-'] else []) ++ x.shortest.chars .standard

inductive Value where
  | null
  | bool (b : Bool)
  | number (n : Number)
  | string (s : String)
  | array (items : List Value)
  | object (members : List (String × Value))
  deriving Inhabited

namespace Value

def ofNat (n : Nat) : Value := .number (.integer n)

def ofString? : Option String → Value
  | some s => .string s
  | none => .null

/-- Texts under keys, in the order of the keys. -/
def ofEntries (e : Entries) : Value := .object (e.toList.map fun (k, v) => (k, .string v))

def member? (key : String) : Value → Option Value
  | .object members => members.lookup key
  | _ => none

end Value

end OperatorRules.Json
