import OperatorRules.Text.Digits

/-!
# Durations

A span of time as whole seconds and nanoseconds. Its text is a decimal number and the largest of
the units s, ms, µs and ns in which the number is at least one, exact and without trailing zeros.
-/

namespace OperatorRules

/-- A span of time; the nanoseconds never make up a whole second. -/
structure Duration where
  seconds : UInt64
  nanos : Nat
  nanos_lt : nanos < 1000000000 := by decide
  deriving DecidableEq, Repr

namespace Duration

def ofSeconds (s : UInt64) : Duration := { seconds := s, nanos := 0 }

/-- Seconds and nanoseconds, where whole seconds of the latter are carried over. -/
def ofParts (s nanos : Nat) : Duration where
  seconds := UInt64.ofNat (s + nanos / 1000000000)
  nanos := nanos % 1000000000
  nanos_lt := Nat.mod_lt _ (by decide)

def totalNanos (d : Duration) : Nat := d.seconds.toNat * 1000000000 + d.nanos

/-- The decimal places of a fraction whose numerator has `places` places, up to the last that is
not zero. -/
def fractionDigits : (places numerator : Nat) → List Char
  | 0, _ => []
  | places + 1, numerator =>
    if numerator = 0 then []
    else Text.digitChar (numerator / Nat.pow 10 places) ::
      fractionDigits places (numerator % Nat.pow 10 places)

/-- A number with a fraction of `places` places, the point left out where nothing follows it. -/
def decimalText (whole numerator places : Nat) : List Char :=
  Text.decimal whole ++
    match fractionDigits places numerator with
    | [] => []
    | ds => '.' :: ds

/-- The units, each with its name. -/
inductive Scale where
  | second
  | milli
  | micro
  | nano
  deriving DecidableEq, Repr

/-- The number of decimal places from a nanosecond up to the unit. -/
def Scale.places : Scale → Nat
  | second => 9
  | milli => 6
  | micro => 3
  | nano => 0

def Scale.name : Scale → List Char
  | second => ['s']
  | milli => ['m', 's']
  | micro => ['µ', 's']
  | nano => ['n', 's']

/-- The largest unit that fits into the duration, the nanosecond for none. -/
def scale (d : Duration) : Scale :=
  if 0 < d.seconds then .second
  else if 1000000 ≤ d.nanos then .milli
  else if 1000 ≤ d.nanos then .micro
  else .nano

def chars (d : Duration) : List Char :=
  let unit := Nat.pow 10 d.scale.places
  decimalText (d.totalNanos / unit) (d.totalNanos % unit) d.scale.places ++ d.scale.name

/-- A duration in its unit, as messages show it. -/
def text (d : Duration) : String := String.ofList d.chars

/-! ## Reading -/

def Scale.ofName? (name : List Char) : Option Scale :=
  [Scale.second, .milli, .micro, .nano].find? fun u => u.name == name

/-- A decimal number: the digits before and after the point, and what follows it. -/
def splitDecimal (cs : List Char) : List Char × List Char × List Char :=
  let (whole, rest) := Text.splitDigits cs
  match rest with
  | '.' :: rest => (whole, Text.splitDigits rest)
  | rest => (whole, [], rest)

/-- The length in nanoseconds that a text stands for, a decimal number times its unit; none if it
is no whole number of nanoseconds. -/
def read? (cs : List Char) : Option Nat := do
  let (whole, fraction, name) := splitDecimal cs
  let unit ← Scale.ofName? name
  let n ← Text.ofDigits? 10 (whole ++ fraction)
  if whole.isEmpty || unit.places < fraction.length then none
  else some (n * Nat.pow 10 (unit.places - fraction.length))

end Duration

end OperatorRules
