import OperatorRules.Json.Document

/-!
# Reading JSON

From characters to a document. Each scanner takes the characters from its place on and gives what it
found together with the rest. The reader of a whole page counts down from the length of the page;
every step of it leaves at least one character behind, so it never stops for the count.
-/

namespace OperatorRules.Json

def isBlank (c : Char) : Bool := c == ' ' || c == '\t' || c == '\n' || c == '\r'

def skipBlanks (cs : List Char) : List Char := cs.dropWhile isBlank

/-- The fault of a place where something is required that does not follow. -/
def Fault.at : List Char → Fault
  | [] => .truncated
  | _ => .malformed

/-! ## Strings -/

/-- Where the reader stands inside a string: between characters, behind a backslash, among the four
digits of a code unit, or where the second half of a surrogate pair has to begin. -/
inductive StringState where
  | plain
  | backslash
  | unit (high? : Option Nat) (read : Nat) (value : Nat)
  | pairBackslash (high : Nat)
  | pairLetter (high : Nat)
  deriving DecidableEq, Repr

def shortEscape? : Char → Option Char
  | '"' => some '"'
  | '\\' => some '\\'
  | '/' => some '/'
  | 'b' => some '\x08'
  | 'f' => some '\x0c'
  | 'n' => some '\n'
  | 'r' => some '\r'
  | 't' => some '\t'
  | _ => none

/-- The fault at a character that is no digit of a code unit, `read` digits of which stand before
it: too short if what is left does not even hold four bytes. -/
def unitFault (read : Nat) (cs : List Char) : Fault :=
  if read + (String.ofList (cs.take 4)).utf8ByteSize < 4 then .truncated else .malformed

/-- What a complete code unit means: the state behind it and the characters it stands for. A reader
that is not strict takes every code unit, and none for a character. -/
def closeUnit (strict : Bool) (high? : Option Nat) (value : Nat) :
    Except Fault (StringState × List Char) :=
  if !strict then .ok (.plain, [])
  else
    match high? with
    | some high =>
      if 0xdc00 ≤ value ∧ value ≤ 0xdfff then
        .ok (.plain, [Char.ofNat ((high - 0xd800) * 0x400 + (value - 0xdc00) + 0x10000)])
      else .error .malformed
    | none =>
      if 0xdc00 ≤ value ∧ value ≤ 0xdfff then .error .malformed
      else if 0xd800 ≤ value ∧ value ≤ 0xdbff then .ok (.pairBackslash value, [])
      else .ok (.plain, [Char.ofNat value])

/-- Reads a string from behind its opening quote; gives the text and what follows the closing
quote. -/
def scanString (strict : Bool) : StringState → List Char → Except Fault (List Char × List Char)
  | _, [] => .error .truncated
  | .plain, c :: cs =>
    if c = '"' then .ok ([], cs)
    else if c = '\\' then scanString strict .backslash cs
    else if c.toNat < 0x20 then .error .malformed
    else (scanString strict .plain cs).map fun (text, rest) => (c :: text, rest)
  | .backslash, c :: cs =>
    if c = 'u' then scanString strict (.unit none 0 0) cs
    else
      match shortEscape? c with
      | none => .error .malformed
      | some d => (scanString strict .plain cs).map fun (text, rest) => (d :: text, rest)
  | .unit high? read value, c :: cs =>
    match Text.digitValue? c with
    | none => .error (unitFault read (c :: cs))
    | some d =>
      if read < 3 then scanString strict (.unit high? (read + 1) (value * 16 + d)) cs
      else
        match closeUnit strict high? (value * 16 + d) with
        | .error f => .error f
        | .ok (state, found) =>
          (scanString strict state cs).map fun (text, rest) => (found ++ text, rest)
  | .pairBackslash high, c :: cs =>
    if c = '\\' then scanString strict (.pairLetter high) cs else .error .malformed
  | .pairLetter high, c :: cs =>
    if c = 'u' then scanString strict (.unit (some high) 0 0) cs else .error .malformed

/-! ## Numbers -/

/-- A number as it is written: its sign, the digits before and after the point, the sign and the
digits of its exponent. -/
structure Numeral where
  negative : Bool
  whole : List Char
  fraction : Option (List Char)
  exponent : Option (Bool × List Char)
  deriving DecidableEq, Repr

/-- The digits at the start, at least one; failing that, the place where it is missing. -/
def scanSomeDigits (cs : List Char) : Except (List Char) (List Char × List Char) :=
  match Text.splitDigits cs with
  | ([], rest) => .error rest
  | found => .ok found

/-- The digits before the point: a zero, or digits that start with another one. -/
def scanWhole (cs : List Char) : Except (List Char) (List Char × List Char) :=
  match scanSomeDigits cs with
  | .ok ('0' :: d :: ds, rest) => .error (d :: ds ++ rest)
  | found => found

def scanFraction : List Char → Except (List Char) (Option (List Char) × List Char)
  | '.' :: cs => (scanSomeDigits cs).map fun (ds, rest) => (some ds, rest)
  | cs => .ok (none, cs)

/-- The sign of an exponent; none counts as plus. -/
def scanExponentSign : List Char → Bool × List Char
  | '-' :: cs => (true, cs)
  | '+' :: cs => (false, cs)
  | cs => (false, cs)

def scanExponent : List Char → Except (List Char) (Option (Bool × List Char) × List Char)
  | c :: cs =>
    if c = 'e' ∨ c = 'E' then
      let (negative, cs) := scanExponentSign cs
      (scanSomeDigits cs).map fun (ds, rest) => (some (negative, ds), rest)
    else .ok (none, c :: cs)
  | [] => .ok (none, [])

/-- A number; failing that, the place where a digit is missing. -/
def scanNumeral (cs : List Char) : Except (List Char) (Numeral × List Char) := do
  let (negative, cs) := match cs with
    | '-' :: cs => (true, cs)
    | cs => (false, cs)
  let (whole, cs) ← scanWhole cs
  let (fraction, cs) ← scanFraction cs
  let (exponent, cs) ← scanExponent cs
  return (⟨negative, whole, fraction, exponent⟩, cs)

/-- Appends digits to a significand as long as it stays below 2^64; gives how many were left. -/
def absorbDigits (significand : Nat) : List Char → Nat × Nat
  | [] => (significand, 0)
  | d :: ds =>
    let next := significand * 10 + (d.toNat - 48)
    if next < Nat.pow 2 64 then absorbDigits next ds else (significand, ds.length + 1)

namespace Numeral

/-- The integer that is written, if there is neither point nor exponent and it has 64 bits; minus
zero is no integer. -/
def integer? (n : Numeral) : Option Int :=
  match n.fraction, n.exponent, absorbDigits 0 n.whole with
  | none, none, (m, 0) =>
    if n.negative then
      if 0 < m ∧ m ≤ Nat.pow 2 63 then some (-(m : Int)) else none
    else some m
  | _, _, _ => none

/-- The greatest exponent that is told from a greater one. -/
def exponentLimit : Nat := Nat.pow 2 31 - 1

/-- The number in double precision, without its sign. -/
def real? (n : Numeral) : Option Decimal.Double :=
  let (m, dropped) := absorbDigits 0 n.whole
  let fraction := n.fraction.getD []
  let (m, ignored) := absorbDigits m fraction
  let shift : Int := (dropped : Int) - (fraction.length - ignored : Nat)
  match n.exponent with
  | none => Decimal.Double.ofDecimal? m shift
  | some (negative, ds) =>
    match Text.ofDigits? 10 ds with
    | none => none
    | some e =>
      if exponentLimit < e then
        if m = 0 ∨ negative then some .zero else none
      else Decimal.Double.ofDecimal? m (if negative then shift - e else shift + e)

/-- The number; a number out of range breaks the grammar. -/
def value (n : Numeral) : Except Fault Number :=
  match n.integer? with
  | some i => .ok (.integer i)
  | none =>
    match n.real? with
    | some x => .ok (.real n.negative x)
    | none => .error .malformed

end Numeral

/-- A number as a document, and the rest of the page unless it ends here. -/
def scanNumber (cs : List Char) : Document × Option (List Char) :=
  match scanNumeral cs with
  | .ok (n, rest) => (.number n.value none, some rest)
  | .error missing => (.number (.error (.at missing)) (some .malformed), none)

/-! ## Documents -/

def scanWord : List Char → List Char → Except Fault (List Char)
  | [], cs => .ok cs
  | _ :: _, [] => .error .truncated
  | w :: ws, c :: cs => if c = w then scanWord ws cs else .error .malformed

def wordDocument (d : Document) (word cs : List Char) : Document × Option (List Char) :=
  match scanWord word cs with
  | .ok rest => (d, some rest)
  | .error f => (.word f, none)

/-- Both readings of a string from behind its opening quote: its text, and where a reader that only
skips goes on. -/
def readString (cs : List Char) : Except Fault String × Except Fault (List Char) :=
  ((scanString true .plain cs).map fun (text, _) => String.ofList text,
    (scanString false .plain cs).map Prod.snd)

def stringDocument (cs : List Char) : Document × Option (List Char) :=
  match readString cs with
  | (content, .ok rest) => (.string content none, some rest)
  | (content, .error f) => (.string content (some f), none)

mutual

/-- Reads a document; `fuel` bounds the steps. Gives the rest of the page unless reading stopped. -/
def scanDocument : (fuel : Nat) → List Char → Document × Option (List Char)
  | 0, _ => (.broken .malformed, none)
  | fuel + 1, cs =>
    match skipBlanks cs with
    | [] => (.broken .truncated, none)
    | c :: cs =>
      if c = 'n' then wordDocument .null ['u', 'l', 'l'] cs
      else if c = 't' then wordDocument (.bool true) ['r', 'u', 'e'] cs
      else if c = 'f' then wordDocument (.bool false) ['a', 'l', 's', 'e'] cs
      else if c = '"' then stringDocument cs
      else if c = '[' then
        let (items, ending, rest?) := scanItems fuel true cs
        (.array items ending, rest?)
      else if c = '\x7b' then
        let (members, ending, rest?) := scanMembers fuel true cs
        (.object members ending, rest?)
      else if c = '-' ∨ Text.isDigit c then scanNumber (c :: cs)
      else (.broken .malformed, none)

/-- Reads the items of an array up to its end; before the first one no comma stands. -/
def scanItems : (fuel : Nat) → (first : Bool) → List Char →
    List Document × Ending × Option (List Char)
  | 0, _, _ => ([], .halted .malformed, none)
  | fuel + 1, first, cs =>
    match skipBlanks cs with
    | [] => ([], .halted .truncated, none)
    | c :: cs =>
      if c = ']' then ([], .closed, some cs)
      else if first then scanItem fuel (c :: cs)
      else if c = ',' then
        match skipBlanks cs with
        | [] => ([], .afterComma .truncated, none)
        | d :: ds =>
          if d = ']' then ([], .afterComma .malformed, none) else scanItem fuel (d :: ds)
      else ([], .halted .malformed, none)

def scanItem : (fuel : Nat) → List Char → List Document × Ending × Option (List Char)
  | 0, _ => ([], .halted .malformed, none)
  | fuel + 1, cs =>
    match scanDocument fuel cs with
    | (d, none) => ([d], .closed, none)
    | (d, some rest) =>
      let (items, ending, rest?) := scanItems fuel false rest
      (d :: items, ending, rest?)

/-- Reads the members of an object up to its end; before the first one no comma stands. -/
def scanMembers : (fuel : Nat) → (first : Bool) → List Char →
    List (Except Fault String × Document) × Ending × Option (List Char)
  | 0, _, _ => ([], .halted .malformed, none)
  | fuel + 1, first, cs =>
    match skipBlanks cs with
    | [] => ([], .halted .truncated, none)
    | c :: cs =>
      if c = '\x7d' then ([], .closed, some cs)
      else if first then
        if c = '"' then scanMember fuel cs else ([], .halted .malformed, none)
      else if c = ',' then
        match skipBlanks cs with
        | [] => ([], .afterComma .truncated, none)
        | d :: ds =>
          if d = '"' then scanMember fuel ds else ([], .afterComma .malformed, none)
      else ([], .halted .malformed, none)

def scanMember : (fuel : Nat) → List Char →
    List (Except Fault String × Document) × Ending × Option (List Char)
  | 0, _ => ([], .halted .malformed, none)
  | fuel + 1, cs =>
    match readString cs with
    | (key, .error f) => ([(key, .broken f)], .closed, none)
    | (key, .ok rest) =>
      match skipBlanks rest with
      | ':' :: rest =>
        match scanDocument fuel rest with
        | (d, none) => ([(key, d)], .closed, none)
        | (d, some rest) =>
          let (members, ending, rest?) := scanMembers fuel false rest
          ((key, d) :: members, ending, rest?)
      | missing => ([(key, .broken (.at missing))], .closed, none)

end

/-- The document on a page; characters after it other than blanks are a fault. -/
def Page.ofChars (cs : List Char) : Page :=
  match scanDocument (3 * cs.length + 3) cs with
  | (d, none) => ⟨d, none⟩
  | (d, some rest) => ⟨d, if (skipBlanks rest).isEmpty then none else some .malformed⟩

def Value.parse? (text : String) : Option Value :=
  match Page.ofChars text.toList with
  | ⟨d, none⟩ => d.toValue?
  | ⟨_, some _⟩ => none

end OperatorRules.Json
