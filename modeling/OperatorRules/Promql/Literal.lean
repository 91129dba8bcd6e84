import OperatorRules.Text.Digits

/-!
# String literals of PromQL

A literal stands between two single quotes on one line and denotes bytes. A backslash starts an
escape: a letter for a control character, a quote or a backslash, or the digits of a byte or of a
code point. The literal ends at the first quote that is not escaped, and everything else in it
denotes its UTF-8 encoding.
-/

namespace OperatorRules.Promql

def shortEscape? (c : Char) : Option UInt8 :=
  match c with
  | 'a' => some 0x07
  | 'b' => some 0x08
  | 'f' => some 0x0c
  | 'n' => some 0x0a
  | 'r' => some 0x0d
  | 't' => some 0x09
  | 'v' => some 0x0b
  | '\\' => some 0x5c
  | '\'' => some 0x27
  | _ => none

/-- An escape with digits: of a byte, in octal or in hexadecimal, or of a code point, with four
digits or eight. -/
inductive NumericEscape where
  | octal
  | byte
  | short
  | long
  deriving DecidableEq, Repr

namespace NumericEscape

/-- What stands between the backslash and the digits. -/
def mark : NumericEscape → List Char
  | octal => []
  | byte => ['x']
  | short => ['u']
  | long => ['U']

def base : NumericEscape → Nat
  | octal => 8
  | _ => 16

def width : NumericEscape → Nat
  | octal => 3
  | byte => 2
  | short => 4
  | long => 8

/-- What the digits denote; nothing if one is no digit, or if there is no such byte or character. -/
def bytes? (e : NumericEscape) (ds : List Char) : Option (List UInt8) :=
  (Text.ofDigits? e.base ds).bind fun n =>
    match e with
    | octal | byte => if n < 256 then some [UInt8.ofNat n] else none
    | short | long => if n.isValidChar then some (String.utf8EncodeChar (Char.ofNat n)) else none

/-- The escape that a character behind the backslash starts, and its first digit if that is one. -/
def start? (c : Char) : Option (NumericEscape × List Char) :=
  match c with
  | 'x' => some (.byte, [])
  | 'u' => some (.short, [])
  | 'U' => some (.long, [])
  | _ => if '0' ≤ c ∧ c ≤ '7' then some (.octal, [c]) else none

end NumericEscape

/-- Where the reader stands: between characters, behind a backslash, or behind some of the digits of
an escape. -/
inductive LiteralState where
  | plain
  | backslash
  | digits (e : NumericEscape) (ds : List Char)
  deriving DecidableEq, Repr

def prepend (first : List UInt8) (read : Option (List UInt8 × List Char)) :
    Option (List UInt8 × List Char) :=
  read.map fun (bytes, rest) => (first ++ bytes, rest)

/-- Reads from behind the opening quote; gives the bytes and what follows the closing quote. -/
def readLiteralFrom : LiteralState → List Char → Option (List UInt8 × List Char)
  | _, [] => none
  | .plain, c :: cs =>
    if c = '\'' then some ([], cs)
    else if c = '\n' then none
    else if c = '\\' then readLiteralFrom .backslash cs
    else prepend (String.utf8EncodeChar c) (readLiteralFrom .plain cs)
  | .backslash, c :: cs =>
    match NumericEscape.start? c with
    | some (e, ds) => readLiteralFrom (.digits e ds) cs
    | none => (shortEscape? c).bind fun b => prepend [b] (readLiteralFrom .plain cs)
  | .digits e ds, c :: cs =>
    if ds.length + 1 < e.width then readLiteralFrom (.digits e (ds ++ [c])) cs
    else (e.bytes? (ds ++ [c])).bind fun first => prepend first (readLiteralFrom .plain cs)

/-- Reads a literal at the start of a text; gives what it denotes and what follows it. -/
def readLiteral : List Char → Option (List UInt8 × List Char)
  | '\'' :: cs => readLiteralFrom .plain cs
  | _ => none

/-- What follows the first occurrence of `word`. -/
def after? (word : List Char) : List Char → Option (List Char)
  | [] => if word.isEmpty then some [] else none
  | c :: cs =>
    if word.isPrefixOf (c :: cs) then some ((c :: cs).drop word.length) else after? word cs

/-- The value that an expression compares the first label of the name with, and what follows it. -/
def labelValue? (label : String) (expr : String) : Option (List UInt8 × List Char) :=
  (after? (label.toList ++ ['=']) expr.toList).bind readLiteral

end OperatorRules.Promql
