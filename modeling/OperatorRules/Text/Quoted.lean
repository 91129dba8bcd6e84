import OperatorRules.Text.Digits
import OperatorRules.Text.Unprintable

/-!
# Quoted text

Text between double quotes, as messages show a string they were given: a quote and a backslash
follow a backslash, five controls have short escapes, and every other character that would not be
visible on its own is written as `\u{…}` with its code point. `unescape` reads the escapes back.
-/

namespace OperatorRules.Text

/-- How one character stands between the quotes. -/
def escapeChar (c : Char) : List Char :=
  if c = '"' then ['\\', '"']
  else if c = '\\' then ['\\', '\\']
  else if c = '\n' then ['\\', 'n']
  else if c = '\r' then ['\\', 'r']
  else if c = '\t' then ['\\', 't']
  else if c = '\x00' then ['\\', '0']
  else if isUnprintable c then ['\\', 'u', '\x7b'] ++ hexadecimal c.toNat ++ ['\x7d']
  else [c]

def escape (cs : List Char) : List Char := cs.flatMap escapeChar

def quoted (cs : List Char) : List Char := '"' :: escape cs ++ ['"']

/-- The string in double quotes, as messages show it. -/
def quote (s : String) : String := String.ofList (quoted s.toList)

def shortEscape? : Char → Option Char
  | '"' => some '"'
  | '\\' => some '\\'
  | '\'' => some '\''
  | 'n' => some '\n'
  | 'r' => some '\r'
  | 't' => some '\t'
  | '0' => some '\x00'
  | _ => none

/-- The character of a code point, surrogates excepted. -/
def scalar? (n : Nat) : Option Char :=
  if n.isValidChar then some (Char.ofNat n) else none

/-- Where the reader of escapes stands: between characters, behind a backslash, behind `\u`, or
among the digits of a code point. -/
inductive EscapeState where
  | plain
  | backslash
  | opening
  | code (digits : List Char)
  deriving DecidableEq, Repr

/-- Reads the escapes of quoted text back; nothing if an escape is malformed or a quote stands
alone. -/
def unescapeFrom : EscapeState → List Char → Option (List Char)
  | .plain, [] => some []
  | .plain, c :: cs =>
    if c = '\\' then unescapeFrom .backslash cs
    else if c = '"' then none
    else (unescapeFrom .plain cs).map (c :: ·)
  | .backslash, c :: cs =>
    if c = 'u' then unescapeFrom .opening cs
    else (shortEscape? c).bind fun d => (unescapeFrom .plain cs).map (d :: ·)
  | .opening, c :: cs => if c = '\x7b' then unescapeFrom (.code []) cs else none
  | .code ds, c :: cs =>
    if c = '\x7d' then
      ((ofDigits? 16 ds).bind scalar?).bind fun d => (unescapeFrom .plain cs).map (d :: ·)
    else unescapeFrom (.code (ds ++ [c])) cs
  | _, [] => none

def unescape (cs : List Char) : Option (List Char) := unescapeFrom .plain cs

/-- The text of which `cs` is the quoted form. -/
def unquoted? : List Char → Option (List Char)
  | '"' :: cs => if cs.getLast? = some '"' then unescape cs.dropLast else none
  | _ => none

end OperatorRules.Text
