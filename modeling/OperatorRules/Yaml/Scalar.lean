import OperatorRules.Yaml.Style

/-!
# Writing scalars

How a text is written in each style. Where a scalar goes on after a break, its next line starts with
the indent; only in a literal scalar do the lines keep their breaks for what they are.
-/

namespace OperatorRules.Yaml

def spaces (n : Nat) : List Char := List.replicate n ' '

/-- Writes a text with the indent in front of what follows a break; `fresh` tells that a break was
written last. A character stands as `char` writes it. -/
def indented (indent : Nat) (char : Char → List Char) : (fresh : Bool) → List Char → List Char
  | _, [] => []
  | fresh, c :: cs =>
    if isBreak c then c :: indented indent char true cs
    else (if fresh then spaces indent else []) ++ char c ++ indented indent char false cs

/-- A quote is written twice. -/
def doubleQuote (c : Char) : List Char := if c = '\'' then ['\'', '\''] else [c]

def singleQuoted (indent : Nat) (cs : List Char) : List Char :=
  '\'' :: indented indent doubleQuote false cs ++
    (if cs.getLast?.any isBreak then spaces indent else []) ++ ['\'']

def escapeLetter? (c : Char) : Option Char :=
  match c with
  | '\x00' => some '0'
  | '\x07' => some 'a'
  | '\x08' => some 'b'
  | '\t' => some 't'
  | '\n' => some 'n'
  | '\x0b' => some 'v'
  | '\x0c' => some 'f'
  | '\r' => some 'r'
  | '\x1b' => some 'e'
  | '"' => some '"'
  | '\\' => some '\\'
  | '\u0085' => some 'N'
  | '\u2028' => some 'L'
  | '\u2029' => some 'P'
  | _ => none

def upperHexadecimal (width n : Nat) : List Char := (Text.paddedDigits 16 width n).map Char.toUpper

def codeEscape (c : Char) : List Char :=
  let n := c.toNat
  if n < 0x100 then 'x' :: upperHexadecimal 2 n
  else if n < 0x10000 then 'u' :: upperHexadecimal 4 n
  else 'U' :: upperHexadecimal 8 n

def escapeChar (c : Char) : List Char :=
  match escapeLetter? c with
  | some letter => ['\\', letter]
  | none => if isPrintable c then [c] else '\\' :: codeEscape c

def doubleQuoted (cs : List Char) : List Char := '"' :: cs.flatMap escapeChar ++ ['"']

/-- What happens to the breaks at the end of a literal scalar. -/
inductive Chomping where
  /-- The last break is not part of the text. -/
  | strip
  /-- The text ends in one break. -/
  | clip
  /-- All breaks are part of the text. -/
  | keep
  deriving DecidableEq, Repr

def chomping (cs : List Char) : Chomping :=
  match cs.reverse with
  | [] => .strip
  | [c] => if isBreak c then .keep else .strip
  | c :: d :: _ => if isBreak c then if isBreak d then .keep else .clip else .strip

def Chomping.sign : Chomping → List Char
  | strip => ['-']
  | clip => []
  | keep => ['+']

/-- The width of the indent, which is told if the text starts with a space or a break. -/
def indentHint (cs : List Char) : List Char :=
  if cs.head?.any isSpaceOrBreak then ['2'] else []

/-- A text written literally, without the break after a last line that does not end in one. -/
def literal (indent : Nat) (cs : List Char) : List Char :=
  '|' :: indentHint cs ++ (chomping cs).sign ++ '\n' :: indented indent (fun c => [c]) true cs

def scalarIn (indent : Nat) (cs : List Char) : Style → List Char
  | .plain => cs
  | .single => singleQuoted indent cs
  | .double => doubleQuoted cs
  | .literal => literal indent cs

def scalar (indent : Nat) (cs : List Char) : List Char := scalarIn indent cs (styleOf cs)

/-- A text in its style up to the end of its last line. -/
def scalarLines (indent : Nat) (cs : List Char) : List Char :=
  scalar indent cs ++
    if styleOf cs = .literal ∧ chomping cs ≠ .strip then [] else ['\n']

end OperatorRules.Yaml
