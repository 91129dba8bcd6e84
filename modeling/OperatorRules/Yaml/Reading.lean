import OperatorRules.Yaml.Scalar

/-!
# Reading scalars

How a scalar is read back by the style that it shows. In single quotes a quote is written twice and
the indent after a break is no part of the text; in double quotes the escapes stand for characters;
a literal scalar loses its indentation, the width of which its header tells or its first line shows,
and its last breaks are treated as the header tells.
-/

namespace OperatorRules.Yaml

/-- The lines of a text, parted by every character that ends a line. -/
def lines : List Char → List (List Char)
  | [] => [[]]
  | c :: cs =>
    match lines cs with
    | [] => [[]]
    | l :: ls => if isBreak c then [] :: l :: ls else (c :: l) :: ls

/-! ## Single quotes -/

/-- Reads from behind the opening quote to the closing one, which has to be the last character;
`fresh` tells that a break was read last. -/
def readSingleFrom : (fresh : Bool) → List Char → Option (List Char)
  | _, ['\''] => some []
  | _, '\'' :: '\'' :: cs => (readSingleFrom false cs).map ('\'' :: ·)
  | _, '\'' :: _ => none
  | fresh, c :: cs =>
    if fresh && c == ' ' then readSingleFrom true cs
    else (readSingleFrom (isBreak c) cs).map (c :: ·)
  | _, [] => none

/-! ## Double quotes -/

def unescapeLetter? (c : Char) : Option Char :=
  match c with
  | '0' => some '\x00'
  | 'a' => some '\x07'
  | 'b' => some '\x08'
  | 't' => some '\t'
  | 'n' => some '\n'
  | 'v' => some '\x0b'
  | 'f' => some '\x0c'
  | 'r' => some '\r'
  | 'e' => some '\x1b'
  | '"' => some '"'
  | '\\' => some '\\'
  | 'N' => some '\u0085'
  | 'L' => some '\u2028'
  | 'P' => some '\u2029'
  | _ => none

/-- The number of digits after a letter that announces a code point. -/
def codeWidth? (c : Char) : Option Nat :=
  match c with
  | 'x' => some 2
  | 'u' => some 4
  | 'U' => some 8
  | _ => none

/-- Where the reader of double quotes stands: between characters, behind a backslash, or among the
digits of a code point, of which `left + 1` are still to come. -/
inductive DoubleState where
  | plain
  | backslash
  | code (left value : Nat)
  deriving DecidableEq, Repr

/-- Reads from behind the opening quote to the closing one, which has to be the last character. -/
def readDoubleFrom : DoubleState → List Char → Option (List Char)
  | .plain, c :: cs =>
    if c = '"' then if cs.isEmpty then some [] else none
    else if c = '\\' then readDoubleFrom .backslash cs
    else (readDoubleFrom .plain cs).map (c :: ·)
  | .backslash, c :: cs =>
    match codeWidth? c with
    | some width => readDoubleFrom (.code (width - 1) 0) cs
    | none => (unescapeLetter? c).bind fun d => (readDoubleFrom .plain cs).map (d :: ·)
  | .code left value, c :: cs =>
    (Text.digitValue? c).bind fun d =>
      match left with
      | 0 => (readDoubleFrom .plain cs).map (Char.ofNat (value * 16 + d) :: ·)
      | left + 1 => readDoubleFrom (.code left (value * 16 + d)) cs
  | _, [] => none

/-! ## Literal scalars -/

structure Header where
  /-- How much deeper than its parent the text is indented, if told. -/
  hint : Option Nat
  chomping : Chomping
  deriving DecidableEq, Repr

/-- Reads the rest of a header; gives what follows the end of its line. -/
def readHeader : List Char → Option (Header × List Char)
  | cs =>
    let (hint, cs) := match cs with
      | d :: ds => if '1' ≤ d ∧ d ≤ '9' then (Text.digitValue? d, ds) else (none, d :: ds)
      | [] => (none, [])
    match cs with
    | '-' :: '\n' :: body => some (⟨hint, .strip⟩, body)
    | '+' :: '\n' :: body => some (⟨hint, .keep⟩, body)
    | '\n' :: body => some (⟨hint, .clip⟩, body)
    | _ => none

/-- The text without up to `width` spaces at the start of each line; `left` of them may still go
from the line at hand. -/
def stripIndent (width : Nat) : (left : Nat) → List Char → List Char
  | _, [] => []
  | left, c :: cs =>
    if isBreak c then c :: stripIndent width width cs
    else if c = ' ' ∧ 0 < left then stripIndent width (left - 1) cs
    else c :: stripIndent width 0 cs

def Chomping.apply (k : Chomping) (cs : List Char) : List Char :=
  let content := (cs.reverse.dropWhile isBreak).reverse
  match k with
  | strip => content
  | clip => content ++ (cs.drop content.length).take 1
  | keep => cs

/-- Reads a literal scalar from behind its bar; its parent stands at `column`. -/
def readLiteral (column : Nat) (cs : List Char) : Option (List Char) :=
  (readHeader cs).map fun (header, body) =>
    let width := match header.hint with
      | some n => column + n
      | none => (body.takeWhile (· == ' ')).length
    header.chomping.apply (stripIndent width width body)

/-! ## All styles -/

def shownStyle : List Char → Style
  | '\'' :: _ => .single
  | '"' :: _ => .double
  | '|' :: _ => .literal
  | _ => .plain

def readScalar (column : Nat) (cs : List Char) : Option (List Char) :=
  match shownStyle cs with
  | .plain => some cs
  | .single => readSingleFrom false (cs.drop 1)
  | .double => readDoubleFrom .plain (cs.drop 1)
  | .literal => readLiteral column (cs.drop 1)

/-- Reads a scalar that ends its line, or its last line, in a mapping at `column`. -/
def readScalarLines (column : Nat) (cs : List Char) : Option (List Char) :=
  match shownStyle cs with
  | .literal => readScalar column cs
  | _ => if cs.getLast? = some '\n' then readScalar column cs.dropLast else none

end OperatorRules.Yaml
