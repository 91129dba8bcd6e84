import OperatorRules.Yaml.Resolve

/-!
# Styles of scalars

Which characters and which places in a text rule out a style, and the style that is chosen. A text
with a line feed is written literally if it can be, any other text plainly; what cannot be written
plainly is put in single quotes, and what cannot be put there in double quotes.
-/

namespace OperatorRules.Yaml

def isBreak (c : Char) : Bool :=
  c == '\n' || c == '\r' || c == '\u0085' || c == '\u2028' || c == '\u2029'

def isPrintable (c : Char) : Bool :=
  let n := c.toNat
  c == '\n' || (0x20 ≤ n && n ≤ 0x7e) || (0xa0 ≤ n && n != 0xfeff && n != 0xfffe && n != 0xffff)

/-- Space, tab, a break or the null character; also the edge of the text counts as blank. -/
def isBlank (c : Char) : Bool := c == ' ' || c == '\t' || c == '\x00' || isBreak c

/-- Whether the text starts with something blank or is at its end. -/
def startsBlank : List Char → Bool
  | [] => true
  | c :: _ => isBlank c

def anyNeighbours (p : Char → Char → Bool) : List Char → Bool
  | c :: d :: cs => p c d || anyNeighbours p (d :: cs)
  | _ => false

def hasSpaceBreak (cs : List Char) : Bool := anyNeighbours (fun c d => c == ' ' && isBreak d) cs

def hasBreakSpace (cs : List Char) : Bool := anyNeighbours (fun c d => isBreak c && d == ' ') cs

/-- A text that only double quotes can hold. -/
def isSpecial (cs : List Char) : Bool := cs.any (fun c => !isPrintable c) || hasSpaceBreak cs

def isSpaceOrBreak (c : Char) : Bool := c == ' ' || isBreak c

def hasOpenEdge (cs : List Char) : Bool :=
  cs.head?.any isSpaceOrBreak || cs.getLast?.any isSpaceOrBreak

/-- Characters that cannot start a plain scalar. -/
def indicators : List Char :=
  ['#', ',', '[', ']', '\x7b', '\x7d', '&', '*', '!', '|', '>', '\'', '"', '%', '@', '\x60']

/-- Characters that cannot start a plain scalar if something blank follows. -/
def blankIndicators : List Char := ['?', ':', '-']

/-- A text that starts like something else than a plain scalar. -/
def startsIndicator : List Char → Bool
  | [] => false
  | c :: cs =>
    c ∈ indicators || (c ∈ blankIndicators && startsBlank cs) ||
      ['-', '-', '-'].isPrefixOf (c :: cs) || ['.', '.', '.'].isPrefixOf (c :: cs)

/-- A colon before something blank; the end of the text counts as blank. -/
def hasColonBlank : List Char → Bool
  | [] => false
  | c :: cs => (c == ':' && startsBlank cs) || hasColonBlank cs

def hasBlankHash (cs : List Char) : Bool := anyNeighbours (fun c d => isBlank c && d == '#') cs

def plainAllowed (cs : List Char) : Bool :=
  !(isSpecial cs || hasBreakSpace cs || hasOpenEdge cs || cs.any isBreak || startsIndicator cs ||
    hasColonBlank cs || hasBlankHash cs)

def singleAllowed (cs : List Char) : Bool := !(isSpecial cs || hasBreakSpace cs)

def literalAllowed (cs : List Char) : Bool := !(isSpecial cs || cs.getLast? == some ' ')

inductive Style where
  | plain
  | single
  | double
  | literal
  deriving DecidableEq, Repr

def styleOf (cs : List Char) : Style :=
  if cs.contains '\n' then if literalAllowed cs then .literal else .double
  else if !isAmbiguous cs && plainAllowed cs then .plain
  else if singleAllowed cs then .single
  else .double

end OperatorRules.Yaml
