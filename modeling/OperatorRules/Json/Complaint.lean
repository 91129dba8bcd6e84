import OperatorRules.Text.Digits

/-!
# Complaints about JSON

What a reader or writer of JSON complains of, and the place that it means. A complaint made in words
may name its place at the end, ` at line 3 column 5`; such an end is taken for the place. Lines are
counted from one, so line zero is no place and is not shown.
-/

namespace OperatorRules.Json

structure Place where
  line : Nat
  column : Nat
  deriving DecidableEq, Repr

/-- A complaint and the place that it means. -/
structure Complaint where
  words : String
  place : Place := ⟨0, 0⟩
  deriving DecidableEq, Repr

namespace Complaint

def lineWords : List Char := " at line ".toList

def columnWords : List Char := " column ".toList

/-- What precedes and what follows the last occurrence of `word`. -/
def splitLast? (word : List Char) : List Char → Option (List Char × List Char)
  | [] => none
  | c :: cs =>
    match splitLast? word cs with
    | some (before, after) => some (c :: before, after)
    | none =>
      if word.isPrefixOf (c :: cs) then some ([], (c :: cs).drop word.length) else none

/-- A number of 64 bits, in decimal. -/
def count? (ds : List Char) : Option Nat :=
  if ds.isEmpty then none else (Text.ofDigits? 10 ds).filter (· < Nat.pow 2 64)

/-- The place that a text names from the words for the line on. -/
def place? (cs : List Char) : Option Place :=
  let (line, rest) := Text.splitDigits cs
  if columnWords.isPrefixOf rest then
    let (column, rest) := Text.splitDigits (rest.drop columnWords.length)
    if rest.isEmpty then do return ⟨← count? line, ← count? column⟩ else none
  else none

/-- A complaint in words, with the place that their end names. -/
def ofWords (words : String) : Complaint :=
  let found := do
    let (before, after) ← splitLast? lineWords words.toList
    return (String.ofList before, ← place? after)
  match found with
  | some (words, place) => { words, place }
  | none => { words }

def message (c : Complaint) : String :=
  if c.place.line = 0 then c.words
  else c.words ++ String.ofList (lineWords ++ Text.decimal c.place.line ++
    columnWords ++ Text.decimal c.place.column)

end Complaint

end OperatorRules.Json
