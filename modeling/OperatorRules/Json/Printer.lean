import OperatorRules.Json.Value

/-!
# Writing JSON

Two forms of a value: the compact one without any blank, and the pretty one with a member or an
item on each line, indented by two. Strings are escaped alike in both: quote, backslash and the
controls below the space; everything else stands for itself.
-/

namespace OperatorRules.Json

/-- How one character stands in a string. -/
def escapeChar (c : Char) : List Char :=
  if c = '"' then ['\\', '"']
  else if c = '\\' then ['\\', '\\']
  else if c = '\x08' then ['\\', 'b']
  else if c = '\x0c' then ['\\', 'f']
  else if c = '\n' then ['\\', 'n']
  else if c = '\r' then ['\\', 'r']
  else if c = '\t' then ['\\', 't']
  else if c.toNat < 0x20 then ['\\', 'u'] ++ Text.paddedDigits 16 4 c.toNat
  else [c]

def stringChars (s : String) : List Char := '"' :: s.toList.flatMap escapeChar ++ ['"']

namespace Value

mutual

/-- The value without blanks. -/
def compact : Value → List Char
  | .null => ['n', 'u', 'l', 'l']
  | .bool true => ['t', 'r', 'u', 'e']
  | .bool false => ['f', 'a', 'l', 's', 'e']
  | .number n => n.chars
  | .string s => stringChars s
  | .array [] => ['[', ']']
  | .array (v :: vs) => '[' :: v.compact ++ compactItems vs
  | .object [] => ['\x7b', '\x7d']
  | .object ((k, v) :: ms) => '\x7b' :: stringChars k ++ ':' :: v.compact ++ compactMembers ms

/-- The items after the first, and the end of the array. -/
def compactItems : List Value → List Char
  | [] => [']']
  | v :: vs => ',' :: v.compact ++ compactItems vs

def compactMembers : List (String × Value) → List Char
  | [] => ['\x7d']
  | (k, v) :: ms => ',' :: stringChars k ++ ':' :: v.compact ++ compactMembers ms

end

/-- A new line, indented by two for each of `depth` levels. -/
def newline (depth : Nat) : List Char := '\n' :: List.replicate (2 * depth) ' '

mutual

/-- The value with a line for each item and member, inside `depth` levels. -/
def prettyAt (depth : Nat) : Value → List Char
  | .array [] => ['[', ']']
  | .array (v :: vs) =>
    '[' :: newline (depth + 1) ++ v.prettyAt (depth + 1) ++ prettyItems depth vs
  | .object [] => ['\x7b', '\x7d']
  | .object ((k, v) :: ms) =>
    '\x7b' :: newline (depth + 1) ++ stringChars k ++ [':', ' '] ++ v.prettyAt (depth + 1) ++
      prettyMembers depth ms
  | .null => Value.null.compact
  | .bool b => (Value.bool b).compact
  | .number n => n.chars
  | .string s => stringChars s

def prettyItems (depth : Nat) : List Value → List Char
  | [] => newline depth ++ [']']
  | v :: vs => ',' :: newline (depth + 1) ++ v.prettyAt (depth + 1) ++ prettyItems depth vs

def prettyMembers (depth : Nat) : List (String × Value) → List Char
  | [] => newline depth ++ ['\x7d']
  | (k, v) :: ms =>
    ',' :: newline (depth + 1) ++ stringChars k ++ [':', ' '] ++ v.prettyAt (depth + 1) ++
      prettyMembers depth ms

end

def compactText (v : Value) : String := String.ofList v.compact

def prettyText (v : Value) : String := String.ofList (v.prettyAt 0)

end Value

end OperatorRules.Json
