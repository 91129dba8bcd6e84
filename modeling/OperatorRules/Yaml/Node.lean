import OperatorRules.Yaml.Scalar

/-!
# Writing trees

A tree of texts in block style. Fields have plain names fixed by the writer; entries have any text
as a key. A mapping inside a mapping is indented by two, a list inside a mapping is not indented,
and a mapping inside a list starts on the line of its dash. A key that is long or holds a break is
announced by a question mark.
-/

namespace OperatorRules.Yaml

/-- A tree of texts. -/
inductive Node where
  | text (s : String)
  | entries (l : List (String × String))
  | list (items : List Node)
  | fields (members : List (String × Node))

/-- The longest key, in bytes, that is written without an announcement. -/
def simpleKeyLength : Nat := 128

def isSimpleKey (key : String) : Bool :=
  key.utf8ByteSize ≤ simpleKeyLength && !key.toList.any isBreak

/-- An entry of a mapping at a column, without the spaces in front. -/
def entryLines (column : Nat) (key value : String) : List Char :=
  (if isSimpleKey key then scalar (column + 2) key.toList
    else ['?', ' '] ++ scalarLines (column + 2) key.toList ++ spaces column) ++
  [':', ' '] ++ scalarLines (column + 2) value.toList

namespace Node

mutual

/-- What follows the colon of a field at a column, up to the end of the last line. -/
def afterColon (column : Nat) : Node → List Char
  | .text s => ' ' :: scalarLines (column + 2) s.toList
  | .entries [] => [' ', '\x7b', '\x7d', '\n']
  | .entries l =>
    '\n' :: l.flatMap fun (k, v) => spaces (column + 2) ++ entryLines (column + 2) k v
  | .list [] => [' ', '[', ']', '\n']
  | .list (n :: ns) => '\n' :: itemLines column (n :: ns)
  | .fields [] => [' ', '\x7b', '\x7d', '\n']
  | .fields (m :: ms) => '\n' :: fieldLines (column + 2) (m :: ms)

def itemLines (column : Nat) : List Node → List Char
  | [] => []
  | n :: ns => spaces column ++ ['-', ' '] ++ n.afterDash (column + 2) ++ itemLines column ns

/-- What follows a dash, at a column, up to the end of the last line. -/
def afterDash (column : Nat) : Node → List Char
  | .text s => scalarLines column s.toList
  | .entries [] => ['\x7b', '\x7d', '\n']
  | .entries ((k, v) :: l) =>
    entryLines column k v ++ l.flatMap fun (k, v) => spaces column ++ entryLines column k v
  | .list [] => ['[', ']', '\n']
  | .list (n :: ns) => ['-', ' '] ++ n.afterDash (column + 2) ++ itemLines column ns
  | .fields [] => ['\x7b', '\x7d', '\n']
  | .fields ((k, n) :: ms) =>
    k.toList ++ ':' :: n.afterColon column ++ fieldLines column ms

def fieldLines (column : Nat) : List (String × Node) → List Char
  | [] => []
  | (k, n) :: ms =>
    spaces column ++ k.toList ++ ':' :: n.afterColon column ++ fieldLines column ms

end

end Node

end OperatorRules.Yaml
