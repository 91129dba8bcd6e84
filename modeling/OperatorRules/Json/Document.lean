import OperatorRules.Json.Value

/-!
# JSON documents as they stand

What a reader finds on a page, faults included. A document keeps the members of an object in the
order of the page and every one of them, and where the page stops being JSON it holds the fault.
So a decoder that goes through a document in order meets a wrong type and a fault in the order in
which they stand on the page.

A string or a number that is only skipped is read less strictly than one that is looked at: the
document keeps both readings. A value can also be laid out as a document, with the members of its
objects in ascending order.
-/

namespace OperatorRules.Json

/-- Why a page is not JSON: it breaks the grammar, or it ends too early. -/
inductive Fault where
  | malformed
  | truncated
  deriving DecidableEq, Repr

/-- The kind of a value, with its content if it is neither array nor object. -/
inductive Shape where
  | null
  | bool (b : Bool)
  | number (n : Number)
  | string (s : String)
  | array
  | object
  deriving DecidableEq, Repr

/-- What follows the last item of an array or the last member of an object. -/
inductive Ending where
  /-- The closing bracket. -/
  | closed
  /-- Neither a comma nor the closing bracket. -/
  | halted (fault : Fault)
  /-- A comma and then nothing that could follow one. -/
  | afterComma (fault : Fault)

/-- A document; `skipped` is the fault at which even a reader stops that only skips. -/
inductive Document where
  | null
  | bool (b : Bool)
  | number (content : Except Fault Number) (skipped : Option Fault)
  | string (content : Except Fault String) (skipped : Option Fault)
  | array (items : List Document) (ending : Ending)
  | object (members : List (Except Fault String × Document)) (ending : Ending)
  /-- One of the words null, true and false, begun and not finished. -/
  | word (fault : Fault)
  /-- Nothing that could be read as a value. -/
  | broken (fault : Fault)

/-- A document and the fault that follows it, if the page goes on. -/
structure Page where
  document : Document
  rest : Option Fault

/-- The fault at an ending that is no closing bracket. -/
def Ending.fault? : Ending → Option Fault
  | closed => none
  | halted f => some f
  | afterComma f => some f

namespace Document

mutual

/-- The first fault that a reader meets who skips the document. -/
def skipFault? : Document → Option Fault
  | .null => none
  | .bool _ => none
  | .number _ skipped => skipped
  | .string _ skipped => skipped
  | .array items ending => skipItems items ending
  | .object members ending => skipMembers members ending
  | .word f => some f
  | .broken f => some f

def skipItems : List Document → Ending → Option Fault
  | [], ending => ending.fault?
  | d :: ds, ending => d.skipFault?.or (skipItems ds ending)

def skipMembers : List (Except Fault String × Document) → Ending → Option Fault
  | [], ending => ending.fault?
  | (_, d) :: ms, ending => d.skipFault?.or (skipMembers ms ending)

end

/-- The kind of a document at its start; a fault if it shows none. -/
def shape : Document → Except Fault Shape
  | .null => .ok .null
  | .bool b => .ok (.bool b)
  | .number content _ => content.map .number
  | .string content _ => content.map .string
  | .array .. => .ok .array
  | .object .. => .ok .object
  | .word f => .error f
  | .broken f => .error f

mutual

/-- A value laid out in the order that it fixes. -/
def ofValue : Value → Document
  | .null => .null
  | .bool b => .bool b
  | .number n => .number (.ok n) none
  | .string s => .string (.ok s) none
  | .array items => .array (ofItems items) .closed
  | .object members => .object (ofMembers members) .closed

def ofItems : List Value → List Document
  | [] => []
  | v :: vs => ofValue v :: ofItems vs

def ofMembers : List (String × Value) → List (Except Fault String × Document)
  | [] => []
  | (k, v) :: ms => (.ok k, ofValue v) :: ofMembers ms

end

mutual

/-- The value of a document without faults, the members of its objects in ascending order and the
last one of a key. -/
def toValue? : Document → Option Value
  | .null => some .null
  | .bool b => some (.bool b)
  | .number (.ok n) _ => some (.number n)
  | .string (.ok s) _ => some (.string s)
  | .array items .closed => (itemValues? items).map .array
  | .object members .closed =>
    (memberValues? members).map fun ms => .object (Roster.ofList ms).toList
  | _ => none

def itemValues? : List Document → Option (List Value)
  | [] => some []
  | d :: ds => do return (← d.toValue?) :: (← itemValues? ds)

def memberValues? : List (Except Fault String × Document) → Option (List (String × Value))
  | [] => some []
  | (.ok k, d) :: ms => do return (k, ← d.toValue?) :: (← memberValues? ms)
  | (.error _, _) :: _ => none

end

end Document

mutual

/-- The value with the members of every object in ascending order and the last one of a key. -/
def Value.sorted : Value → Value
  | .array items => .array (sortedItems items)
  | .object members => .object (Roster.ofList (sortedMembers members)).toList
  | v => v

def Value.sortedItems : List Value → List Value
  | [] => []
  | v :: vs => v.sorted :: sortedItems vs

def Value.sortedMembers : List (String × Value) → List (String × Value)
  | [] => []
  | (k, v) :: ms => (k, v.sorted) :: sortedMembers ms

end

end OperatorRules.Json
