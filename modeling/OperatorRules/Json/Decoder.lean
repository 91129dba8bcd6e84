import OperatorRules.Json.Reader
import OperatorRules.Text.Quoted

/-!
# Decoding

From a document to data with fields. A record is given as an object, or as an array of its fields
in their declared order. Its fields are first tried in the order of the document, so that the first
error on the page is the one reported; then each is taken by its name, so the order of the fields
and fields of other names leave no trace in the result. The last stage alone knows which fields may
be absent.

The two sources of documents differ in two places: what is left over in an array that stands for a
record, and what may stand for a choice.
-/

namespace OperatorRules.Json

inductive Source where
  | text
  | value
  deriving DecidableEq, Repr

inductive DecodeError where
  /-- The page is not JSON. -/
  | fault (f : Fault)
  | invalidType (found : Shape) (expected : String)
  | invalidValue (found : Shape) (expected : String)
  | invalidLength (length : Nat) (expected : String)
  | missingField (name : String)
  | duplicateField (name : String)
  | unknownVariant (name : String) (expected : String)
  deriving DecidableEq, Repr

/-- What messages call a value. -/
def Shape.text : Shape → String
  | null => "null"
  | bool true => "boolean `true`"
  | bool false => "boolean `false`"
  | number (.integer n) => "integer `" ++ String.ofList (Number.integer n).chars ++ "`"
  | number n => "floating point `" ++ String.ofList n.chars ++ "`"
  | string s => "string " ++ Text.quote s
  | array => "sequence"
  | object => "map"

/-- The text of an error; a page that is not JSON has none. -/
def DecodeError.message? : DecodeError → Option String
  | fault _ => none
  | invalidType found expected => some ("invalid type: " ++ found.text ++ ", expected " ++ expected)
  | invalidValue found expected =>
    some ("invalid value: " ++ found.text ++ ", expected " ++ expected)
  | invalidLength n expected =>
    some ("invalid length " ++ String.ofList (Text.decimal n) ++ ", expected " ++ expected)
  | missingField name => some ("missing field `" ++ name ++ "`")
  | duplicateField name => some ("duplicate field `" ++ name ++ "`")
  | unknownVariant name expected =>
    some ("unknown variant `" ++ name ++ "`, expected " ++ expected)

abbrev Decoded (α : Type) := Except DecodeError α

/-- A document is decoded with regard to its source. -/
abbrev Decoder (α : Type) := Source → Document → Decoded α

def orFault {α : Type} : Except Fault α → Decoded α
  | .ok a => .ok a
  | .error f => .error (.fault f)

/-- Fails unless the ending is a closing bracket. -/
def Ending.close (e : Ending) : Decoded Unit :=
  match e.fault? with
  | none => .ok ()
  | some f => .error (.fault f)

namespace Document

/-- Reports that something else was expected, or the fault that stands in its place. -/
def mismatch {α : Type} (d : Document) (expected : String) : Decoded α :=
  match d.shape with
  | .ok found => .error (.invalidType found expected)
  | .error f => .error (.fault f)

def skip (d : Document) : Decoded Unit :=
  match d.skipFault? with
  | none => .ok ()
  | some f => .error (.fault f)

def text : Document → Decoded String
  | .string content _ => orFault content
  | d => d.mismatch "a string"

def text? : Document → Decoded (Option String)
  | .null => .ok none
  | d => d.text.map some

/-- Decodes the null that goes with a choice. -/
def unit : Document → Decoded Unit
  | .null => .ok ()
  | d => d.mismatch "unit"

def each {α : Type} (read : Document → Decoded α) : List Document → Ending → Decoded (List α)
  | [], ending => ending.close.map fun _ => []
  | d :: ds, ending => do
    let a ← read d
    let rest ← each read ds ending
    return a :: rest

def list {α : Type} (read : Document → Decoded α) : Document → Decoded (List α)
  | .array items ending => each read items ending
  | d => d.mismatch "a sequence"

/-- Decodes members with strings in order; the last of a key stays. -/
def eachEntry : Entries → List (Except Fault String × Document) → Ending → Decoded Entries
  | e, [], ending => ending.close.map fun _ => e
  | e, (key, d) :: ms, ending => do
    let k ← orFault key
    let v ← d.text
    eachEntry (e.set k v) ms ending

def entries : Document → Decoded Entries
  | .object members ending => eachEntry ∅ members ending
  | d => d.mismatch "a map"

def nullable {α : Type} (read : Document → Decoded α) : Document → Decoded (Option α)
  | .null => .ok none
  | d => (read d).map some

/-! ## Choices -/

/-- The names of a choice, as errors list them. -/
def alternatives : List String → String
  | [] => ""
  | [a] => "`" ++ a ++ "`"
  | [a, b] => "`" ++ a ++ "` or `" ++ b ++ "`"
  | a :: l => "`" ++ a ++ "`, " ++ alternatives l

def variant {α : Type} (choices : List (String × α)) (name : String) : Decoded α :=
  match choices.lookup name with
  | some a => .ok a
  | none => .error (.unknownVariant name (alternatives (choices.map Prod.fst)))

/-- Decodes the only member of an object as a choice, up to the end of the object. -/
def taggedVariant {α : Type} (choices : List (String × α)) (key : Except Fault String)
    (d : Document) : Decoded α := do
  let a ← variant choices (← orFault key)
  d.unit
  return a

/-- Decodes a choice: its name, or an object with its name as only key and null. -/
def choice {α : Type} (choices : List (String × α)) : Decoder α
  | _, .string content _ => do variant choices (← orFault content)
  | .text, .object ((key, d) :: ms) ending => do
    let a ← taggedVariant choices key d
    match ms, ending with
    | [], .closed => return a
    | [], .halted f => .error (.fault f)
    | _, _ => .error (.fault .malformed)
  | .text, .object [] (.halted f) => .error (.fault f)
  | .text, .broken f => .error (.fault f)
  | .text, _ => .error (.fault .malformed)
  | .value, .object [(key, d)] _ => taggedVariant choices key d
  | .value, .object _ _ => .error (.invalidValue .object "map with a single key")
  | .value, d => d.mismatch "string or map"

end Document

/-! ## Records -/

/-- A field of a record: its key, and a trial of what stands under it. -/
structure Field where
  key : String
  trial : Document → Decoded Unit

def Field.of {α : Type} (key : String) (read : Document → Decoded α) : Field :=
  ⟨key, fun d => (read d).map fun _ => ()⟩

/-- The fields that were found, and the error for a required one that was not. -/
structure Members where
  found : List (String × Document)
  absent : String → DecodeError

namespace Members

def required {α : Type} (m : Members) (key : String) (read : Document → Decoded α) : Decoded α :=
  match m.found.lookup key with
  | some d => read d
  | none => .error (m.absent key)

def optional {α : Type} (m : Members) (key : String) (read : Document → Decoded α) (default : α) :
    Decoded α :=
  match m.found.lookup key with
  | some d => read d
  | none => .ok default

end Members

/-- A kind of record: its name and its fields in their declared order. -/
structure Record where
  name : String
  fields : List Field

namespace Record

def title (r : Record) : String := "struct " ++ r.name

def field? (r : Record) (key : String) : Option Field := r.fields.find? fun f => f.key == key

/-- Tries the members of an object in order. What was found comes first that stands last; a key
that is there already is an error unless `repeats`, and then covers the earlier one. -/
def gather (r : Record) (repeats : Bool) (found : List (String × Document)) :
    List (Except Fault String × Document) → Ending → Decoded (List (String × Document))
  | [], ending => ending.close.map fun _ => found
  | (key, d) :: ms, ending => do
    let k ← orFault key
    match r.field? k with
    | none =>
      d.skip
      gather r repeats found ms ending
    | some f =>
      if !repeats && (found.lookup k).isSome then .error (.duplicateField k)
      else
        f.trial d
        gather r repeats ((k, d) :: found) ms ending

/-- Tries the items of an array as the fields in order; what is left over is an error. -/
def align (r : Record) (source : Source) (length : Nat) :
    List Field → List Document → Ending → Decoded (List (String × Document))
  | f :: fs, d :: ds, ending => do
    f.trial d
    return (f.key, d) :: (← align r source length fs ds ending)
  | _ :: _, [], ending => ending.close.map fun _ => []
  | [], [], .closed => .ok []
  | [], [], .halted f => .error (.fault f)
  | [], _, _ =>
    match source with
    | .text => .error (.fault .malformed)
    | .value => .error (.invalidLength length "fewer elements in array")

/-- The error for an array that ends before a required field. -/
def tooShort (r : Record) (key : String) : DecodeError :=
  .invalidLength (r.fields.findIdx fun f => f.key == key)
    (r.title ++ " with " ++ String.ofList (Text.decimal r.fields.length) ++ " elements")

def members (r : Record) (source : Source) : Document → Decoded Members
  | .object ms ending => do
    return ⟨← r.gather false [] ms ending, .missingField⟩
  | .array items ending => do
    return ⟨← r.align source items.length r.fields items ending, r.tooShort⟩
  | d => d.mismatch r.title

/-- The fields of a record that is only given as an object, in which keys may repeat. -/
def looseMembers (r : Record) : Document → Decoded Members
  | .object ms ending => do
    return ⟨← r.gather true [] ms ending, .missingField⟩
  | d => d.mismatch r.name

end Record

def decodeText {α : Type} (read : Decoder α) (text : String) : Decoded α := do
  let page := Page.ofChars text.toList
  let a ← read .text page.document
  match page.rest with
  | none => return a
  | some f => .error (.fault f)

/-- Decodes a value, whose objects are visited in ascending order of their keys. -/
def decodeValue {α : Type} (read : Decoder α) (v : Value) : Decoded α :=
  read .value (.ofValue v.sorted)

end OperatorRules.Json
