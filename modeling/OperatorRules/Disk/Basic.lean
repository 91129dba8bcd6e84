import OperatorRules.Disk.Error
import OperatorRules.Disk.Path

/-!
# The disk

Files and directories at locations, the lists of names that lead to them from the root. Changing
one location leaves every other as it was. A path is followed from the current directory: each
segment but the last has to lead to a directory, and `..` leads to the directory above.
-/

namespace OperatorRules

/-- The names from the root to a place. -/
abbrev Location := List String

inductive Entry where
  | file (mode : Nat) (content : ByteArray)
  | directory

instance : DecidableEq Entry
  | .file mode content, .file mode' content' =>
    decidable_of_iff (mode = mode' ∧ content.data = content'.data) <| by
      rw [Entry.file.injEq, ByteArray.ext_iff]
  | .directory, .directory => .isTrue rfl
  | .file .., .directory => .isFalse nofun
  | .directory, .file .. => .isFalse nofun

/-- Entries at locations, at most one each. The root is always a directory. -/
structure Disk where
  entries : List (Location × Entry)
  deriving DecidableEq

namespace Disk

def empty : Disk := ⟨[]⟩

instance : EmptyCollection Disk := ⟨empty⟩
instance : Inhabited Disk := ⟨empty⟩

def get? (d : Disk) (l : Location) : Option Entry :=
  if l.isEmpty then some .directory else d.entries.lookup l

def erase (d : Disk) (l : Location) : Disk := ⟨d.entries.filter fun p => p.1 != l⟩

def put (d : Disk) (l : Location) (e : Entry) : Disk := ⟨(l, e) :: (d.erase l).entries⟩

/-- The disk with a directory at a location and at all above it that are missing. -/
def putDirectories (d : Disk) (l : Location) : Disk :=
  ((List.range l.length).map fun n => l.take (n + 1)).foldl
    (fun d l => if (d.get? l).isSome then d else d.put l .directory) d

/-- The longest name, in bytes. -/
def longestName : Nat := 255

/-- Paths as long as this, in bytes, are refused. -/
def pathLimit : Nat := 4096

def hasNull (s : String) : Bool := s.toList.contains '\x00'

/-- A path as it is followed: from where, its segments except the last, and the last. -/
structure Route where
  start : Location
  inner : List String
  last : String
  /-- Whether a slash follows the last segment. -/
  slashed : Bool
  deriving DecidableEq, Repr

/-- How a path is followed from a directory; none if it has no segment at all. -/
def Route.ofPath? (cwd : Location) (path : List Char) : Option Route :=
  let segments := (Path.splitSlash path).map String.ofList
  match (segments.filter (· ≠ "")).reverse with
  | [] => none
  | last :: inner =>
    some {
      start := if Path.isAbsolute path then [] else cwd
      inner := inner.reverse
      last
      slashed := path.getLast? == some '/' }

/-- Follows one segment from a directory. -/
def step (d : Disk) (here : Location) (segment : String) : Except SystemError Location :=
  if d.get? here != some .directory then
    .error (if (d.get? here).isSome then .notDirectory else .notFound)
  else if segment = "." then .ok here
  else if segment = ".." then .ok here.dropLast
  else if longestName < segment.utf8ByteSize then .error .nameTooLong
  else if (d.get? (here ++ [segment])).isSome then .ok (here ++ [segment])
  else .error .notFound

def follow (d : Disk) (here : Location) (segments : List String) : Except SystemError Location :=
  segments.foldlM d.step here

/-- Where a path ends: a name in a directory, or a place that has no name of its own. -/
inductive Spot where
  | named (location : Location) (slashed : Bool)
  /-- The root, the current directory, or the directory above. -/
  | unnamed
  deriving DecidableEq, Repr

/-- Finds where a path ends; its last segment need not exist. -/
def spot (d : Disk) (cwd : Location) (path : String) : Except SystemError Spot :=
  if path.isEmpty then .error .notFound
  else if hasNull path then .error .nullInPath
  else if pathLimit ≤ path.utf8ByteSize then .error .nameTooLong
  else
    match Route.ofPath? cwd path.toList with
    | none => .ok .unnamed
    | some r => do
      let here ← d.follow r.start r.inner
      if d.get? here != some .directory then
        .error (if (d.get? here).isSome then .notDirectory else .notFound)
      else if r.last = "." ∨ r.last = ".." then .ok .unnamed
      else if longestName < r.last.utf8ByteSize then .error .nameTooLong
      else .ok (.named (here ++ [r.last]) r.slashed)

def locate (d : Disk) (cwd : Location) (path : String) : Except SystemError Location :=
  if path.isEmpty then .error .notFound
  else if hasNull path then .error .nullInPath
  else if pathLimit ≤ path.utf8ByteSize then .error .nameTooLong
  else
    match Route.ofPath? cwd path.toList with
    | none => .ok []
    | some r => do
      let found ← d.follow r.start (r.inner ++ [r.last])
      if r.slashed && d.get? found != some .directory then .error .notDirectory else .ok found

/-- What a path leads to. -/
def at? (d : Disk) (cwd : Location) (path : String) : Option Entry :=
  match d.locate cwd path with
  | .ok l => d.get? l
  | .error _ => none

def content? (d : Disk) (cwd : Location) (path : String) : Option ByteArray :=
  match d.at? cwd path with
  | some (.file _ content) => some content
  | _ => none

def unlink (d : Disk) (cwd : Location) (path : String) : Except SystemError Disk := do
  match ← d.spot cwd path with
  | .unnamed => .error .isDirectory
  | .named l slashed =>
    match d.get? l with
    | none => .error .notFound
    | some .directory => .error .isDirectory
    | some (.file ..) => if slashed then .error .notDirectory else .ok (d.erase l)

/-- Moves the file at a location to a path, where it replaces a file. -/
def rename (d : Disk) (cwd : Location) (old : Location) (path : String) :
    Except SystemError Disk := do
  if hasNull path then .error .invalid else
  match ← d.spot cwd path with
  | .unnamed => .error .busy
  | .named l slashed =>
    if slashed then .error .notDirectory
    else
      match d.get? l, d.get? old with
      | some .directory, _ => .error .isDirectory
      | _, none => .error .notFound
      | _, some e => .ok (if l = old then d else (d.erase old).put l e)

end Disk

end OperatorRules
