/-!
# Paths

A path is a text whose segments are parted by slashes. Empty segments and single dots name nothing,
save a dot at the start of a relative path. Here a path is only taken apart and put together; what
its segments lead to is a matter of the disk.
-/

namespace OperatorRules.Path

def splitSlash : List Char → List (List Char)
  | [] => [[]]
  | c :: cs =>
    match splitSlash cs with
    | [] => [[]]
    | s :: segments => if c = '/' then [] :: s :: segments else (c :: s) :: segments

def joinSlash : List (List Char) → List Char
  | [] => []
  | [s] => s
  | s :: segments => s ++ '/' :: joinSlash segments

def isAbsolute (cs : List Char) : Bool := cs.head? == some '/'

/-- A segment that names nothing. -/
def isIdle (segment : List Char) : Bool := segment.isEmpty || segment == ['.']

/-- What stands before the segments: the slash of the root, a dot for the current directory, or
nothing. -/
def splitStart : List Char → List Char × List Char
  | '/' :: cs => (['/'], cs)
  | ['.'] => (['.'], [])
  | '.' :: '/' :: cs => (['.'], '/' :: cs)
  | cs => ([], cs)

/-- Segments without the idle ones at the end. -/
def trimIdle (segments : List (List Char)) : List (List Char) :=
  (segments.reverse.dropWhile isIdle).reverse

/-- The path without its last segment; none for the root and for nothing. -/
def parent? (cs : List Char) : Option (List Char) :=
  let (start, body) := splitStart cs
  match trimIdle (splitSlash body) with
  | [] => if start = ['.'] then some [] else none
  | segments => some (start ++ joinSlash (trimIdle segments.dropLast))

/-- The last segment that names something; none if that only leads to the directory above. -/
def fileName? (cs : List Char) : Option (List Char) :=
  (trimIdle (splitSlash cs)).getLast?.filter (· ≠ ['.', '.'])

/-- The directory that a path lies in, as the path tells it; the current one if it tells none. -/
def directory (cs : List Char) : List Char :=
  match parent? cs with
  | some (c :: cs) => c :: cs
  | _ => ['.']

/-- `path` as seen from `base`. -/
def join (base path : List Char) : List Char :=
  if isAbsolute path then path
  else if base.isEmpty || base.getLast? == some '/' then base ++ path
  else base ++ '/' :: path

end OperatorRules.Path
