import OperatorRules.Disk.Basic

/-!
# Starting programs

Why a program cannot be started. A name without a slash is looked for in the directories of the
search path, any other is a path. Only a file that may be executed can be started. No text with a
null character can be handed to a program.
-/

namespace OperatorRules

namespace Disk

def isExecutable (mode : Nat) : Bool := mode &&& 0o111 != 0

/-- Why what is at a path cannot be executed, unless it can. -/
def executeRefusal? (d : Disk) (cwd : Location) (path : String) : Option SystemError :=
  match d.locate cwd path with
  | .error e => some e
  | .ok l =>
    match d.get? l with
    | some (.file mode _) => if isExecutable mode then none else some .permissionDenied
    | _ => some .permissionDenied

/-- Why a name is not found in the directories of a search path, unless it is. A file that may not
be executed does not end the search. -/
def searchRefusal? (d : Disk) (searchPath : List String) (name : String) : Option SystemError :=
  if name.isEmpty then some .notFound
  else if longestName < name.utf8ByteSize then some .nameTooLong
  else
    let answers := searchPath.map fun dir => d.executeRefusal? [] (dir ++ "/" ++ name)
    if answers.contains none then none
    else if answers.contains (some .permissionDenied) then some .permissionDenied
    else some .notFound

/-- The disk as a relative path sees it: the current directory is there, and empty, even after it
has been removed. -/
def seenFrom (d : Disk) (cwd : Location) : Disk :=
  if (d.get? cwd).isSome then d else d.put cwd .directory

/-- Why the system does not start a program, unless it does. -/
def launchRefusal? (d : Disk) (cwd : Location) (searchPath : List String) (program : String) :
    Option SystemError :=
  if Path.isAbsolute program.toList then d.executeRefusal? cwd program
  else if program.toList.contains '/' then (d.seenFrom cwd).executeRefusal? cwd program
  else d.searchRefusal? searchPath program

end Disk

/-- The error of handing over texts, one of which holds a null character. -/
def handoverError? (texts : List String) : Option IoError :=
  if texts.any Disk.hasNull then some (.told "nul byte found in provided data") else none

def Disk.launchError? (d : Disk) (cwd : Location) (searchPath : List String) (program : String)
    (args : List String) : Option IoError :=
  (handoverError? (program :: args)).or ((d.launchRefusal? cwd searchPath program).map .system)

end OperatorRules
