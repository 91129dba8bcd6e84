import OperatorRules.Disk.Basic

/-!
# Writing atomically

A file is written under a temporary name in the directory of its path and moved into place when it
is complete, so at every moment the path shows what it showed before or the complete file. The
system may refuse any of the steps; then the temporary file is removed and the path is as it was.
-/

namespace OperatorRules

/-- What the system refuses beyond what the disk itself rules out. A write may take several turns;
each turn but the last takes the number of bytes that it is given here. That there is nothing to
remove is for the disk to say. -/
structure Refusals where
  create : Option SystemError := none
  turns : List Nat := []
  write : Option SystemError := none
  sync : Option SystemError := none
  setMode : Option SystemError := none
  rename : Option SystemError := none
  remove : Option SystemError := none
  remove_ne_notFound : remove ≠ some .notFound := by simp

/-- Where a program runs: its current directory, the name it gets for a temporary file, and what
the system refuses it. -/
structure Site where
  cwd : Location
  tempName : String
  refusals : Refusals := {}

def Location.path (l : Location) : List Char := '/' :: Path.joinSlash (l.map String.toList)

def Site.tempPath (s : Site) (path : String) : String :=
  String.ofList (Path.join (Path.join (Location.path s.cwd) (Path.directory path.toList))
    s.tempName.toList)

structure Written where
  /-- The error names the path on which a step failed. -/
  result : Except (String × IoError) Unit
  disk : Disk
  /-- The disk after each step that changed it. -/
  moments : List Disk

namespace AtomicWrite

def temporaryMode : Nat := 0o600

def fileMode : Nat := 0o644

def create (d : Disk) (s : Site) (path : String) : Except SystemError (Location × Disk) := do
  match ← d.spot s.cwd path with
  | .unnamed => .error .isDirectory
  | .named l _ =>
    if (d.get? l).isSome then .error .alreadyExists
    else
      match s.refusals.create with
      | some e => .error e
      | none => .ok (l, d.put l (.file temporaryMode ByteArray.empty))

/-- The lengths that a file has after the turns of a write, none beyond the whole. -/
def lengths (whole : Nat) (turns : List Nat) : List Nat :=
  (turns.foldl (fun (acc : List Nat × Nat) n =>
    (acc.1 ++ [min whole (acc.2 + n)], acc.2 + n)) ([], 0)).1

/-- The disk after each turn of a write. -/
def turnMoments (d : Disk) (temp : Location) (content : ByteArray) (turns : List Nat) : List Disk :=
  (lengths content.size turns).map fun n => d.put temp (.file temporaryMode (content.extract 0 n))

/-- The end of a write that failed: the temporary file is removed. -/
def abandon (d : Disk) (temp : Location) (path : String) (e : IoError) (moments : List Disk) :
    Written :=
  let restored := d.erase temp
  ⟨.error (path, e), restored, moments ++ [restored]⟩

end AtomicWrite

open AtomicWrite in
/-- Writes a file at a path. An error names the directory if the temporary file could not be
created, that file if it could not be completed, and the path if it could not be moved there. What
creates and fills the temporary file tells its path in the cause, too. -/
def writeAtomically (s : Site) (d : Disk) (path : String) (content : ByteArray) : Written :=
  let tempPath := s.tempPath path
  match create d s tempPath with
  | .error e =>
    ⟨.error (String.ofList (Path.directory path.toList), .located e tempPath), d, []⟩
  | .ok (temp, created) =>
    let moments := created :: turnMoments created temp content s.refusals.turns
    match s.refusals.write with
    | some e => abandon created temp tempPath (.located e tempPath) moments
    | none =>
      let full := created.put temp (.file temporaryMode content)
      let moments := moments ++ [full]
      match s.refusals.sync with
      | some e => abandon full temp tempPath (.system e) moments
      | none =>
        match s.refusals.setMode with
        | some e => abandon full temp tempPath (.system e) moments
        | none =>
          let readable := full.put temp (.file fileMode content)
          let moments := moments ++ [readable]
          match s.refusals.rename with
          | some e => abandon readable temp path (.system e) moments
          | none =>
            match readable.rename s.cwd temp path with
            | .error e => abandon readable temp path (.system e) moments
            | .ok moved => ⟨.ok (), moved, moments ++ [moved]⟩

end OperatorRules
