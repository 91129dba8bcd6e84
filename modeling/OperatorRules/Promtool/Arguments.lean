import OperatorRules.Disk.Path
import OperatorRules.Text.Digits
import OperatorRules.Verification.Error

/-!
# Commands for promtool

The arguments with which a container runtime runs promtool on mounted files, and those that remove
the container again. The name of a container is made of the number of the process and the stage, and
both commands take it from here.
-/

namespace OperatorRules.Promtool

def entrypoint : String := "/bin/promtool"

def rulesMount : String := "/tmp/rules.verify"

def testsMount : String := "/tmp/rules.test"

/-- How files are mounted: read only, with a private label. -/
def mountOptions : String := "ro,Z"

def stageWord : Stage → String
  | .unitTest => "test"
  | _ => "check"

def containerName (pid : Nat) (stage : Stage) : String :=
  "prom-rule-ci-" ++ String.ofList (Text.decimal pid) ++ "-" ++ stageWord stage

def nameOption : String := "--name="

/-- The arguments that start any container. -/
def runArguments (pid : Nat) (stage : Stage) : List String :=
  ["run", "--rm", nameOption ++ containerName pid stage, "--entrypoint=" ++ entrypoint]

/-- A file of the host and where it is mounted. Paths are texts: one that is not UTF-8 comes here as
it is shown, with replacement characters, so the volume does not name its file even if there is no
colon in it. -/
def volume (host mount : String) : String := host ++ ":" ++ mount ++ ":" ++ mountOptions

def checkArguments (pid : Nat) (image rules : String) : List String :=
  runArguments pid .lint ++ ["-v", volume rules rulesMount] ++ [image] ++
    ["check", "rules", rulesMount]

def testArguments (pid : Nat) (image rules tests : String) : List String :=
  runArguments pid .unitTest ++ ["-v", volume tests testsMount] ++
    ["-v", volume rules rulesMount] ++ [image] ++ ["test", "rules", testsMount]

def removeArguments (pid : Nat) (stage : Stage) : List String :=
  ["rm", "-f", containerName pid stage]

/-! ## Reading arguments -/

/-- The parts of an argument between its colons. -/
def splitColon : List Char → List (List Char)
  | [] => [[]]
  | c :: cs =>
    match splitColon cs with
    | [] => [[]]
    | part :: parts => if c = ':' then [] :: part :: parts else (c :: part) :: parts

/-- The name that the arguments of a run give to its container. -/
def startedName? : List String → Option String
  | "run" :: args =>
    args.findSome? fun a =>
      if nameOption.toList.isPrefixOf a.toList then
        some (String.ofList (a.toList.drop nameOption.toList.length))
      else none
  | _ => none

/-- The name of the container that arguments remove. -/
def removedName? : List String → Option String
  | ["rm", "-f", name] => some name
  | _ => none

/-- The files that arguments mount, each as it follows its option. -/
def volumes : List String → List String
  | "-v" :: v :: args => v :: volumes args
  | _ :: args => volumes args
  | [] => []

/-! ## Showing arguments -/

/-- Arguments as events show them. -/
def argumentsText (args : List String) : String :=
  "[" ++ ", ".intercalate (args.map Text.quote) ++ "]"

/-- A path from the root: `path` as seen from the current directory, which may be gone. -/
def absolute (cwd : Except SystemError (List Char)) (path : String) : Except VerifyError String :=
  if Path.isAbsolute path.toList then .ok path
  else
    match cwd with
    | .ok base => .ok (String.ofList (Path.join base path.toList))
    | .error e => .error (.io path (.system e))

end OperatorRules.Promtool
