import OperatorRules.Disk.Path
import OperatorRules.Text.Terminal
import OperatorRules.Verification.Config

/-!
# The command line

Three values are expected, in the order runtime, target file, tests file. Options are only those for
help and version; a lone dash is a value, and so is everything after two dashes. Arguments are taken
from left to right. A value is looked at when the next argument has been recognised or none is
left, so an argument that is not recognised is reported before an empty value in front of it.
-/

namespace OperatorRules.CommandLine

inductive UsageError where
  | missingRequiredArgument
  | unknownArgument
  | invalidValue
  | tooManyValues
  deriving DecidableEq, Repr

inductive Request where
  | verify (config : VerifierConfig)
  | help
  | version
  deriving DecidableEq, Repr

/-- An argument by its form. -/
inductive Argument where
  /-- Two dashes: only values follow. -/
  | separator
  | help
  | version
  /-- An option without a value that is given one. -/
  | overfull
  | unknown
  | value (s : String)
  deriving DecidableEq, Repr

/-- A long option, from behind its dashes. -/
def longOption (cs : List Char) : Argument :=
  let name := String.ofList (cs.takeWhile (· ≠ '='))
  let plain := cs.all (· ≠ '=')
  if name = "help" then if plain then .help else .overfull
  else if name = "version" then if plain then .version else .overfull
  else .unknown

/-- The form of an argument; a bundle of short options is decided by the first of them. -/
def classify (arg : String) : Argument :=
  match arg.toList with
  | ['-', '-'] => .separator
  | '-' :: '-' :: cs => longOption cs
  | '-' :: c :: _ => if c = 'h' then .help else if c = 'V' then .version else .unknown
  | _ => .value arg

def arity : Nat := 3

def checkLast (values : List String) : Except UsageError Unit :=
  if values.getLast? = some "" then .error .invalidValue else .ok ()

def take (values : List String) (s : String) : Except UsageError (List String) :=
  if arity ≤ values.length then .error .unknownArgument
  else (checkLast values).map fun _ => values ++ [s]

/-- What the values ask for when no argument is left. -/
def conclude (values : List String) : Except UsageError Request :=
  match checkLast values with
  | .error e => .error e
  | .ok () =>
    match values with
    | [ociBin, targetFile, testsFile] => .ok (.verify (.ofPaths ociBin targetFile testsFile))
    | _ => .error .missingRequiredArgument

/-- Takes the arguments from left to right; `onlyValues` after two dashes. -/
def parseFrom (values : List String) : (onlyValues : Bool) → List String →
    Except UsageError Request
  | _, [] => conclude values
  | true, arg :: args => do parseFrom (← take values arg) true args
  | false, arg :: args =>
    match classify arg with
    | .separator => parseFrom values true args
    | .help => (checkLast values).map fun _ => .help
    | .version => (checkLast values).map fun _ => .version
    | .overfull => .error .tooManyValues
    | .unknown => .error .unknownArgument
    | .value s => do parseFrom (← take values s) false args

def parse (args : List String) : Except UsageError Request := parseFrom [] false args

def programName : String := "prom-rule-ci"

def versionText : String := programName ++ " 0.1.0\n"

/-- The name that help shows: that of the file by whose path the program was called, or the name of
the program if the path tells none that is a text. A slash and a dot are single bytes, so a path is
taken apart byte by byte. -/
def usageName (path : ByteArray) : String :=
  let name? := Path.fileName? (path.data.toList.map fun b => Char.ofNat b.toNat)
  let text? := name?.bind fun cs =>
    String.fromUTF8? ⟨(cs.map fun c => UInt8.ofNat c.toNat).toArray⟩
  text?.getD programName

def helpText (name : String) : String :=
  "Verify the operator's Prometheus rules with promtool\n" ++
  "\n" ++
  "Usage: " ++ Text.visible name ++ " <OCI_BIN> <TARGET_FILE> <TESTS_FILE>\n" ++
  "\n" ++
  "Arguments:\n" ++
  "  <OCI_BIN>      Container runtime binary (docker, podman)\n" ++
  "  <TARGET_FILE>  File the rules are written to\n" ++
  "  <TESTS_FILE>   promtool rule unit test file\n" ++
  "\n" ++
  "Options:\n" ++
  "  -h, --help     Print help\n" ++
  "  -V, --version  Print version\n"

def usageExitCode : Nat := 2

end OperatorRules.CommandLine
