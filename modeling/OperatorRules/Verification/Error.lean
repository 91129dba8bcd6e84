import OperatorRules.Disk.Error
import OperatorRules.Runbook
import OperatorRules.Text.Duration

/-!
# Stages and errors of a verification

The stages in the order in which they run, and the ways in which one can fail. An error may have a
cause, whose text stands in its message too.
-/

namespace OperatorRules

inductive Stage where
  | setupRules
  | buildRuleset
  | serializeToFile
  | lint
  | unitTest
  | cleanup
  deriving DecidableEq, Repr

def Stage.name : Stage → String
  | setupRules => "setup rules"
  | buildRuleset => "build ruleset"
  | serializeToFile => "serialize to file"
  | lint => "lint"
  | unitTest => "unit test"
  | cleanup => "cleanup"

inductive VerifyError where
  | rules (cause : RuleError)
  | io (path : String) (cause : IoError)
  | spawn (program : String) (cause : IoError)
  /-- A command of a stage ended without success; no code if a signal ended it. -/
  | commandFailed (stage : Stage) (code : Option Int)
  | timeout (stage : Stage) (limit : Duration)
  deriving DecidableEq, Repr

/-- An exit code, or that there is none. -/
def exitText : Option Int → String
  | some code => "Some(" ++ String.ofList (Text.signedDecimal code) ++ ")"
  | none => "None"

def RuleError.cause? : RuleError → Option String
  | render cause => some cause
  | serialize cause => some cause.message
  | _ => none

namespace VerifyError

def message : VerifyError → String
  | rules cause => "rule generation failed: " ++ cause.message
  | io path cause => "I/O error on " ++ path ++ ": " ++ cause.message
  | spawn program cause => "failed to start " ++ program ++ ": " ++ cause.message
  | commandFailed stage code => stage.name ++ " failed (exit code: " ++ exitText code ++ ")"
  | timeout stage limit => stage.name ++ " did not finish within " ++ limit.text

/-- The texts of the causes, from the nearest on. -/
def causes : VerifyError → List String
  | rules cause => cause.message :: cause.cause?.toList
  | io _ cause => [cause.message]
  | spawn _ cause => [cause.message]
  | commandFailed .. => []
  | timeout .. => []

end VerifyError

/-! ## Reports -/

namespace Report

def indentLines (indent : Nat) (cs : List Char) : List Char :=
  cs.flatMap fun c => if c = '\n' then '\n' :: List.replicate indent ' ' else [c]

def singleCause (cause : String) : List Char :=
  [' ', ' ', ' ', ' '] ++ indentLines 4 cause.toList

/-- A cause among several, with its number to the left of the sixth column. -/
def numberedCause (n : Nat) (cause : String) : List Char :=
  let number := Text.decimal n
  List.replicate (5 - number.length) ' ' ++ number ++ [':', ' '] ++ indentLines 7 cause.toList

def causeLines : List String → List (List Char)
  | [] => []
  | [cause] => [singleCause cause]
  | causes => causes.mapIdx numberedCause

/-- What a program prints that ends with an error. -/
def text (message : String) (causes : List String) : String :=
  let trail := (causeLines causes).flatMap fun l => '\n' :: l
  "Error: " ++ message ++
    (if causes.isEmpty then "" else "\n\nCaused by:" ++ String.ofList trail) ++ "\n"

end Report

end OperatorRules
