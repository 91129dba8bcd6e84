import OperatorRules.Rule.Alert
import OperatorRules.Rule.Recording
import OperatorRules.Text.Blank
import OperatorRules.Text.Quoted

/-!
# Linting

Each kind of rule has a list of checks, made in a fixed order. A check that a rule does not pass
gives one problem under the rule's name, so a rule conforms exactly if it has no problem.
-/

namespace OperatorRules

structure Problem where
  rule : String
  message : String
  deriving DecidableEq, Repr

def Problem.text (p : Problem) : String := p.rule ++ ": " ++ p.message

namespace Lint

def isCapital (c : Char) : Bool := 'A' ≤ c && c ≤ 'Z'

def isLetter (c : Char) : Bool := isCapital c || ('a' ≤ c && c ≤ 'z')

/-- One capital, then letters and digits to the end. -/
def isPascalCase : List Char → Bool
  | [] => false
  | c :: cs => isCapital c && cs.all fun d => isLetter d || Text.isDigit d

def startsMetricName (c : Char) : Bool := isLetter c || c == '_' || c == ':'

/-- The name of a metric: letters, digits, underscores and colons, and no digit at the start. -/
def isMetricName : List Char → Bool
  | [] => false
  | c :: cs => startsMetricName c && cs.all fun d => startsMetricName d || Text.isDigit d

def severities : List String := ["critical", "warning", "info"]

def healthImpacts : List String := ["none", "warning", "critical"]

def checkAlertName (a : AlertRule) : Option String :=
  if a.name.isEmpty then some "alert name is empty"
  else if isPascalCase a.name.toList then none
  else some "alert name must be PascalCase"

def checkExpr (expr : String) : Option String :=
  if Text.isBlank expr then some "expr is empty" else none

def checkSummary (a : AlertRule) : Option String :=
  match a.annotations.value? summaryKey with
  | some summary => if Text.isBlank summary then some "missing summary annotation" else none
  | none => some "missing summary annotation"

def missingRunbook : String := "missing runbook_url annotation"

def checkRunbook (a : AlertRule) : Option String :=
  if a.annotations.contains runbookKey then none else some missingRunbook

/-- What is wrong with a label that has to be one of a few values. -/
def checkLabel (key : String) (allowed : List String) (a : AlertRule) : Option String :=
  match a.labels.value? key with
  | none => some ("missing " ++ key ++ " label")
  | some value =>
    if value ∈ allowed then none
    else some (key ++ " label must be one of " ++ ", ".intercalate allowed ++ ", got " ++
      Text.quote value)

/-- The checks of an alert, in the order of their findings. -/
def alertChecks : List (AlertRule → Option String) := [
  checkAlertName, fun a => checkExpr a.expr, checkSummary, checkRunbook,
  checkLabel severityKey severities, checkLabel healthImpactKey healthImpacts]

def checkMetricName (r : RecordingRule) : Option String :=
  if isMetricName r.name.toList then none else some "record name is not a valid metric name"

def checkHelp (r : RecordingRule) : Option String :=
  if Text.isBlank r.help then some "help text is empty" else none

def recordingRuleChecks : List (RecordingRule → Option String) := [
  checkMetricName, fun r => checkExpr r.expr, checkHelp]

/-- The findings of the checks about one rule. -/
def findings {α : Type} [Named α] (checks : List (α → Option String)) (rule : α) : List Problem :=
  (checks.filterMap fun check => check rule).map (Problem.mk (nameOf rule))

def alerts (l : List AlertRule) : List Problem := l.flatMap (findings alertChecks)

def recordingRules (l : List RecordingRule) : List Problem :=
  l.flatMap (findings recordingRuleChecks)

end Lint

end OperatorRules
