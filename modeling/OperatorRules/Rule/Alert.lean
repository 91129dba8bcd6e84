import OperatorRules.Roster

/-!
# Alerting rules

An alert fires when its expression has held long enough. It is built up by settings, each of which
writes one place: the holding time, one annotation or one label. Three settings are names for
writing a fixed key.
-/

namespace OperatorRules

def summaryKey : String := "summary"

/-- The annotation that says where to read on. -/
def runbookKey : String := "runbook_url"

def severityKey : String := "severity"

/-- The label that says what an alert means for the health of the operator. -/
def healthImpactKey : String := "operator_health_impact"

structure AlertRule where
  name : String
  expr : String
  /-- How long the expression must hold before the alert fires. -/
  holdFor : Option String := none
  annotations : Entries := ∅
  labels : Entries := ∅
  deriving DecidableEq

instance : Named AlertRule := ⟨AlertRule.name⟩

namespace AlertRule

def ofExpr (name expr : String) : AlertRule := { name, expr }

/-- Sets how long the expression must hold. -/
def holding (a : AlertRule) (duration : String) : AlertRule := { a with holdFor := some duration }

def annotate (a : AlertRule) (key value : String) : AlertRule :=
  { a with annotations := a.annotations.set key value }

def label (a : AlertRule) (key value : String) : AlertRule :=
  { a with labels := a.labels.set key value }

def summary (a : AlertRule) (text : String) : AlertRule := a.annotate summaryKey text

def severity (a : AlertRule) (level : String) : AlertRule := a.label severityKey level

def healthImpact (a : AlertRule) (impact : String) : AlertRule := a.label healthImpactKey impact

/-- One step in building up an alert. -/
inductive Setting where
  | holding (duration : String)
  | annotate (key value : String)
  | label (key value : String)
  | summary (text : String)
  | severity (level : String)
  | healthImpact (impact : String)
  deriving DecidableEq, Repr

def Setting.apply : Setting → AlertRule → AlertRule
  | .holding d, a => a.holding d
  | .annotate k v, a => a.annotate k v
  | .label k v, a => a.label k v
  | .summary s, a => a.summary s
  | .severity s, a => a.severity s
  | .healthImpact s, a => a.healthImpact s

def configure (a : AlertRule) (steps : List Setting) : AlertRule :=
  steps.foldl (fun a s => s.apply a) a

end AlertRule

end OperatorRules
