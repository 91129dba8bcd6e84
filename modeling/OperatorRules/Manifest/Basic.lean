import OperatorRules.Catalogue

/-!
# Rule manifests

What is deployed: a resource with a name, labels and groups of rules. The groups are built from a
registry, alerts before recording rules, each in ascending order of the names; a group without
rules is left out.
-/

namespace OperatorRules

/-- A rule in a group: an alerting rule or a recording rule. -/
structure Rule where
  alert : Option String := none
  record : Option String := none
  expr : String
  holdFor : Option String := none
  labels : Entries := ∅
  annotations : Entries := ∅
  deriving DecidableEq

def Rule.ofAlert (a : AlertRule) : Rule where
  alert := some a.name
  expr := a.expr
  holdFor := a.holdFor
  labels := a.labels
  annotations := a.annotations

/-- The rule of a recording rule; its help text and its type are not deployed. -/
def Rule.ofRecordingRule (r : RecordingRule) : Rule where
  record := some r.name
  expr := r.expr

structure RuleGroup where
  name : String
  rules : List Rule
  deriving DecidableEq

structure RuleSpec where
  groups : List RuleGroup
  deriving DecidableEq

/-- What identifies a resource, as far as it is given. A manifest sets nothing else; whatever more
a resource may have on a cluster, such as annotations or owners, has no place here. -/
structure Metadata where
  name : Option String := none
  scope : Option String := none
  labels : Option Entries := none
  deriving DecidableEq

structure PrometheusRule where
  metadata : Metadata
  spec : RuleSpec
  deriving DecidableEq

namespace RuleSpec

def alertsGroup : String := "alerts.rules"

def recordingRulesGroup : String := "recordingRules.rules"

/-- A group, unless it would be empty. -/
def groupOf (name : String) (rules : List Rule) : List RuleGroup :=
  if rules.isEmpty then [] else [⟨name, rules⟩]

/-- The groups of a registry. -/
def ofRegistry (r : Registry) : RuleSpec where
  groups := groupOf alertsGroup (r.listAlerts.map .ofAlert) ++
    groupOf recordingRulesGroup (r.listRecordingRules.map .ofRecordingRule)

end RuleSpec

namespace PrometheusRule

def operatorName : String := "prometheus-rules-cluster-network-addons-operator"

/-- The label by which the rules are selected. -/
def selectorKey : String := "prometheus.cnao.io"

def selectorValue : String := "true"

/-- The resource of a registry for a namespace. -/
def build (r : Registry) (ns : String) : PrometheusRule where
  metadata := {
    name := some operatorName
    scope := some ns
    labels := some ((∅ : Entries).set selectorKey selectorValue) }
  spec := .ofRegistry r

end PrometheusRule

end OperatorRules
