import OperatorRules.Registry
import OperatorRules.Runbook

/-!
# The rules of the operator

The alerts and recording rules that the operator ships, what every alert gains on its way into the
registry, and the setup that registers them all. Alerts depend on the runbook template only,
recording rules on the namespace only.
-/

namespace OperatorRules

namespace Catalogue

/-- How long an expression must hold before an alert of the operator fires. -/
def holdingTime : String := "5m"

/-- An alert of the operator whose severity is also its health impact. -/
def shippedAlert (name expr summary level : String) : AlertRule :=
  (((AlertRule.ofExpr name expr).holding holdingTime).summary summary |>.severity level)
    |>.healthImpact level

def operatorAlerts : List AlertRule := [
  shippedAlert "CnaoDown" "kubevirt_cnao_operator_up == 0" "CNAO pod is down." "warning",
  shippedAlert "KubeMacPoolDuplicateMacsFound" "kubevirt_cnao_kubemacpool_duplicate_macs != 0"
    "Duplicate macs found." "warning",
  shippedAlert "KubemacpoolDown"
    "kubevirt_cnao_cr_kubemacpool_deployed == 1 and kubevirt_cnao_kubemacpool_manager_up == 0"
    "KubeMacpool is deployed by CNAO CR but KubeMacpool pod is down." "critical",
  shippedAlert "NetworkAddonsConfigNotReady" "kubevirt_cnao_cr_ready == 0"
    "CNAO CR NetworkAddonsConfig is not ready." "warning"]

/-- The sum of a metric over the namespace and further matchers, zero if there is no series. -/
def namespacedSum (metric ns matchers : String) : String :=
  "sum(" ++ metric ++ "\x7bnamespace='" ++ ns ++ "'" ++ matchers ++ "\x7d or vector(0))"

def operatorRecordingRules (ns : String) : List RecordingRule := [
  .gauge "kubevirt_cnao_operator_up" "Total count of running CNAO operators"
    (namespacedSum "up" ns ", pod=~'cluster-network-addons-operator-.*'")]

def macPoolRecordingRules (ns : String) : List RecordingRule := [
  .gauge "kubevirt_cnao_cr_kubemacpool_deployed" "KubeMacpool is deployed by CNAO CR"
    (namespacedSum "kubevirt_cnao_cr_kubemacpool_aggregated" ns ""),
  .gauge "kubevirt_cnao_kubemacpool_manager_up" "Total count of running KubeMacPool manager pods"
    (namespacedSum "up" ns ", pod=~'kubemacpool-mac-controller-manager-.*'"),
  .gauge "kubevirt_cnao_kubemacpool_duplicate_macs"
    "Total count of duplicate KubeMacPool MAC addresses"
    (namespacedSum "kubevirt_kmp_duplicate_macs" ns "")]

end Catalogue

def partOfKey : String := "kubernetes_operator_part_of"

def partOfValue : String := "kubevirt"

def componentKey : String := "kubernetes_operator_component"

def componentValue : String := "cluster-network-addons-operator"

/-- The alert with the labels of the operator and the address of its runbook. -/
def AlertRule.enrich (t : RunbookTemplate) (a : AlertRule) : AlertRule :=
  ((a.label partOfKey partOfValue).label componentKey componentValue).annotate runbookKey
    (t.urlFor a.name)

namespace Registry

def registerEnriched (r : Registry) (t : RunbookTemplate) (groups : List (List AlertRule)) :
    Registration :=
  r.registerAlerts (groups.map (·.map (AlertRule.enrich t)))

def registerOperatorAlerts (r : Registry) (t : RunbookTemplate) : Registration :=
  r.registerEnriched t [Catalogue.operatorAlerts]

def registerOperatorRecordingRules (r : Registry) (ns : String) : Registration :=
  r.registerRecordingRules
    [Catalogue.operatorRecordingRules ns, Catalogue.macPoolRecordingRules ns]

/-- Registers all rules of the operator and reports how many rules there are then. -/
def setup (r : Registry) (ns : String) (t : RunbookTemplate) : Registration :=
  let recorded := r.registerOperatorRecordingRules ns
  let alerted := recorded.registry.registerOperatorAlerts t
  let done : Event := {
    level := .info
    message := some "operator monitoring rules registered"
    fields := [("namespace", .text ns), ("alerts", .count alerted.registry.alertCount),
      ("recording_rules", .count alerted.registry.recordingRuleCount)] }
  ⟨alerted.registry, recorded.events ++ alerted.events ++ [done]⟩

/-- Setup with the template that the environment determines; if it determines none, nothing is
registered. -/
def setupFromEnvironment (r : Registry) (ns : String) (rawTemplate? : Option ByteArray) :
    Except RuleError Registration :=
  (RunbookTemplate.resolve rawTemplate?).map (r.setup ns)

end Registry

end OperatorRules
