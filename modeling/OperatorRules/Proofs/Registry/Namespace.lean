import OperatorRules.Proofs.Promql.Literal
import OperatorRules.Proofs.Registry.Setup

/-!
# The namespace in the recording rules

Every shipped recording rule compares a label with the namespace and is the same for all namespaces
but for that (`ScopedRule`). The namespace is put into the expression as it is, so the rule is about
it just if each of its characters stands for itself in a literal (`setup_namespace_literal`).
-/

namespace OperatorRules

open Promql

/-- A recording rule whose expression is about a namespace. -/
structure ScopedRule where
  name : String
  help : String
  metric : String
  matchers : String

namespace ScopedRule

/-- The rule for a namespace. -/
def rule (s : ScopedRule) (ns : String) : RecordingRule :=
  .gauge s.name s.help (Catalogue.namespacedSum s.metric ns s.matchers)

/-- What its expression has before the literal of the namespace. -/
def before (s : ScopedRule) : String := "sum(" ++ s.metric ++ "\x7bnamespace="

/-- What its expression has after the literal of the namespace. -/
def after (s : ScopedRule) : String := s.matchers ++ "\x7d or vector(0))"

/-- The first label of the rule is the namespace, and nothing after its literal can be an escape. -/
structure Regular (s : ScopedRule) : Prop where
  before : after? ("namespace".toList ++ ['=']) s.before.toList = some []
  after : '\\' ∉ s.after.toList

variable {s : ScopedRule}

theorem expr_rule (s : ScopedRule) (ns : String) :
    (s.rule ns).expr = s.before ++ ("'" ++ ns ++ "'" ++ s.after) := by
  apply String.toList_injective
  simp [rule, RecordingRule.gauge, Catalogue.namespacedSum, before, after]

theorem labelValue?_rule (hs : s.Regular) (ns : String) :
    labelValue? "namespace" (s.rule ns).expr =
      readLiteral ('\'' :: (ns.toList ++ '\'' :: s.after.toList)) := by
  rw [expr_rule, labelValue?_append hs.before]
  simp

end ScopedRule

namespace Catalogue

/-- The shipped recording rules, without their namespace. -/
def scopedRules : List ScopedRule := [
  ⟨"kubevirt_cnao_operator_up", "Total count of running CNAO operators", "up",
    ", pod=~'cluster-network-addons-operator-.*'"⟩,
  ⟨"kubevirt_cnao_cr_kubemacpool_deployed", "KubeMacpool is deployed by CNAO CR",
    "kubevirt_cnao_cr_kubemacpool_aggregated", ""⟩,
  ⟨"kubevirt_cnao_kubemacpool_manager_up", "Total count of running KubeMacPool manager pods", "up",
    ", pod=~'kubemacpool-mac-controller-manager-.*'"⟩,
  ⟨"kubevirt_cnao_kubemacpool_duplicate_macs", "Total count of duplicate KubeMacPool MAC addresses",
    "kubevirt_kmp_duplicate_macs", ""⟩]

theorem shippedRecordingRules_eq (ns : String) :
    shippedRecordingRules ns = scopedRules.map (·.rule ns) := rfl

theorem regular_of_mem_scopedRules : ∀ s ∈ scopedRules, s.Regular := by
  simp only [scopedRules, List.forall_mem_cons]
  exact ⟨⟨by decide, by decide⟩, ⟨by decide, by decide⟩, ⟨by decide, by decide⟩,
    ⟨by decide, by decide⟩, fun _ h => nomatch h⟩

end Catalogue

namespace Registry

open Catalogue

/-- Setup registers the shipped rules, each the same for all namespaces but for its literal. The
literal denotes the namespace just if no character of that is a quote, a backslash or a line
break. -/
theorem setup_namespace_literal (r : Registry) (ns : String) (t : RunbookTemplate) :
    shippedRecordingRules ns = scopedRules.map (·.rule ns) ∧
      ∀ s ∈ scopedRules, ∃ rule,
        (r.setup ns t).registry.recordingRules.get? s.name = some rule ∧
        rule.expr = s.before ++ ("'" ++ ns ++ "'" ++ s.after) ∧
        ∀ rest, labelValue? "namespace" rule.expr = some (Text.utf8Bytes ns, rest) ↔
          (∀ c ∈ ns.toList, Verbatim c) ∧ rest = s.after.toList := by
  refine ⟨shippedRecordingRules_eq ns, fun s hs => ⟨s.rule ns, ?_, s.expr_rule ns, fun rest => ?_⟩⟩
  · have hshipped : s.rule ns ∈ shippedRecordingRules ns := by
      rw [shippedRecordingRules_eq]
      exact List.mem_map_of_mem hs
    exact Roster.mem_toList_iff.1 ((overlays_setup_recordingRules r ns t _).2 (.inl hshipped))
  · have hregular := regular_of_mem_scopedRules s hs
    rw [ScopedRule.labelValue?_rule hregular, Text.utf8Bytes_eq_flatMap]
    exact readLiteral_self_iff hregular.after

/-- A quote in the namespace ends the literal, and what is left of the namespace follows it. -/
theorem setup_namespace_with_quote :
    (((∅ : Registry).setup "it's" .default).registry.recordingRules.get?
        "kubevirt_cnao_operator_up").bind (fun rule => labelValue? "namespace" rule.expr) =
      some (Text.utf8Bytes "it",
        "s', pod=~'cluster-network-addons-operator-.*'\x7d or vector(0))".toList) ∧
    Text.utf8Bytes "it" ≠ Text.utf8Bytes "it's" := by
  decide +kernel

end Registry

end OperatorRules
