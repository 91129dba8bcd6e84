import OperatorRules.Proofs.Lint
import OperatorRules.Proofs.Registry.Enrichment
import OperatorRules.Proofs.Registry.Setup

/-!
# Linting what is registered with a runbook

A change of rules repairs a condition or is invisible to it (`Treats`), so a report about changed
rules is the report about the rules as they were without the repaired findings (`report_change`).
Enrichment repairs the missing address of a runbook and no other condition sees it. What the
operator ships conforms, whatever the namespace and the template, and so no problem of a registry
names a shipped rule after setup.
-/

namespace OperatorRules.Lint

/-! ## Changed rules -/

section
variable {α : Type} [Named α] {conditions : List (Condition α)}

/-- What a change of rules does to a condition about which `message` or something else is said. -/
inductive Treats (change : α → α) (message : String) (c : Condition α) : Prop where
  /-- Every changed rule meets the condition, and `message` is what is said of others. -/
  | repairs (hmeets : ∀ rule, c.Meets (change rule))
      (hcomplaint : ∀ rule, c.complaint rule = message)
  /-- A changed rule is to the condition what it was before, and something else is said. -/
  | overlooks (hmeets : ∀ rule, c.Meets (change rule) ↔ c.Meets rule)
      (hcomplaint : ∀ rule, c.complaint (change rule) = c.complaint rule)
      (hother : ∀ rule, c.complaint rule ≠ message)

/-- A report about a changed rule lacks the findings that the change repairs, and nothing else. -/
theorem report_change (change : α → α) {message : String}
    (hname : ∀ rule, nameOf (change rule) = nameOf rule)
    (h : ∀ c ∈ conditions, Treats change message c) (rule : α) :
    report conditions (change rule) =
      (report conditions rule).filter fun p => p.message ≠ message := by
  induction conditions with
  | nil => rfl
  | cons c conditions ih =>
    have hrest := ih fun c hc => h c (List.mem_cons_of_mem _ hc)
    rw [report_cons, report_cons, hrest]
    cases h c (List.mem_cons_self ..) with
    | repairs hmeets hcomplaint =>
      rw [if_pos (hmeets rule)]
      split
      · rfl
      · rw [List.filter_cons_of_neg (by simp [hcomplaint])]
    | overlooks hmeets hcomplaint hother =>
      by_cases hrule : c.Meets rule
      · rw [if_pos hrule, if_pos ((hmeets rule).2 hrule)]
      · rw [if_neg hrule, if_neg (mt (hmeets rule).1 hrule), hname, hcomplaint,
          List.filter_cons_of_pos (by simpa using hother rule)]

omit [Named α] in
theorem complaint_ne_of_opens {c : Condition α} {starts : List String} (h : Opens c starts)
    {message : String} (hstart : opening message ∉ starts) (rule : α) :
    c.complaint rule ≠ message :=
  fun heq => hstart (heq ▸ h rule)

end

/-! ## Enriched alerts -/

section
variable (t : RunbookTemplate)

theorem overlooks_enrich {c : Condition AlertRule} (starts : List String) (hopens : Opens c starts)
    (hstart : opening "missing runbook_url annotation" ∉ starts)
    (hmeets : ∀ a, c.Meets (a.enrich t) ↔ c.Meets a)
    (hcomplaint : ∀ a, c.complaint (a.enrich t) = c.complaint a) :
    Treats (AlertRule.enrich t) "missing runbook_url annotation" c :=
  .overlooks hmeets hcomplaint (complaint_ne_of_opens hopens hstart)

theorem treats_summaryGiven :
    Treats (AlertRule.enrich t) "missing runbook_url annotation" summaryGiven := by
  have hsummary (a : AlertRule) :
      (a.enrich t).annotations.value? summaryKey = a.annotations.value? summaryKey := by
    rw [AlertRule.value?_annotations_enrich, if_neg (by decide)]
  refine overlooks_enrich t ["missing summ"]
    (opens_of_constant (fun _ => rfl) (by decide)) (by decide) (fun a => ?_) fun _ => rfl
  simp only [summaryGiven, hsummary]

theorem treats_runbookGiven :
    Treats (AlertRule.enrich t) "missing runbook_url annotation" runbookGiven := by
  refine .repairs (fun a => ⟨t.urlFor a.name, ?_⟩) fun _ => rfl
  rw [AlertRule.value?_annotations_enrich, if_pos rfl]

/-- The labels of the operator are not those that a condition is about. -/
theorem treats_labelAmong {key : String} {allowed : List String} (starts : List String)
    (hopens : Opens (labelAmong key allowed) starts)
    (hstart : opening "missing runbook_url annotation" ∉ starts) (hpartOf : partOfKey ≠ key)
    (hcomponent : componentKey ≠ key) :
    Treats (AlertRule.enrich t) "missing runbook_url annotation" (labelAmong key allowed) := by
  have hlabel (a : AlertRule) : (a.enrich t).labels.value? key = a.labels.value? key := by
    rw [AlertRule.value?_labels_enrich, if_neg hcomponent, if_neg hpartOf]
  refine overlooks_enrich t starts hopens hstart (fun a => ?_) fun a => ?_
  · simp only [labelAmong, hlabel]
  · simp only [labelAmong, hlabel]

theorem treats_alertConditions : ∀ c ∈ alertConditions,
    Treats (AlertRule.enrich t) "missing runbook_url annotation" c := by
  simp only [alertConditions, List.forall_mem_cons]
  refine ⟨?_, ?_, treats_summaryGiven t, treats_runbookGiven t, ?_, ?_, by simp⟩
  · exact overlooks_enrich t _ opens_alertName (by decide) (fun _ => Iff.rfl) fun _ => rfl
  · exact overlooks_enrich t ["expr is empt"]
      (opens_of_constant (fun _ => rfl) (by decide)) (by decide) (fun _ => Iff.rfl) fun _ => rfl
  · exact treats_labelAmong t ["missing seve", "severity lab"]
      (opens_labelAmong (by decide) (by decide)) (by decide) (by decide) (by decide)
  · exact treats_labelAmong t ["missing oper", "operator_hea"]
      (opens_labelAmong (by decide) (by decide)) (by decide) (by decide) (by decide)

/-- Linting enriched alerts finds what linting the alerts does, without the missing addresses. -/
theorem alerts_map_enrich (l : List AlertRule) :
    alerts (l.map (AlertRule.enrich t)) =
      (alerts l).filter fun p => p.message ≠ "missing runbook_url annotation" := by
  rw [reportsUnmet_alerts.eq_flatMap, reportsUnmet_alerts.eq_flatMap, List.flatMap_map,
    List.filter_flatMap]
  congr 1
  funext a
  exact report_change (AlertRule.enrich t) (fun _ => rfl) (treats_alertConditions t) a

end

/-! ## Shipped rules -/

open Catalogue

/-- Of the operator's alerts, as they are before enrichment, only the address is missing. -/
theorem conforms_shippedAlerts (t : RunbookTemplate) :
    ∀ a ∈ shippedAlerts t, Conforms alertConditions a := by
  rw [← reportsUnmet_alerts.clean_iff, shippedAlerts, alerts_map_enrich]
  decide +kernel

theorem conforms_namespacedSum {name help : String} (hname : MetricName name) (hhelp : Visible help)
    (metric ns matchers : String) :
    Conforms recordingRuleConditions
      (.gauge name help (namespacedSum metric ns matchers)) := by
  have hexpr : Visible (namespacedSum metric ns matchers) := by
    refine ⟨'s', ?_, by decide⟩
    simp [namespacedSum]
  simp only [Conforms, recordingRuleConditions, List.forall_mem_cons]
  exact ⟨hname, hexpr, hhelp, by simp⟩

/-- The namespace stands inside of an expression that says something anyway. -/
theorem conforms_shippedRecordingRules (ns : String) :
    ∀ rule ∈ shippedRecordingRules ns, Conforms recordingRuleConditions rule := by
  simp only [shippedRecordingRules, operatorRecordingRules, macPoolRecordingRules,
    List.cons_append, List.nil_append, List.forall_mem_cons]
  refine ⟨?_, ?_, ?_, ?_, by simp⟩
  all_goals
    refine conforms_namespacedSum ?_ ?_ _ _ _
    · decide
    · decide

section
variable {α : Type} [Named α] {conditions : List (Condition α)} {lint : List α → List Problem}
  {rules before after : List α}

/-- Where conforming rules are laid over a listing, no problem names one of them. -/
theorem ReportsUnmet.rule_notMem (h : ReportsUnmet conditions lint)
    (hover : Overlays rules before after) (hrules : ∀ rule ∈ rules, Conforms conditions rule)
    {p : Problem} (hp : p ∈ lint after) : p.rule ∉ rules.map nameOf := by
  rw [h.eq_flatMap] at hp
  obtain ⟨rule, hrule, hp⟩ := List.mem_flatMap.1 hp
  rcases (hover rule).1 hrule with hmem | ⟨-, hother⟩
  · rw [report_eq_nil_iff.2 (hrules rule hmem)] at hp
    cases hp
  · obtain ⟨c, -, -, rfl⟩ := mem_report.1 hp
    exact hother

theorem ReportsUnmet.eq_nil_of_overlays (h : ReportsUnmet conditions lint)
    (hover : Overlays rules [] after) (hrules : ∀ rule ∈ rules, Conforms conditions rule) :
    lint after = [] := by
  refine (h.clean_iff after).2 fun rule hrule => hrules rule ?_
  simpa using (hover rule).1 hrule

end

/-- Linting enriched alerts finds what linting them as they were does, in the same order, but no
address of a runbook missing: nothing else goes, comes or changes. After setup with any template and
for any namespace no problem of a registry names a shipped rule, whatever was registered before,
and if nothing was there is no problem at all. -/
theorem lint_enriched (t : RunbookTemplate) :
    (∀ l, alerts (l.map (AlertRule.enrich t)) =
      (alerts l).filter fun p => p.message ≠ "missing runbook_url annotation") ∧
    (∀ (r : Registry) (ns : String),
      let done := (r.setup ns t).registry
      (∀ p ∈ alerts done.listAlerts, p.rule ∉ operatorAlerts.map nameOf) ∧
      ∀ p ∈ recordingRules done.listRecordingRules,
        p.rule ∉ (operatorRecordingRules ns ++ macPoolRecordingRules ns).map nameOf) ∧
    ∀ ns : String,
      let done := ((∅ : Registry).setup ns t).registry
      alerts done.listAlerts = [] ∧ recordingRules done.listRecordingRules = [] := by
  have halerts (r : Registry) (ns : String) := r.overlays_setup_alerts ns t
  have hrules (r : Registry) (ns : String) := r.overlays_setup_recordingRules ns t
  refine ⟨alerts_map_enrich t, fun r ns => ⟨fun p hp => ?_, fun p hp => ?_⟩, fun ns => ⟨?_, ?_⟩⟩
  · rw [← shippedAlerts_names t]
    exact reportsUnmet_alerts.rule_notMem (halerts r ns) (conforms_shippedAlerts t) hp
  · exact reportsUnmet_recordingRules.rule_notMem (hrules r ns)
      (conforms_shippedRecordingRules ns) hp
  · exact reportsUnmet_alerts.eq_nil_of_overlays (halerts ∅ ns) (conforms_shippedAlerts t)
  · exact reportsUnmet_recordingRules.eq_nil_of_overlays (hrules ∅ ns)
      (conforms_shippedRecordingRules ns)

/-- Before setup there are an alert and a recording rule that conform to nothing, and bad
definitions under two shipped names. Of the former the problems stay, and of the latter none. -/
theorem lint_enriched_over_bad_rules :
    let r := ((∅ : Registry).registerAlerts [[.ofExpr "down" " ", .ofExpr "CnaoDown" ""]]).registry
    let r := (r.registerRecordingRules
      [[.gauge "0" "" "up", .gauge "kubevirt_cnao_operator_up" "" ""]]).registry
    let done := (r.setup "a'b" .default).registry
    let alert : Problem := ⟨"down", "alert name must be PascalCase"⟩
    let rule : Problem := ⟨"0", "help text is empty"⟩
    (alert ∈ alerts done.listAlerts ∧ alert.rule ∉ operatorAlerts.map nameOf) ∧
      rule ∈ recordingRules done.listRecordingRules ∧
      rule.rule ∉ (operatorRecordingRules "a'b" ++ macPoolRecordingRules "a'b").map nameOf := by
  intro _ r done alert rule
  have halert : alert ∈ alerts done.listAlerts := by decide +kernel
  have hrule : rule ∈ recordingRules done.listRecordingRules := by decide +kernel
  obtain ⟨halerts, hrules⟩ := (lint_enriched .default).2.1 r "a'b"
  exact ⟨⟨halert, halerts alert halert⟩, hrule, hrules rule hrule⟩

end OperatorRules.Lint
