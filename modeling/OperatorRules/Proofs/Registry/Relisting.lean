import OperatorRules.Proofs.Registry.Enrichment
import OperatorRules.Proofs.Registry.Setup

/-!
# A registry and its own listing

What becomes of a registry that is given what it lists. Given as it is, the listing changes nothing:
each rule finds itself under its name. Enriched on the way (`reenrich`), every alert becomes its
enrichment and stays in its place, and only the template that came last leaves a trace
(`reenrich_reenrich`), since an enrichment writes over the one before (`Enriches.trans`).
-/

namespace OperatorRules

/-- Of two enrichments the later is left. -/
theorem Enriches.trans {t t' : RunbookTemplate} {given a b : AlertRule} (h : Enriches t given a)
    (h' : Enriches t' a b) : Enriches t' given b where
  name_eq := h'.name_eq.trans h.name_eq
  expr_eq := h'.expr_eq.trans h.expr_eq
  holdFor_eq := h'.holdFor_eq.trans h.holdFor_eq
  partOf := h'.partOf
  component := h'.component
  otherLabels key hpartOf hcomponent :=
    (h'.otherLabels key hpartOf hcomponent).trans (h.otherLabels key hpartOf hcomponent)
  runbook := h'.runbook
  otherAnnotations key hkey := (h'.otherAnnotations key hkey).trans (h.otherAnnotations key hkey)

theorem AlertRule.enrich_enrich (t t' : RunbookTemplate) (a : AlertRule) :
    (a.enrich t).enrich t' = a.enrich t' :=
  enriches_iff.1 ((enriches_enrich t a).trans (enriches_enrich t' (a.enrich t)))

namespace Registry

theorem registerAlerts_listAlerts (r : Registry) :
    (r.registerAlerts [r.listAlerts]).registry = r := by
  refine ext_rosters ?_ rfl
  rw [registerAlerts_alerts, List.flatten_singleton, listAlerts,
    Roster.insertMany_of_names_subset (List.Subset.refl _), Roster.ofList_toList]

theorem registerRecordingRules_listRecordingRules (r : Registry) :
    (r.registerRecordingRules [r.listRecordingRules]).registry = r := by
  refine ext_rosters rfl ?_
  rw [registerRecordingRules_recordingRules, List.flatten_singleton, listRecordingRules,
    Roster.insertMany_of_names_subset (List.Subset.refl _), Roster.ofList_toList]

/-- The registry after its own alerts were registered again, enriched by a template. -/
def reenrich (r : Registry) (t : RunbookTemplate) : Registry :=
  (r.registerEnriched t [r.listAlerts]).registry

theorem listAlerts_reenrich (r : Registry) (t : RunbookTemplate) :
    (r.reenrich t).listAlerts = r.listAlerts.map (AlertRule.enrich t) := by
  rw [reenrich, listAlerts, registerEnriched_alerts, List.flatten_singleton]
  exact r.alerts.toList_insertMany_map fun _ => rfl

theorem recordingRules_reenrich (r : Registry) (t : RunbookTemplate) :
    (r.reenrich t).recordingRules = r.recordingRules := rfl

theorem reenrich_reenrich (r : Registry) (t t' : RunbookTemplate) :
    (r.reenrich t).reenrich t' = r.reenrich t' := by
  refine ext_rosters (Roster.toList_inj ?_) ?_
  · have hlist (r : Registry) : r.alerts.toList = r.listAlerts := rfl
    rw [hlist, hlist, listAlerts_reenrich, listAlerts_reenrich, listAlerts_reenrich, List.map_map]
    exact List.map_congr_left fun a _ => a.enrich_enrich t t'
  · rw [recordingRules_reenrich, recordingRules_reenrich, recordingRules_reenrich]

/-- A registry that is given its own listings stays as it is. Given its alerts enriched by a
template, it has each of them enriched in its place, with the labels and the address of the operator
and otherwise as it was, and the same recording rules; the same template again changes nothing, and
another template leaves nothing of the first. -/
theorem listing_given_back (r : Registry) (t t' : RunbookTemplate) :
    (r.registerAlerts [r.listAlerts]).registry = r ∧
    (r.registerRecordingRules [r.listRecordingRules]).registry = r ∧
    List.Forall₂ (Enriches t) r.listAlerts (r.reenrich t).listAlerts ∧
    (r.reenrich t).listRecordingRules = r.listRecordingRules ∧
    (r.reenrich t).reenrich t = r.reenrich t ∧
    (r.reenrich t).reenrich t' = r.reenrich t' := by
  refine ⟨registerAlerts_listAlerts r, registerRecordingRules_listRecordingRules r, ?_, ?_,
    reenrich_reenrich r t t, reenrich_reenrich r t t'⟩
  · rw [listAlerts_reenrich, List.forall₂_map_right_iff, List.forall₂_same]
    exact fun a _ => enriches_enrich t a
  · rw [listRecordingRules, recordingRules_reenrich, listRecordingRules]

end Registry

end OperatorRules
