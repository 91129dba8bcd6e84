import OperatorRules.Proofs.Registry
import OperatorRules.Proofs.Runbook

/-!
# Enrichment over a history

What the alerts of a registry owe to the alerts that were given and to the templates they were given
with. `Enriches` says it of one alert, and determines the enriched alert (`enriches_iff`);
`mem_listAlerts_iff` follows a name through a history to the last alert that was given under it.
-/

namespace OperatorRules

/-! ## One alert -/

/-- `a` is the given alert with the labels of the operator and the address of its runbook, in place
of whatever the given one had under these three keys. -/
structure Enriches (t : RunbookTemplate) (given a : AlertRule) : Prop where
  name_eq : a.name = given.name
  expr_eq : a.expr = given.expr
  holdFor_eq : a.holdFor = given.holdFor
  partOf : a.labels.value? "kubernetes_operator_part_of" = some "kubevirt"
  component :
    a.labels.value? "kubernetes_operator_component" = some "cluster-network-addons-operator"
  otherLabels : ∀ key, key ≠ "kubernetes_operator_part_of" →
    key ≠ "kubernetes_operator_component" → a.labels.value? key = given.labels.value? key
  runbook : ∃ before after, t.SlotBetween before after ∧
    a.annotations.value? "runbook_url" = some (before ++ a.name ++ after)
  otherAnnotations :
    ∀ key, key ≠ "runbook_url" → a.annotations.value? key = given.annotations.value? key

theorem AlertRule.value?_labels_enrich (t : RunbookTemplate) (a : AlertRule) (key : String) :
    (a.enrich t).labels.value? key =
      if componentKey = key then some componentValue
      else if partOfKey = key then some partOfValue else a.labels.value? key := by
  unfold enrich annotate label
  rw [Entries.value?_set, Entries.value?_set]

theorem AlertRule.value?_annotations_enrich (t : RunbookTemplate) (a : AlertRule) (key : String) :
    (a.enrich t).annotations.value? key =
      if runbookKey = key then some (t.urlFor a.name) else a.annotations.value? key := by
  unfold enrich annotate label
  rw [Entries.value?_set]

theorem enriches_enrich (t : RunbookTemplate) (given : AlertRule) :
    Enriches t given (given.enrich t) where
  name_eq := rfl
  expr_eq := rfl
  holdFor_eq := rfl
  partOf := by
    rw [AlertRule.value?_labels_enrich]
    rfl
  component := by
    rw [AlertRule.value?_labels_enrich]
    rfl
  otherLabels key hpartOf hcomponent := by
    have hcomponent : componentKey ≠ key := hcomponent.symm
    have hpartOf : partOfKey ≠ key := hpartOf.symm
    rw [AlertRule.value?_labels_enrich, if_neg hcomponent, if_neg hpartOf]
  runbook := by
    obtain ⟨before, after, hslot⟩ := t.exists_slotBetween
    refine ⟨before, after, hslot, ?_⟩
    rw [AlertRule.value?_annotations_enrich, hslot.urlFor_eq]
    rfl
  otherAnnotations key hkey := by
    have hkey : runbookKey ≠ key := hkey.symm
    rw [AlertRule.value?_annotations_enrich, if_neg hkey]

/-- What `Enriches` says leaves no choice. -/
theorem enriches_iff {t : RunbookTemplate} {given a : AlertRule} :
    Enriches t given a ↔ a = given.enrich t := by
  constructor
  · intro h
    have hlabels : a.labels = (given.enrich t).labels := by
      refine Entries.ext_value? fun key => ?_
      rw [AlertRule.value?_labels_enrich]
      by_cases hcomponent : componentKey = key
      · rw [if_pos hcomponent, ← hcomponent]
        exact h.component
      rw [if_neg hcomponent]
      by_cases hpartOf : partOfKey = key
      · rw [if_pos hpartOf, ← hpartOf]
        exact h.partOf
      rw [if_neg hpartOf]
      exact h.otherLabels key (Ne.symm hpartOf) (Ne.symm hcomponent)
    have hannotations : a.annotations = (given.enrich t).annotations := by
      refine Entries.ext_value? fun key => ?_
      rw [AlertRule.value?_annotations_enrich]
      by_cases hkey : runbookKey = key
      · obtain ⟨before, after, hslot, hurl⟩ := h.runbook
        rw [if_pos hkey, ← hkey, hslot.urlFor_eq, ← h.name_eq]
        exact hurl
      rw [if_neg hkey]
      exact h.otherAnnotations key (Ne.symm hkey)
    have hname := h.name_eq
    have hexpr := h.expr_eq
    have hholdFor := h.holdFor_eq
    cases a
    simp only at hname hexpr hholdFor hlabels hannotations
    rw [hname, hexpr, hholdFor, hlabels, hannotations]
    rfl
  · rintro rfl
    exact enriches_enrich t given

namespace Registry

/-! ## Histories -/

theorem name_registered (x : Option RunbookTemplate × AlertRule) :
    (registered x).name = x.2.name := by
  obtain ⟨_ | t, a⟩ := x <;> rfl

namespace History

theorem mem_of_mem_current {h : History} {c : Change} (hc : c ∈ h.current) : c ∈ h := by
  rw [current, List.mem_reverse] at hc
  exact List.mem_reverse.1 ((List.takeWhile_sublist _).subset hc)

/-- Without alerts that are registered as they are, every alert comes with a template. -/
theorem exists_template_of_mem {h : History} (hgiven : ∀ groups, Change.alerts groups ∉ h)
    {x : Option RunbookTemplate × AlertRule} (hx : x ∈ h.givenAlerts) : ∃ t, x.1 = some t := by
  obtain ⟨c, hc, hx⟩ := List.mem_flatMap.1 hx
  have hc := mem_of_mem_current hc
  cases c with
  | alerts groups => exact absurd hc (hgiven groups)
  | enriched t | operatorAlerts t | setup _ t =>
    obtain ⟨a, -, rfl⟩ := List.mem_map.1 hx
    exact ⟨t, rfl⟩
  | recordingRules | operatorRecordingRules | clean => cases hx

/-- An alert is in the listing if it is what was registered of the alert that was given last under
its name since the last cleaning. -/
theorem mem_listAlerts_iff {h : History} {a : AlertRule} :
    a ∈ h.replay.listAlerts ↔ ∃ before x after, h.givenAlerts = before ++ x :: after ∧
      (∀ y ∈ after, y.2.name ≠ a.name) ∧ registered x = a := by
  have hlog : h.log Change.alertsGiven = h.givenAlerts.map registered := by
    rw [givenAlerts, List.map_flatMap]
    rfl
  rw [replay_eq, listAlerts, Roster.mem_toList_iff, get?_roster, hlog,
    Roster.lastNamed?_eq_some_iff_append]
  constructor
  · rintro ⟨-, before, after, hsplit, hafter⟩
    obtain ⟨before, rest, hgiven, rfl, hrest⟩ := List.map_eq_append_iff.1 hsplit
    obtain ⟨x, after, rfl, hx, rfl⟩ := List.map_eq_cons_iff.1 hrest
    refine ⟨before, x, after, hgiven, fun y hy => ?_, hx⟩
    have hname := hafter _ (List.mem_map_of_mem hy)
    rwa [← name_registered y]
  · rintro ⟨before, x, after, hgiven, hafter, rfl⟩
    refine ⟨rfl, before.map registered, after.map registered, ?_, fun b hb => ?_⟩
    · rw [hgiven, List.map_append, List.map_cons]
    · obtain ⟨y, hy, rfl⟩ := List.mem_map.1 hb
      have hname := hafter y hy
      rwa [← name_registered y] at hname

/-- Where alerts are registered with a template only, the listing has under each name the alert that
was given last under it since the last cleaning, enriched by the template that it came with, and
nothing else: the two labels and the address are the operator's whatever the given alert had under
their keys, all the rest is the given alert's. -/
theorem listAlerts_enriched (h : History) (hgiven : ∀ groups, Change.alerts groups ∉ h)
    (a : AlertRule) :
    a ∈ h.replay.listAlerts ↔ ∃ before t given after,
      h.givenAlerts = before ++ (some t, given) :: after ∧
        (∀ later ∈ after, later.2.name ≠ a.name) ∧ Enriches t given a := by
  rw [mem_listAlerts_iff]
  constructor
  · rintro ⟨before, x, after, hsplit, hafter, rfl⟩
    obtain ⟨t, ht⟩ := exists_template_of_mem hgiven (x := x) (by rw [hsplit]; simp)
    obtain ⟨_, given⟩ := x
    cases ht
    exact ⟨before, t, given, after, hsplit, hafter, enriches_enrich t given⟩
  · rintro ⟨before, t, given, after, hsplit, hafter, henriches⟩
    exact ⟨before, (some t, given), after, hsplit, hafter, (enriches_iff.1 henriches).symm⟩

/-- An alert given again with another template, and with texts of its own under the operator's
keys: the later template counts, and none of these texts is left. -/
theorem listAlerts_enriched_given_again :
    let given := ((AlertRule.ofExpr "X" "up == 0").label "kubernetes_operator_part_of" "me").annotate
      "runbook_url" "none"
    let later : RunbookTemplate := ⟨"https://docs.example.com/%s.md", by decide⟩
    let h : History := [.setup "ns" later, .clean, .enriched .default [[given]],
      .enriched later [[given], [.ofExpr "A" "up"]]]
    (∀ groups, Change.alerts groups ∉ h) ∧
      given.enrich later ∈ h.replay.listAlerts ∧
      given.enrich .default ∉ h.replay.listAlerts ∧
      (given.enrich later).labels.value? "kubernetes_operator_part_of" = some "kubevirt" ∧
      (given.enrich later).annotations.value? "runbook_url" =
        some "https://docs.example.com/X.md" := by
  intro given later h
  have hgiven : ∀ groups, Change.alerts groups ∉ h := by
    intro groups hmem
    simp [h] at hmem
  have hmem : given.enrich later ∈ h.replay.listAlerts :=
    (listAlerts_enriched h hgiven _).2 ⟨[(some .default, given)], later, given,
      [(some later, .ofExpr "A" "up")], rfl, by decide, enriches_enrich later given⟩
  exact ⟨hgiven, hmem, by decide +kernel, by decide +kernel, by decide +kernel⟩

end History

end Registry

end OperatorRules
