import Mathlib.Data.List.Forall2
import OperatorRules.Manifest.Basic
import OperatorRules.Proofs.Roster

/-!
# The groups of a registry

What a manifest keeps of a registry. `Presents` is the shape of its groups: the listings of the
registry rule by rule, each in a group of its own that is left out if it would be empty. Nothing of
an alert is lost on the way, and of a recording rule its name and its expression are kept
(`ofRegistry_eq_iff`).
-/

namespace OperatorRules

/-! ## Rules -/

namespace Rule

/-- The name of the alert or of the series that a rule is for. -/
def name? (r : Rule) : Option String := r.alert.or r.record

/-- The rule for an alert. -/
structure CarriesAlert (a : AlertRule) (r : Rule) : Prop where
  alert : r.alert = some a.name
  record : r.record = none
  expr : r.expr = a.expr
  holdFor : r.holdFor = a.holdFor
  labels : r.labels = a.labels
  annotations : r.annotations = a.annotations

/-- The rule for a recording rule. -/
structure CarriesRecordingRule (a : RecordingRule) (r : Rule) : Prop where
  alert : r.alert = none
  record : r.record = some a.name
  expr : r.expr = a.expr
  holdFor : r.holdFor = none
  labels : r.labels = ∅
  annotations : r.annotations = ∅

theorem carriesAlert_ofAlert (a : AlertRule) : CarriesAlert a (ofAlert a) := by
  constructor <;> rfl

theorem carriesRecordingRule_ofRecordingRule (a : RecordingRule) :
    CarriesRecordingRule a (ofRecordingRule a) := by
  constructor <;> rfl

theorem CarriesAlert.name?_eq {a : AlertRule} {r : Rule} (h : CarriesAlert a r) :
    r.name? = some a.name := by
  rw [name?, h.alert, Option.some_or]

theorem CarriesRecordingRule.name?_eq {a : RecordingRule} {r : Rule}
    (h : CarriesRecordingRule a r) : r.name? = some a.name := by
  rw [name?, h.alert, h.record, Option.none_or]

/-- An alert is determined by its rule. -/
theorem ofAlert_injective : Function.Injective ofAlert := by
  intro a b h
  obtain ⟨_, _, _, _, _⟩ := a
  obtain ⟨_, _, _, _, _⟩ := b
  simp only [ofAlert, mk.injEq, Option.some.injEq, true_and] at h
  obtain ⟨rfl, rfl, rfl, rfl, rfl⟩ := h
  rfl

/-- Of a recording rule, the name and the expression are determined by its rule. -/
theorem ofRecordingRule_eq_iff {a b : RecordingRule} :
    ofRecordingRule a = ofRecordingRule b ↔ (a.name, a.expr) = (b.name, b.expr) := by
  simp only [ofRecordingRule, mk.injEq, Option.some.injEq, Prod.mk.injEq, true_and, and_true]

end Rule

/-! ## Groups -/

namespace RuleSpec

/-- The rules in the groups of that name, in order. -/
def rulesOf (s : RuleSpec) (name : String) : List Rule :=
  (s.groups.filter (·.name == name)).flatMap RuleGroup.rules

/-- The groups show the listings of the registry. -/
structure Presents (r : Registry) (s : RuleSpec) : Prop where
  atMostTwo : s.groups.length ≤ 2
  alertsFirst : (s.groups.map RuleGroup.name).Sublist [alertsGroup, recordingRulesGroup]
  names_nodup : (s.groups.map RuleGroup.name).Nodup
  nonempty : ∀ g ∈ s.groups, g.rules ≠ []
  alerts : List.Forall₂ Rule.CarriesAlert r.listAlerts (s.rulesOf alertsGroup)
  recordingRules :
    List.Forall₂ Rule.CarriesRecordingRule r.listRecordingRules (s.rulesOf recordingRulesGroup)
  distinct : ∀ g ∈ s.groups, (g.rules.map Rule.name?).Nodup

theorem mem_groupOf {name : String} {rules : List Rule} {g : RuleGroup} :
    g ∈ groupOf name rules ↔ rules ≠ [] ∧ g = ⟨name, rules⟩ := by
  unfold groupOf
  cases rules <;> simp

theorem names_groupOf_sublist (name : String) (rules : List Rule) :
    ((groupOf name rules).map RuleGroup.name).Sublist [name] := by
  unfold groupOf
  cases rules <;> simp

/-- A group that is left out has no rules that could be missed. -/
theorem rules_groupOf (name name' : String) (rules : List Rule) :
    ((groupOf name rules).filter (·.name == name')).flatMap RuleGroup.rules =
      if name = name' then rules else [] := by
  unfold groupOf
  by_cases hname : name = name' <;> cases rules <;> simp [hname]

variable (r r' : Registry)

theorem rulesOf_ofRegistry (name : String) :
    (ofRegistry r).rulesOf name =
      (if alertsGroup = name then r.listAlerts.map .ofAlert else []) ++
        if recordingRulesGroup = name then r.listRecordingRules.map .ofRecordingRule else [] := by
  rw [rulesOf, ofRegistry, List.filter_append, List.flatMap_append, rules_groupOf, rules_groupOf]

theorem rulesOf_alertsGroup : (ofRegistry r).rulesOf alertsGroup = r.listAlerts.map .ofAlert := by
  have hne : recordingRulesGroup ≠ alertsGroup := by decide
  rw [rulesOf_ofRegistry, if_pos rfl, if_neg hne, List.append_nil]

theorem rulesOf_recordingRulesGroup :
    (ofRegistry r).rulesOf recordingRulesGroup = r.listRecordingRules.map .ofRecordingRule := by
  have hne : alertsGroup ≠ recordingRulesGroup := by decide
  rw [rulesOf_ofRegistry, if_neg hne, if_pos rfl, List.nil_append]

theorem names_ofRegistry_sublist :
    ((ofRegistry r).groups.map RuleGroup.name).Sublist [alertsGroup, recordingRulesGroup] := by
  rw [ofRegistry, List.map_append]
  exact (names_groupOf_sublist alertsGroup _).append (names_groupOf_sublist recordingRulesGroup _)

theorem mem_groups_ofRegistry {g : RuleGroup} (hg : g ∈ (ofRegistry r).groups) :
    g.rules ≠ [] ∧ (g.rules = r.listAlerts.map .ofAlert ∨
      g.rules = r.listRecordingRules.map .ofRecordingRule) := by
  rcases List.mem_append.1 hg with hg | hg
  · obtain ⟨hne, rfl⟩ := mem_groupOf.1 hg
    exact ⟨hne, .inl rfl⟩
  · obtain ⟨hne, rfl⟩ := mem_groupOf.1 hg
    exact ⟨hne, .inr rfl⟩

/-- Names that tell the things of a roster apart tell their rules apart. -/
theorem nodup_names_map {α : Type} [Named α] {ofThing : α → Rule}
    (hname : ∀ a, (ofThing a).name? = some (nameOf a)) (roster : Roster α) :
    ((roster.toList.map ofThing).map Rule.name?).Nodup := by
  have hnames : (roster.toList.map ofThing).map Rule.name? = (roster.toList.map nameOf).map some := by
    rw [List.map_map, List.map_map]
    exact List.map_congr_left fun a _ => hname a
  rw [hnames]
  exact roster.ascending.nodup_names.map fun _ _ h => Option.some.inj h

theorem presents_ofRegistry : Presents r (ofRegistry r) where
  atMostTwo := by
    rw [← List.length_map RuleGroup.name]
    exact (names_ofRegistry_sublist r).length_le
  alertsFirst := names_ofRegistry_sublist r
  names_nodup := by
    have hnodup : [alertsGroup, recordingRulesGroup].Nodup := by decide
    exact (names_ofRegistry_sublist r).nodup hnodup
  nonempty g hg := (mem_groups_ofRegistry r hg).1
  alerts := by
    rw [rulesOf_alertsGroup, List.forall₂_map_right_iff, List.forall₂_same]
    exact fun a _ => Rule.carriesAlert_ofAlert a
  recordingRules := by
    rw [rulesOf_recordingRulesGroup, List.forall₂_map_right_iff, List.forall₂_same]
    exact fun a _ => Rule.carriesRecordingRule_ofRecordingRule a
  distinct g hg := by
    rcases (mem_groups_ofRegistry r hg).2 with h | h
    · rw [h]
      exact nodup_names_map (fun a => (Rule.carriesAlert_ofAlert a).name?_eq) r.alerts
    · rw [h]
      exact nodup_names_map (fun a => (Rule.carriesRecordingRule_ofRecordingRule a).name?_eq)
        r.recordingRules

theorem map_ofRecordingRule_eq_iff {l l' : List RecordingRule} :
    l.map Rule.ofRecordingRule = l'.map Rule.ofRecordingRule ↔
      l.map (fun a => (a.name, a.expr)) = l'.map (fun a => (a.name, a.expr)) := by
  induction l generalizing l' with
  | nil => cases l' <;> simp
  | cons a l ih =>
    cases l' with
    | nil => simp
    | cons b l' =>
      rw [List.map_cons, List.map_cons, List.map_cons, List.map_cons, List.cons.injEq,
        List.cons.injEq, ih, Rule.ofRecordingRule_eq_iff]

theorem ofRegistry_eq_iff :
    ofRegistry r = ofRegistry r' ↔
      r.listAlerts.map Rule.ofAlert = r'.listAlerts.map Rule.ofAlert ∧
        r.listRecordingRules.map Rule.ofRecordingRule =
          r'.listRecordingRules.map Rule.ofRecordingRule := by
  constructor
  · intro h
    rw [← rulesOf_alertsGroup, ← rulesOf_recordingRulesGroup, h, rulesOf_alertsGroup,
      rulesOf_recordingRulesGroup]
    exact ⟨rfl, rfl⟩
  · rintro ⟨halerts, hrules⟩
    rw [ofRegistry, ofRegistry, halerts, hrules]

/-- The groups of a registry show its listings, and two registries have the same groups if and only
if they list the same alerts and, by name and expression, the same recording rules: nothing of an
alert is lost, of a recording rule its help text and its type, and a group that is left out makes
no two registries look alike. -/
theorem ofRegistry_presents :
    Presents r (ofRegistry r) ∧
    (ofRegistry r = ofRegistry r' ↔
      r.listAlerts = r'.listAlerts ∧
        r.listRecordingRules.map (fun a => (a.name, a.expr)) =
          r'.listRecordingRules.map (fun a => (a.name, a.expr))) := by
  refine ⟨presents_ofRegistry r, ?_⟩
  rw [ofRegistry_eq_iff, List.map_inj_right fun _ _ h => Rule.ofAlert_injective h,
    map_ofRecordingRule_eq_iff]

end RuleSpec

end OperatorRules
