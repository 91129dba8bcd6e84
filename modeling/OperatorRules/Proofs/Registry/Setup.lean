import OperatorRules.Proofs.Registry

/-!
# Setup

Setup as work on one registry, step by step and in place, where an error undoes nothing
(`setupRules`), and what it makes of a registry that holds any rules already: the shipped rules are
laid over it (`Overlays`), and a later setup leaves nothing of an earlier one.
-/

namespace OperatorRules

namespace Catalogue

def shippedAlerts (t : RunbookTemplate) : List AlertRule :=
  operatorAlerts.map (AlertRule.enrich t)

def shippedRecordingRules (ns : String) : List RecordingRule :=
  operatorRecordingRules ns ++ macPoolRecordingRules ns

theorem shippedAlerts_names (t : RunbookTemplate) :
    (shippedAlerts t).map nameOf = operatorAlerts.map nameOf := by
  rw [shippedAlerts, List.map_map]
  rfl

theorem shippedRecordingRules_names (ns : String) :
    (shippedRecordingRules ns).map nameOf =
      ["kubevirt_cnao_operator_up", "kubevirt_cnao_cr_kubemacpool_deployed",
        "kubevirt_cnao_kubemacpool_manager_up", "kubevirt_cnao_kubemacpool_duplicate_macs"] := rfl

theorem shippedAlerts_nodup (t : RunbookTemplate) : ((shippedAlerts t).map nameOf).Nodup := by
  rw [shippedAlerts_names]
  decide

theorem shippedRecordingRules_nodup (ns : String) :
    ((shippedRecordingRules ns).map nameOf).Nodup := by
  rw [shippedRecordingRules_names]
  decide

end Catalogue

/-! ## Rules laid over a listing -/

section
variable {α : Type} [Named α]

/-- The rules that have the names of some others. -/
def namedAs (rules l : List α) : List α := l.filter fun a => (rules.map nameOf).contains (nameOf a)

/-- The listing after some rules were laid over the one before: these rules, and of the others those
whose names they do not have. -/
def Overlays (rules before after : List α) : Prop :=
  ∀ a, a ∈ after ↔ a ∈ rules ∨ a ∈ before ∧ nameOf a ∉ rules.map nameOf

theorem overlays_insertMany {rules : List α} (hnodup : (rules.map nameOf).Nodup) (r : Roster α) :
    Overlays rules r.toList (r.insertMany rules).toList := fun _ => r.mem_insertMany hnodup

/-- Under the names of the rules there are the rules. -/
theorem Overlays.mem_namedAs {rules before after : List α} (h : Overlays rules before after)
    {a : α} : a ∈ namedAs rules after ↔ a ∈ rules := by
  rw [namedAs, List.mem_filter, h a, List.contains_iff_mem]
  constructor
  · rintro ⟨ha | ⟨-, hnone⟩, hname⟩
    · exact ha
    · exact absurd hname hnone
  · exact fun ha => ⟨.inl ha, List.mem_map_of_mem ha⟩

/-- Whatever was there before, under the names of the rules there is the same. -/
theorem namedAs_insertMany {rules : List α} (hnodup : (rules.map nameOf).Nodup)
    (r r' : Roster α) :
    namedAs rules (r.insertMany rules).toList = namedAs rules (r'.insertMany rules).toList := by
  have hascending (r : Roster α) : Ascending (namedAs rules r.toList) :=
    r.ascending.filter _
  refine Roster.eq_of_mem_iff (hascending _) (hascending _) fun a => ?_
  rw [(overlays_insertMany hnodup r).mem_namedAs, (overlays_insertMany hnodup r').mem_namedAs]

end

namespace Registry

open Catalogue

variable {r r' : Registry}

theorem ext_rosters (halerts : r.alerts = r'.alerts)
    (hrules : r.recordingRules = r'.recordingRules) : r = r' := by
  cases r
  cases r'
  cases halerts
  cases hrules
  rfl

theorem setup_alerts (r : Registry) (ns : String) (t : RunbookTemplate) :
    (r.setup ns t).registry.alerts = r.alerts.insertMany (shippedAlerts t) := by
  have h := (Change.setup ns t).apply_alerts r
  rwa [Change.alertsGiven, Change.givenAlerts, map_registered_some] at h

theorem setup_recordingRules (r : Registry) (ns : String) (t : RunbookTemplate) :
    (r.setup ns t).registry.recordingRules =
      r.recordingRules.insertMany (shippedRecordingRules ns) :=
  (Change.setup ns t).apply_recordingRules r

theorem overlays_setup_alerts (r : Registry) (ns : String) (t : RunbookTemplate) :
    Overlays (shippedAlerts t) r.listAlerts (r.setup ns t).registry.listAlerts := by
  rw [listAlerts, listAlerts, setup_alerts]
  exact overlays_insertMany (shippedAlerts_nodup t) r.alerts

theorem overlays_setup_recordingRules (r : Registry) (ns : String) (t : RunbookTemplate) :
    Overlays (shippedRecordingRules ns) r.listRecordingRules
      (r.setup ns t).registry.listRecordingRules := by
  rw [listRecordingRules, listRecordingRules, setup_recordingRules]
  exact overlays_insertMany (shippedRecordingRules_nodup ns) r.recordingRules

/-- A later setup leaves nothing of an earlier one. -/
theorem setup_setup (r : Registry) (n n' : String) (t t' : RunbookTemplate) :
    ((r.setup n t).registry.setup n' t').registry = (r.setup n' t').registry := by
  refine ext_rosters ?_ ?_
  · rw [setup_alerts, setup_alerts, setup_alerts]
    refine Roster.insertMany_insertMany ?_
    rw [shippedAlerts_names, shippedAlerts_names]
    exact List.Subset.refl _
  · rw [setup_recordingRules, setup_recordingRules, setup_recordingRules]
    exact Roster.insertMany_insertMany (List.Subset.refl _)

/-! ## Setup in place -/

/-- Work on a registry in place, with what is reported in its course. What was done before an error
stays done. -/
abbrev Work := ExceptT RuleError (StateM Registration)

def perform (f : Registry → Registration) : Work Unit :=
  modify fun s => ⟨(f s.registry).registry, s.events ++ (f s.registry).events⟩

def setupEvent (ns : String) (r : Registry) : Event where
  level := .info
  message := some "operator monitoring rules registered"
  fields := [("namespace", .text ns), ("alerts", .count r.alertCount),
    ("recording_rules", .count r.recordingRuleCount)]

/-- Setup in place with a given template. -/
def setupWith (ns : String) (t : RunbookTemplate) : Work Unit := do
  perform (·.registerOperatorRecordingRules ns)
  perform (·.registerOperatorAlerts t)
  perform fun r => ⟨r, [setupEvent ns r]⟩

/-- Setup in place with the template that the environment determines. -/
def setupRules (ns : String) (rawTemplate? : Option ByteArray) : Work Unit := do
  let t ← liftExcept (RunbookTemplate.resolve rawTemplate?)
  setupWith ns t

theorem setupWith_run (ns : String) (t : RunbookTemplate) (s : Registration) :
    (setupWith ns t).run.run s =
      (.ok (), ⟨(s.registry.setup ns t).registry, s.events ++ (s.registry.setup ns t).events⟩) := by
  simp only [setup, ← List.append_assoc]
  rfl

theorem setupRules_run_of_error {ns : String} {raw : Option ByteArray} {e : RuleError}
    (h : RunbookTemplate.resolve raw = .error e) (s : Registration) :
    (setupRules ns raw).run.run s = (.error e, s) := by
  rw [setupRules, h]
  rfl

theorem setupRules_run_of_ok {ns : String} {raw : Option ByteArray} {t : RunbookTemplate}
    (h : RunbookTemplate.resolve raw = .ok t) (s : Registration) :
    (setupRules ns raw).run.run s = (setupWith ns t).run.run s := by
  rw [setupRules, h]
  rfl

/-- Setup in place does to the registry what setup gives, and nothing if it gives none. -/
theorem setupRules_run (ns : String) (raw : Option ByteArray) (s : Registration) :
    (setupRules ns raw).run.run s =
      match s.registry.setupFromEnvironment ns raw with
      | .error e => (.error e, s)
      | .ok done => (.ok (), ⟨done.registry, s.events ++ done.events⟩) := by
  cases h : RunbookTemplate.resolve raw with
  | error e => rw [setupRules_run_of_error h, setupFromEnvironment, h]; rfl
  | ok t => rw [setupRules_run_of_ok h, setupWith_run, setupFromEnvironment, h]; rfl

/-! ## What setup does to a registry -/

/-- Setup that fails has registered nothing, for it fails before it begins. Setup that succeeds is
setup with the template that is in force: it lays the shipped rules over those that are registered,
whatever they are, so that its alerts depend on the template only and its recording rules on the
namespace only, and leaves nothing of a setup before it. -/
theorem setup_overlays (r : Registry) (events : List Event) (n n' : String)
    (t t' : RunbookTemplate) (raw : Option ByteArray) :
    let state : Registration := ⟨r, events⟩
    let done := r.setup n t
    (setupRules n raw).run.run state =
      (match r.setupFromEnvironment n raw with
      | .error e => (.error e, state)
      | .ok result => (.ok (), ⟨result.registry, events ++ result.events⟩)) ∧
    (∀ e s, (setupRules n raw).run.run state = (.error e, s) →
      RunbookTemplate.resolve raw = .error e ∧ s = state) ∧
    (∀ s, (setupRules n raw).run.run state = (.ok (), s) →
      ∃ u, RunbookTemplate.resolve raw = .ok u ∧ (setupWith n u).run.run state = (.ok (), s)) ∧
    (setupWith n t).run.run state = (.ok (), ⟨done.registry, events ++ done.events⟩) ∧
    Overlays (shippedAlerts t) r.listAlerts done.registry.listAlerts ∧
    Overlays (shippedRecordingRules n) r.listRecordingRules done.registry.listRecordingRules ∧
    (∀ r' n', namedAs (shippedAlerts t) done.registry.listAlerts =
      namedAs (shippedAlerts t) (Registry.setup r' n' t).registry.listAlerts) ∧
    (∀ r' t', namedAs (shippedRecordingRules n) done.registry.listRecordingRules =
      namedAs (shippedRecordingRules n) (Registry.setup r' n t').registry.listRecordingRules) ∧
    ((r.setup n' t').registry.setup n t).registry = done.registry := by
  intro state done
  refine ⟨setupRules_run n raw state, fun e s hs => ?_, fun s hs => ?_, setupWith_run n t state,
    ?_, ?_, fun r' n' => ?_, fun r' t' => ?_, setup_setup r n' n t' t⟩
  · cases h : RunbookTemplate.resolve raw with
    | error e' => rw [setupRules_run_of_error h] at hs; cases hs; exact ⟨rfl, rfl⟩
    | ok u => rw [setupRules_run_of_ok h, setupWith_run] at hs; cases hs
  · cases h : RunbookTemplate.resolve raw with
    | error e' => rw [setupRules_run_of_error h] at hs; cases hs
    | ok u => exact ⟨u, rfl, by rw [← setupRules_run_of_ok h, hs]⟩
  · rw [listAlerts, listAlerts, setup_alerts]
    exact overlays_insertMany (shippedAlerts_nodup t) r.alerts
  · rw [listRecordingRules, listRecordingRules, setup_recordingRules]
    exact overlays_insertMany (shippedRecordingRules_nodup n) r.recordingRules
  · rw [listAlerts, listAlerts, setup_alerts, setup_alerts]
    exact namedAs_insertMany (shippedAlerts_nodup t) r.alerts r'.alerts
  · rw [listRecordingRules, listRecordingRules, setup_recordingRules, setup_recordingRules]
    exact namedAs_insertMany (shippedRecordingRules_nodup n) r.recordingRules r'.recordingRules

end Registry

end OperatorRules
