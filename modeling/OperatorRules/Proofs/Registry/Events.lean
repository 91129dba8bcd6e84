import Mathlib.Data.List.Induction
import Mathlib.Data.List.Nodup
import OperatorRules.Proofs.Registry

/-!
# What registration reports

Whether a rule is reported as a replacement depends on all that came before it: on what was
registered when the call began, and on the rules that the call registered before. `Announces` says
so for the events of one call as a whole, and accounts for every definition that is lost;
`Announces.concat` is what one more rule does to it, and `announces_register` goes through the rules
in order.
-/

namespace OperatorRules

/-- That a thing is being registered. -/
def Wording.registration (w : Wording) (name : String) : Event where
  level := .debug
  message := some w.registering
  fields := [(w.field, .text name)]

/-- That a thing has been replaced. -/
def Wording.replacement (w : Wording) (name : String) : Event where
  level := .warn
  message := some w.replacing
  fields := [(w.field, .text name)]

/-- `events` report that things were registered under the names `given`, in that order, where the
names `before` were taken: each registration, directly behind it the replacement if the name was
taken before or given before, and nothing else. `after` are the names that are taken afterwards. -/
structure Announces (w : Wording) (before given after : List String)
    (countBefore countAfter : Nat) (events : List Event) : Prop where
  events_eq : events = (given.mapIdx fun i name =>
    w.registration name ::
      if name ∈ before ++ given.take i then [w.replacement name] else []).flatten
  /-- What is counted less than it was registered was reported to be replaced. -/
  count_eq : (countAfter : Int) = countBefore + events.countP (·.level = .debug) -
    events.countP (·.level = .warn)
  /-- The same under each name: what was there or was given is there or was reported. -/
  name_eq : ∀ name, before.count name + given.count name =
    after.count name + events.count (w.replacement name)

namespace Announces

variable {w : Wording} {before given after : List String} {countBefore : Nat}
  {events : List Event}

theorem nil (before : List String) : Announces w before [] before countBefore countBefore [] where
  events_eq := rfl
  count_eq := by simp
  name_eq name := by simp

/-- One more name is given. -/
theorem concat {after' : List String}
    (h : Announces w before given after countBefore after.length events)
    (hmem : ∀ name, name ∈ after ↔ name ∈ before ++ given) (name : String)
    (hafter : after'.Perm (after.insert name)) :
    Announces w before (given ++ [name]) after' countBefore after'.length
      (events ++ w.registration name :: if name ∈ after then [w.replacement name] else []) where
  events_eq := by
    -- what came before the earlier names is the same whether or not another one follows
    have hearlier : (given.mapIdx fun i earlier => w.registration earlier ::
          if earlier ∈ before ++ (given ++ [name]).take i then [w.replacement earlier] else []) =
        given.mapIdx fun i earlier => w.registration earlier ::
          if earlier ∈ before ++ given.take i then [w.replacement earlier] else [] := by
      refine List.mapIdx_eq_mapIdx_iff.2 fun i hi => ?_
      rw [List.take_append_of_le_length (Nat.le_of_lt hi)]
    rw [List.mapIdx_concat, hearlier, List.flatten_append, ← h.events_eq, List.flatten_singleton,
      List.take_append_of_le_length (Nat.le_refl _), List.take_length]
    simp only [hmem]
  count_eq := by
    have hcount := h.count_eq
    rw [hafter.length_eq]
    by_cases hname : name ∈ after
    · simp [hname, Wording.registration, Wording.replacement]
      omega
    · simp [hname, Wording.registration]
      omega
  name_eq name' := by
    have hcount := h.name_eq name'
    have hregistration : w.registration name ≠ w.replacement name' := by
      simp [Wording.registration, Wording.replacement]
    have hreplacement : w.replacement name = w.replacement name' ↔ name = name' := by
      simp [Wording.replacement]
    rw [hafter.count_eq]
    by_cases hname : name ∈ after
    · simp [hname, hregistration, hreplacement, List.count_cons]
      omega
    · simp [hname, hregistration, List.count_cons]
      omega

end Announces

namespace Roster

variable {α : Type} [Named α]

theorem contains_iff (r : Roster α) (name : String) :
    r.contains name ↔ name ∈ r.toList.map nameOf := by
  simp [contains, get?]

/-- The names that are taken after a registration: what was taken and what is given. -/
theorem mem_names_insertMany (r : Roster α) (l : List α) (name : String) :
    name ∈ (r.insertMany l).toList.map nameOf ↔ name ∈ r.toList.map nameOf ++ l.map nameOf := by
  have hlast : lastNamed? name l = none ↔ name ∉ l.map nameOf := lastNamed?_eq_none_iff
  rw [← contains_iff, contains, get?_insertMany, Option.isSome_or, Bool.or_eq_true,
    ← contains, contains_iff, List.mem_append, or_comm, Option.isSome_iff_ne_none, Ne, hlast,
    not_not]

theorem perm_names_insert (r : Roster α) (a : α) :
    ((r.insert a).toList.map nameOf).Perm ((r.toList.map nameOf).insert (nameOf a)) := by
  refine (List.perm_ext_iff_of_nodup (r.insert a).ascending.nodup_names
    r.ascending.nodup_names.insert).2 fun name => ?_
  rw [List.mem_insert_iff, show r.insert a = r.insertMany [a] from rfl, mem_names_insertMany]
  simp [or_comm]

theorem register_concat (w : Wording) (r : Roster α) (l : List α) (a : α) :
    (r.register w (l ++ [a])).2 = (r.register w l).2 ++
      w.events (nameOf a) ((r.insertMany l).contains (nameOf a)) := by
  induction l generalizing r with
  | nil => exact List.append_nil _
  | cons b l ih =>
    show w.events (nameOf b) _ ++ ((r.insert b).register w (l ++ [a])).2 = _
    rw [ih, ← List.append_assoc]
    rfl

theorem events_contains (w : Wording) (r : Roster α) (name : String) :
    w.events name (r.contains name) = w.registration name ::
      if name ∈ r.toList.map nameOf then [w.replacement name] else [] := by
  simp only [← contains_iff]
  rfl

/-- What is reported of one call, in order. -/
theorem announces_register (w : Wording) (r : Roster α) (l : List α) :
    Announces w (r.toList.map nameOf) (l.map nameOf) ((r.insertMany l).toList.map nameOf) r.size
      (r.insertMany l).size (r.register w l).2 := by
  have hsize (r : Roster α) : r.size = (r.toList.map nameOf).length := (List.length_map ..).symm
  rw [hsize (r.insertMany l)]
  induction l using List.reverseRecOn with
  | nil =>
    rw [hsize r]
    exact Announces.nil _
  | append_singleton l a ih =>
    rw [List.map_append, List.map_singleton, register_concat, events_contains]
    refine ih.concat (r.mem_names_insertMany l) (nameOf a) ?_
    rw [insertMany_append]
    exact (r.insertMany l).perm_names_insert a

end Roster

namespace Registry

/-- What a call that registers alerts reports, and a call that registers recording rules: every
rule of the groups in order, each followed by its replacement if its name was taken by then, which
accounts for the counts. Whatever there is of the other kind, each call does and reports the same,
and leaves it as it is. -/
theorem registration_announced (r : Registry) (alertGroups : List (List AlertRule))
    (ruleGroups : List (List RecordingRule)) :
    let alerts := r.registerAlerts alertGroups
    let rules := r.registerRecordingRules ruleGroups
    Announces
        { field := "alert"
          registering := "registering alert"
          replacing := "alert registered twice, keeping the latest definition" }
        (r.listAlerts.map (·.name)) (alertGroups.flatten.map (·.name))
        (alerts.registry.listAlerts.map (·.name)) r.alertCount alerts.registry.alertCount
        alerts.events ∧
      Announces
        { field := "record"
          registering := "registering recording rule"
          replacing := "recording rule registered twice, keeping the latest definition" }
        (r.listRecordingRules.map (·.name)) (ruleGroups.flatten.map (·.name))
        (rules.registry.listRecordingRules.map (·.name)) r.recordingRuleCount
        rules.registry.recordingRuleCount rules.events ∧
      (∀ others, registerAlerts ⟨r.alerts, others⟩ alertGroups =
        ⟨⟨alerts.registry.alerts, others⟩, alerts.events⟩) ∧
      ∀ others, registerRecordingRules ⟨others, r.recordingRules⟩ ruleGroups =
        ⟨⟨others, rules.registry.recordingRules⟩, rules.events⟩ := by
  intro alerts rules
  refine ⟨?_, ?_, fun _ => rfl, fun _ => rfl⟩
  · have h := r.alerts.announces_register alertWording alertGroups.flatten
    rw [← registerAlerts_alerts] at h
    exact h
  · have h := r.recordingRules.announces_register recordingRuleWording ruleGroups.flatten
    rw [← registerRecordingRules_recordingRules] at h
    exact h

end Registry

end OperatorRules
