import OperatorRules.Manifest.Data
import OperatorRules.Manifest.Yaml
import OperatorRules.MetricsDoc
import OperatorRules.Proofs.Registry

/-!
# The order of registration

When the order in which rules are registered leaves a trace. Two batches of alerts may change places
if and only if they end alike under the names that they share (`Roster.insertMany_comm_iff`).
Batches that share no name may be interleaved in any way, in any groups and calls: where no name is
in both batches, what is given last under a name is given by one batch only
(`Interleaves.lastNamed?_eq`).
-/

namespace OperatorRules

/-! ## Interleavings -/

/-- The last list has the things of the other two, those of each in their own order. -/
inductive Interleaves {α : Type} : List α → List α → List α → Prop
  | nil : Interleaves [] [] []
  | left {a : α} {x y l : List α} : Interleaves x y l → Interleaves (a :: x) y (a :: l)
  | right {a : α} {x y l : List α} : Interleaves x y l → Interleaves x (a :: y) (a :: l)

namespace Interleaves

variable {α : Type} {x y l : List α}

theorem filterMap {β : Type} (h : Interleaves x y l) (f : α → Option β) :
    Interleaves (x.filterMap f) (y.filterMap f) (l.filterMap f) := by
  induction h with
  | nil => exact .nil
  | @left a x y l _ ih =>
    cases hf : f a with
    | none => simpa only [List.filterMap_cons_none hf] using ih
    | some b => simpa only [List.filterMap_cons_some hf] using ih.left
  | @right a x y l _ ih =>
    cases hf : f a with
    | none => simpa only [List.filterMap_cons_none hf] using ih
    | some b => simpa only [List.filterMap_cons_some hf] using ih.right

/-- Under no name does it matter how lists without a common name are interleaved. -/
theorem lastNamed?_eq [Named α] (h : Interleaves x y l)
    (hxy : ∀ a ∈ x, ∀ b ∈ y, nameOf a ≠ nameOf b) (name : String) :
    lastNamed? name l = lastNamed? name (x ++ y) := by
  have hcons (a : α) (l : List α) :
      lastNamed? name (a :: l) = (lastNamed? name l).or (lastNamed? name [a]) :=
    Roster.lastNamed?_append name [a] l
  induction h with
  | nil => rfl
  | @left a x y l _ ih =>
    have ih := ih fun b hb c hc => hxy b (List.mem_cons_of_mem a hb) c hc
    rw [List.cons_append, hcons, ih, ← hcons]
  | @right b x y l _ ih =>
    have ih := ih fun a ha c hc => hxy a ha c (List.mem_cons_of_mem b hc)
    rw [hcons, ih, Roster.lastNamed?_append, Roster.lastNamed?_append, hcons b y]
    -- the thing that comes first on the right has its name to itself, or it does not count
    by_cases hb : nameOf b = name
    · have hx : lastNamed? name x = none := by
        refine Roster.lastNamed?_eq_none_iff.2 fun hname => ?_
        obtain ⟨a, ha, hab⟩ := List.mem_map.1 hname
        exact hxy a ha b (List.mem_cons_self ..) (hab.trans hb.symm)
      rw [hx, Option.or_none, Option.or_none]
    · rw [Roster.lastNamed?_singleton, if_neg hb, Option.or_none, Option.or_none]

end Interleaves

/-! ## Calls -/

abbrev AnyRule := AlertRule ⊕ RecordingRule

/-- The rules are of different kinds or have different names. -/
def Apart : AnyRule → AnyRule → Prop
  | .inl a, .inl b => a.name ≠ b.name
  | .inr a, .inr b => a.name ≠ b.name
  | _, _ => True

namespace Registry

/-- A call that registers groups of rules of one kind. -/
inductive Call where
  | alerts (groups : List (List AlertRule))
  | recordingRules (groups : List (List RecordingRule))

def Call.apply : Call → Registry → Registry
  | alerts groups, r => (r.registerAlerts groups).registry
  | recordingRules groups, r => (r.registerRecordingRules groups).registry

def Call.rules : Call → List AnyRule
  | alerts groups => groups.flatten.map .inl
  | recordingRules groups => groups.flatten.map .inr

def call (r : Registry) (calls : List Call) : Registry := calls.foldl (fun r c => c.apply r) r

theorem Call.apply_alerts (c : Call) (r : Registry) :
    (c.apply r).alerts = r.alerts.insertMany (c.rules.filterMap Sum.getLeft?) := by
  cases c with
  | alerts groups =>
    have hrules : (alerts groups).rules.filterMap Sum.getLeft? = groups.flatten := by
      rw [rules, List.filterMap_map]
      exact List.filterMap_some
    rw [hrules]
    exact registerAlerts_alerts r groups
  | recordingRules groups =>
    have hrules : (recordingRules groups).rules.filterMap Sum.getLeft? = [] := by
      simp [rules]
    rw [hrules]
    rfl

theorem Call.apply_recordingRules (c : Call) (r : Registry) :
    (c.apply r).recordingRules = r.recordingRules.insertMany (c.rules.filterMap Sum.getRight?) := by
  cases c with
  | alerts groups =>
    have hrules : (alerts groups).rules.filterMap Sum.getRight? = [] := by
      simp [rules]
    rw [hrules]
    rfl
  | recordingRules groups =>
    have hrules : (recordingRules groups).rules.filterMap Sum.getRight? = groups.flatten := by
      rw [rules, List.filterMap_map]
      exact List.filterMap_some
    rw [hrules]
    exact registerRecordingRules_recordingRules r groups

/-- However rules are split into groups and calls, they are registered one after the other. -/
theorem call_rosters (r : Registry) (calls : List Call) :
    (r.call calls).alerts =
        r.alerts.insertMany ((calls.flatMap Call.rules).filterMap Sum.getLeft?) ∧
      (r.call calls).recordingRules =
        r.recordingRules.insertMany ((calls.flatMap Call.rules).filterMap Sum.getRight?) := by
  induction calls generalizing r with
  | nil => exact ⟨rfl, rfl⟩
  | cons c calls ih =>
    obtain ⟨halerts, hrules⟩ := ih (c.apply r)
    rw [List.flatMap_cons, List.filterMap_append, List.filterMap_append, Roster.insertMany_append,
      Roster.insertMany_append, ← c.apply_alerts, ← c.apply_recordingRules]
    exact ⟨halerts, hrules⟩

/-! ## What an order may change -/

def ListsAlike (r r' : Registry) : Prop :=
  r.listAlerts = r'.listAlerts ∧ r.listRecordingRules = r'.listRecordingRules

/-- The registries list the same, and so does everything that is written of them. -/
structure WritesAlike (r r' : Registry) : Prop where
  listings : ListsAlike r r'
  ruleFile : (RuleSpec.ofRegistry r).ruleFile = (RuleSpec.ofRegistry r').ruleFile
  manifest : ∀ ns, (PrometheusRule.build r ns).renderYaml = (PrometheusRule.build r' ns).renderYaml
  metricsDoc : MetricsDoc.render r.listRecordingRules = MetricsDoc.render r'.listRecordingRules

variable {r r' : Registry}

/-- Nothing but the listings goes into what is written. -/
theorem ListsAlike.writesAlike (h : ListsAlike r r') : WritesAlike r r' := by
  have hspec : RuleSpec.ofRegistry r = RuleSpec.ofRegistry r' := by
    rw [RuleSpec.ofRegistry, RuleSpec.ofRegistry, h.1, h.2]
  refine ⟨h, by rw [hspec], fun ns => ?_, by rw [h.2]⟩
  rw [PrometheusRule.build, PrometheusRule.build, hspec]

theorem listsAlike_registerAlerts_iff (r : Registry) (batch batch' : List (List AlertRule)) :
    ListsAlike ((r.registerAlerts batch).registry.registerAlerts batch').registry
        ((r.registerAlerts batch').registry.registerAlerts batch).registry ↔
      ∀ name, name ∈ batch.flatten.map nameOf → name ∈ batch'.flatten.map nameOf →
        lastNamed? name batch.flatten = lastNamed? name batch'.flatten := by
  have halerts (batch batch' : List (List AlertRule)) :
      ((r.registerAlerts batch).registry.registerAlerts batch').registry.alerts =
        (r.alerts.insertMany batch.flatten).insertMany batch'.flatten := by
    rw [registerAlerts_alerts, registerAlerts_alerts]
  rw [← Roster.insertMany_comm_iff (r := r.alerts), ← halerts, ← halerts]
  constructor
  · exact fun h => Roster.toList_inj h.1
  · exact fun h => ⟨congrArg Roster.toList h, rfl⟩

theorem insertMany_of_interleaves {α : Type} [Named α] {kind : AnyRule → Option α}
    (hkind : ∀ {a b a' b'}, Apart a b → kind a = some a' → kind b = some b' → nameOf a' ≠ nameOf b')
    {x y l l' : List AnyRule} (hxy : ∀ a ∈ x, ∀ b ∈ y, Apart a b) (h : Interleaves x y l)
    (h' : Interleaves x y l') (roster : Roster α) :
    roster.insertMany (l.filterMap kind) = roster.insertMany (l'.filterMap kind) := by
  have hnames : ∀ a ∈ x.filterMap kind, ∀ b ∈ y.filterMap kind, nameOf a ≠ nameOf b := by
    intro a' ha b' hb
    obtain ⟨a, ha, hka⟩ := List.mem_filterMap.1 ha
    obtain ⟨b, hb, hkb⟩ := List.mem_filterMap.1 hb
    exact hkind (hxy a ha b hb) hka hkb
  refine Roster.insertMany_congr fun name => ?_
  rw [(h.filterMap kind).lastNamed?_eq hnames, (h'.filterMap kind).lastNamed?_eq hnames]

/-- Interleaved calls of batches that share no name of a kind come to the same registry. -/
theorem listsAlike_call {x y : List AnyRule} (hxy : ∀ a ∈ x, ∀ b ∈ y, Apart a b)
    {calls calls' : List Call} (h : Interleaves x y (calls.flatMap Call.rules))
    (h' : Interleaves x y (calls'.flatMap Call.rules)) :
    ListsAlike (r.call calls) (r.call calls') := by
  rw [ListsAlike, listAlerts, listAlerts, listRecordingRules, listRecordingRules,
    (r.call_rosters calls).1, (r.call_rosters calls').1, (r.call_rosters calls).2,
    (r.call_rosters calls').2]
  refine ⟨congrArg Roster.toList (insertMany_of_interleaves ?_ hxy h h' r.alerts),
    congrArg Roster.toList (insertMany_of_interleaves ?_ hxy h h' r.recordingRules)⟩
  · rintro (a | a) (b | b) a' b' hab ha hb <;> cases ha <;> cases hb
    exact hab
  · rintro (a | a) (b | b) a' b' hab ha hb <;> cases ha <;> cases hb
    exact hab

/-- Two batches of alerts give the same listings in either order if and only if, under every name
that is in both, the last alert is the same. Batches of rules of any kind that share no name may be
interleaved in any way that keeps the order of each, in whatever groups and calls: the listings are
the same, and so is all that is written of them. -/
theorem registration_order (r : Registry) :
    (∀ batch batch' : List (List AlertRule),
      ListsAlike ((r.registerAlerts batch).registry.registerAlerts batch').registry
          ((r.registerAlerts batch').registry.registerAlerts batch).registry ↔
        ∀ name, name ∈ batch.flatten.map nameOf → name ∈ batch'.flatten.map nameOf →
          lastNamed? name batch.flatten = lastNamed? name batch'.flatten) ∧
    (∀ (x y : List AnyRule) (calls calls' : List Call), (∀ a ∈ x, ∀ b ∈ y, Apart a b) →
      Interleaves x y (calls.flatMap Call.rules) → Interleaves x y (calls'.flatMap Call.rules) →
        WritesAlike (r.call calls) (r.call calls')) :=
  ⟨listsAlike_registerAlerts_iff r,
    fun _ _ _ _ hxy h h' => (listsAlike_call hxy h h').writesAlike⟩

/-- An alert that is given twice, next to an alert and a recording rule of other names; that rule
has the name of the alert that is given twice. -/
theorem registration_order_given_twice :
    let first : AlertRule := .ofExpr "A" "up == 0"
    let second : AlertRule := .ofExpr "A" "up == 1"
    let other : AlertRule := .ofExpr "B" "up == 2"
    let rule : RecordingRule := .gauge "A" "Help." "up"
    let x : List AnyRule := [.inl first, .inl second]
    let y : List AnyRule := [.inl other, .inr rule]
    let calls : List Call := [.alerts [[first], [other]], .recordingRules [[rule]],
      .alerts [[second]]]
    let calls' : List Call := [.alerts [[], [first, second, other]], .recordingRules [[rule], []]]
    (∀ a ∈ x, ∀ b ∈ y, Apart a b) ∧
      Interleaves x y (calls.flatMap Call.rules) ∧ Interleaves x y (calls'.flatMap Call.rules) ∧
      WritesAlike (Registry.call ∅ calls) (Registry.call ∅ calls') ∧
      (Registry.call ∅ calls).listAlerts = [second, other] := by
  intro first second other rule x y calls calls'
  have hapart : ∀ a ∈ x, ∀ b ∈ y, Apart a b := by
    simp [x, y, Apart, first, second, other, AlertRule.ofExpr]
  have h : Interleaves x y (calls.flatMap Call.rules) :=
    .left (.right (.right (.left .nil)))
  have h' : Interleaves x y (calls'.flatMap Call.rules) :=
    .left (.left (.right (.right .nil)))
  exact ⟨hapart, h, h', (registration_order ∅).2 x y calls calls' hapart h h', by decide +kernel⟩

end Registry

end OperatorRules
