import OperatorRules.Manifest.Yaml
import OperatorRules.Proofs.Roster
import OperatorRules.Proofs.Yaml.Node

/-!
# Manifests told apart by their texts

The tree of a manifest has a fixed shape, so it is determined by its text, and each part of a
manifest is looked up in its tree. `renderYaml_inj` is the consequence: no text in a manifest can
be taken for structure or for another text.
-/

namespace OperatorRules

open Yaml

/-! ## The shape of a manifest -/

/-- Entries under the given names, texts under all others. -/
def Yaml.textsExcept (names : List String) (k : String) : Shape :=
  if k ∈ names then .entries else .text

/-- The shape of a rule. -/
def Rule.shape : Shape := .record (textsExcept ["labels", "annotations"])

/-- The shapes of the fields of a group. -/
def RuleGroup.shapeOf (k : String) : Shape := if k = "rules" then .list Rule.shape else .text

/-- The shape of the groups. -/
def RuleSpec.shape : Shape := .record fun _ => .list (.record RuleGroup.shapeOf)

/-- The shape of metadata. -/
def Metadata.shape : Shape := .record (textsExcept ["labels"])

/-- The shapes of the fields of a manifest. -/
def PrometheusRule.shapeOf (k : String) : Shape :=
  if k = "metadata" then Metadata.shape else if k = "spec" then RuleSpec.shape else .text

instance (k : String) : Decidable (IsFieldName k) := inferInstanceAs (Decidable (_ ∧ _))

theorem fits_record {field : String → Shape} {l : List (String × Node)} (h : FieldsFit field l) :
    Fits (.record field) (.fields l) :=
  ⟨l, rfl, h⟩

section
variable {field : String → Shape} {k : String}

theorem fieldsFit_nil : FieldsFit field [] := by rintro f ⟨⟩

theorem fieldsFit_append {l l' : List (String × Node)} (h : FieldsFit field l)
    (h' : FieldsFit field l') : FieldsFit field (l ++ l') := by
  intro f hf
  rcases List.mem_append.1 hf with hf | hf
  · exact h f hf
  · exact h' f hf

theorem fieldsFit_cons (hk : IsFieldName k) {n : Node} (hn : Fits (field k) n)
    {l : List (String × Node)} (hl : FieldsFit field l) : FieldsFit field ((k, n) :: l) := by
  intro f hf
  rcases List.mem_cons.1 hf with rfl | hf
  · exact ⟨hk, hn⟩
  · exact hl f hf

theorem fieldsFit_optionalField (hk : IsFieldName k) (hfield : field k = .text)
    (v : Option String) : FieldsFit field (optionalField k v) := by
  cases v with
  | none => exact fieldsFit_nil
  | some s =>
    refine fieldsFit_cons hk ?_ fieldsFit_nil
    rw [hfield]
    exact ⟨s, rfl⟩

theorem fieldsFit_entriesField (hk : IsFieldName k) (hfield : field k = .entries) (e : Entries) :
    FieldsFit field (entriesField k e) := by
  rw [entriesField]
  split
  · exact fieldsFit_nil
  · refine fieldsFit_cons hk ?_ fieldsFit_nil
    rw [hfield]
    exact ⟨e.toList, rfl⟩

end

theorem Rule.fits (r : Rule) : Fits Rule.shape r.toYaml := by
  refine fits_record (fieldsFit_append (fieldsFit_append (fieldsFit_append (fieldsFit_append
    (fieldsFit_append ?_ ?_) ?_) ?_) ?_) ?_)
  · exact fieldsFit_optionalField (by decide) rfl _
  · exact fieldsFit_optionalField (by decide) rfl _
  · refine fieldsFit_cons (by decide) ?_ fieldsFit_nil
    exact ⟨r.expr, rfl⟩
  · exact fieldsFit_optionalField (by decide) rfl _
  · exact fieldsFit_entriesField (by decide) rfl _
  · exact fieldsFit_entriesField (by decide) rfl _

theorem RuleGroup.fits (g : RuleGroup) : Fits (.record RuleGroup.shapeOf) g.toYaml := by
  have hrules : Fits (.list Rule.shape) (.list (g.rules.map Rule.toYaml)) := by
    refine ⟨_, rfl, fun n hn => ?_⟩
    obtain ⟨r, -, rfl⟩ := List.mem_map.1 hn
    exact r.fits
  refine fits_record (fieldsFit_cons (by decide) ?_
    (fieldsFit_cons (by decide) hrules fieldsFit_nil))
  exact ⟨g.name, rfl⟩

theorem RuleSpec.fits (s : RuleSpec) : Fits RuleSpec.shape s.toYaml := by
  have hgroups :
      Fits (.list (.record RuleGroup.shapeOf)) (.list (s.groups.map RuleGroup.toYaml)) := by
    refine ⟨_, rfl, fun n hn => ?_⟩
    obtain ⟨g, -, rfl⟩ := List.mem_map.1 hn
    exact g.fits
  exact fits_record (fieldsFit_cons (by decide) hgroups fieldsFit_nil)

theorem Metadata.fits (m : Metadata) : Fits Metadata.shape m.toYaml := by
  refine fits_record (fieldsFit_append (fieldsFit_append ?_ ?_) ?_)
  · cases m.labels with
    | none => exact fieldsFit_nil
    | some l =>
      refine fieldsFit_cons (by decide) ?_ fieldsFit_nil
      exact ⟨l.toList, rfl⟩
  · exact fieldsFit_optionalField (by decide) rfl _
  · exact fieldsFit_optionalField (by decide) rfl _

theorem PrometheusRule.fieldsFit (p : PrometheusRule) :
    FieldsFit PrometheusRule.shapeOf p.yamlFields := by
  refine fieldsFit_cons (by decide) ?_ (fieldsFit_cons (by decide) ?_ (fieldsFit_cons (by decide) ?_
    (fieldsFit_cons (by decide) ?_ fieldsFit_nil)))
  · exact ⟨_, rfl⟩
  · exact ⟨_, rfl⟩
  · exact p.metadata.fits
  · exact p.spec.fits

/-! ## Parts of a manifest in its tree -/

/-- The field of a tree under a name. -/
def Yaml.Node.field? (k : String) : Node → Option Node
  | .fields l => l.lookup k
  | _ => none

theorem lookup_optionalField (k k' : String) (v : Option String) :
    (optionalField k v).lookup k' = if k' = k then v.map .text else none := by
  cases v with
  | none => simp [optionalField]
  | some s => exact lookup_pair k k' (Node.text s)

theorem lookup_entriesField (k k' : String) (e : Entries) :
    (entriesField k e).lookup k' =
      if k' = k ∧ e.isEmpty = false then some (.entries e.toList) else none := by
  rw [entriesField]
  cases e.isEmpty <;> simp [lookup_pair]

theorem text_inj {s t : String} (h : some (Node.text s) = some (.text t)) : s = t :=
  Node.text.inj (Option.some.inj h)

theorem map_text_inj {v w : Option String} (h : v.map Node.text = w.map Node.text) : v = w :=
  (Option.map_inj_right fun _ _ => Node.text.inj).1 h

theorem entries_inj {e e' : Entries}
    (h : (if e.isEmpty = false then some (Node.entries e.toList) else none) =
      if e'.isEmpty = false then some (Node.entries e'.toList) else none) : e = e' := by
  split at h <;> split at h
  · exact Roster.toList_inj (Node.entries.inj (Option.some.inj h))
  · cases h
  · cases h
  · next he he' => rw [Roster.eq_empty he, Roster.eq_empty he']

/-- A rule is determined by its tree. -/
theorem Rule.toYaml_inj {r r' : Rule} (h : r.toYaml = r'.toYaml) : r = r' := by
  have hfield (k : String) := congrArg (Node.field? k) h
  simp only [toYaml, Node.field?, List.lookup_append, lookup_optionalField, lookup_entriesField,
    lookup_pair] at hfield
  have halert := map_text_inj (by simpa using hfield "alert")
  have hrecord := map_text_inj (by simpa using hfield "record")
  have hexpr := text_inj (by simpa using hfield "expr")
  have hfor := map_text_inj (by simpa using hfield "for")
  have hlabels := entries_inj (by simpa using hfield "labels")
  have hannotations := entries_inj (by simpa using hfield "annotations")
  obtain ⟨_, _, _, _, _, _⟩ := r
  obtain ⟨_, _, _, _, _, _⟩ := r'
  simp_all

/-- A group is determined by its tree. -/
theorem RuleGroup.toYaml_inj {g g' : RuleGroup} (h : g.toYaml = g'.toYaml) : g = g' := by
  obtain ⟨name, rules⟩ := g
  obtain ⟨name', rules'⟩ := g'
  simp only [toYaml, Node.fields.injEq, List.cons.injEq, Prod.mk.injEq, Node.text.injEq,
    Node.list.injEq, true_and, and_true] at h
  have hrules := (List.map_inj_right fun _ _ => Rule.toYaml_inj).1 h.2
  rw [h.1, hrules]

/-- The groups are determined by their tree. -/
theorem RuleSpec.toYaml_inj {s s' : RuleSpec} (h : s.toYaml = s'.toYaml) : s = s' := by
  obtain ⟨groups⟩ := s
  obtain ⟨groups'⟩ := s'
  simp only [toYaml, Node.fields.injEq, List.cons.injEq, Prod.mk.injEq, Node.list.injEq, true_and,
    and_true] at h
  rw [(List.map_inj_right fun _ _ => RuleGroup.toYaml_inj).1 h]

theorem Metadata.field?_toYaml (m : Metadata) (k : String) :
    m.toYaml.field? k =
      (if k = "labels" then m.labels.map fun l => Node.entries l.toList else none).or
        ((if k = "name" then m.name.map .text else none).or
          (if k = "namespace" then m.scope.map .text else none)) := by
  obtain ⟨name, scope, labels⟩ := m
  simp only [toYaml, Node.field?, List.lookup_append, lookup_optionalField, Option.or_assoc]
  congr 1
  cases labels with
  | none => simp
  | some l => exact lookup_pair "labels" k _

/-- Metadata are determined by their tree. -/
theorem Metadata.toYaml_inj {m m' : Metadata} (h : m.toYaml = m'.toYaml) : m = m' := by
  have hfield (k : String) := congrArg (Node.field? k) h
  simp only [field?_toYaml] at hfield
  have hname := map_text_inj (by simpa using hfield "name")
  have hscope := map_text_inj (by simpa using hfield "namespace")
  have hlabels := (Option.map_inj_right fun _ _ h => Roster.toList_inj (Node.entries.inj h)).1
    (by simpa using hfield "labels")
  obtain ⟨_, _, _⟩ := m
  obtain ⟨_, _, _⟩ := m'
  simp_all

/-- A manifest determines its rule: no two rules are rendered alike. -/
theorem PrometheusRule.renderYaml_inj {p q : PrometheusRule} :
    p.renderYaml = q.renderYaml ↔ p = q := by
  constructor
  · intro h
    have hlines := String.ofList_injective h
    have hend (ms : List (String × Node)) : Node.fieldLines 0 ms = Node.fieldLines 0 ms ++ [] :=
      (List.append_nil _).symm
    rw [hend, hend q.yamlFields] at hlines
    have hfields := (fieldLines_append_inj (fun k => determines (shapeOf k)) p.fieldsFit q.fieldsFit
      (.inl rfl) (.inl rfl) hlines).1
    simp only [yamlFields, List.cons.injEq, Prod.mk.injEq, true_and, and_true] at hfields
    have hmetadata := Metadata.toYaml_inj hfields.1
    have hspec := RuleSpec.toYaml_inj hfields.2
    cases p
    cases q
    simp_all
  · rintro rfl
    rfl

end OperatorRules
