import OperatorRules.Manifest.Yaml
import OperatorRules.Proofs.Yaml.Pieces

/-!
# The scalars of a manifest

A manifest is written as marks and as the scalars of its keys and values, in order; each of them
reads back as its text, and stands plain only if it can be taken for nothing else.
-/

namespace OperatorRules

open Yaml

/-! ## Keys and values -/

/-- The texts of a field that is left out if there is no text. -/
def optionalTexts (key : String) : Option String → List String
  | some s => [key, s]
  | none => []

/-- The texts of a field that is left out if there are no entries. -/
def entriesFieldTexts (key : String) (e : Entries) : List String :=
  if e.isEmpty then [] else key :: entriesTexts e.toList

/-- The keys and values of a rule. -/
def Rule.texts (r : Rule) : List String :=
  optionalTexts "alert" r.alert ++ optionalTexts "record" r.record ++ ["expr", r.expr] ++
    optionalTexts "for" r.holdFor ++ entriesFieldTexts "labels" r.labels ++
    entriesFieldTexts "annotations" r.annotations

/-- The keys and values of a group. -/
def RuleGroup.texts (g : RuleGroup) : List String :=
  ["name", g.name, "rules"] ++ g.rules.flatMap Rule.texts

/-- The keys and values of metadata. -/
def Metadata.texts (m : Metadata) : List String :=
  (match m.labels with
    | some l => "labels" :: entriesTexts l.toList
    | none => []) ++
    optionalTexts "name" m.name ++ optionalTexts "namespace" m.scope

namespace PrometheusRule

/-- The keys and values of a manifest. -/
def texts (p : PrometheusRule) : List String :=
  ["apiVersion", qualifiedVersion, "kind", kind, "metadata"] ++ p.metadata.texts ++
    ["spec", "groups"] ++ p.spec.groups.flatMap RuleGroup.texts

/-- The pieces of a written manifest. -/
def pieces (p : PrometheusRule) : List Piece := Node.fieldPieces 0 p.yamlFields

end PrometheusRule

/-! ## The texts of the tree -/

theorem fieldTexts_append (l l' : List (String × Node)) :
    Node.fieldTexts (l ++ l') = Node.fieldTexts l ++ Node.fieldTexts l' := by
  induction l with
  | nil => rfl
  | cons m l ih => simp [Node.fieldTexts, ih]

theorem fieldTexts_optionalField (key : String) (v : Option String) :
    Node.fieldTexts (optionalField key v) = optionalTexts key v := by
  cases v <;> rfl

theorem fieldTexts_entriesField (key : String) (e : Entries) :
    Node.fieldTexts (entriesField key e) = entriesFieldTexts key e := by
  rw [entriesField, entriesFieldTexts]
  split
  · rfl
  · exact congrArg (key :: ·) (List.append_nil _)

theorem itemTexts_map {α : Type} (f : α → Node) (l : List α) :
    Node.itemTexts (l.map f) = l.flatMap fun a => (f a).texts := by
  induction l with
  | nil => rfl
  | cons a l ih => simp [Node.itemTexts, ih]

theorem Rule.texts_toYaml (r : Rule) : r.toYaml.texts = r.texts := by
  simp only [toYaml, Node.texts, fieldTexts_append, fieldTexts_optionalField,
    fieldTexts_entriesField, texts]
  rfl

theorem RuleGroup.texts_toYaml (g : RuleGroup) : g.toYaml.texts = g.texts := by
  simp [toYaml, Node.texts, Node.fieldTexts, itemTexts_map, Rule.texts_toYaml, texts]

theorem RuleSpec.texts_toYaml (s : RuleSpec) :
    s.toYaml.texts = "groups" :: s.groups.flatMap RuleGroup.texts := by
  simp [toYaml, Node.texts, Node.fieldTexts, itemTexts_map, RuleGroup.texts_toYaml]

theorem Metadata.texts_toYaml (m : Metadata) : m.toYaml.texts = m.texts := by
  rw [toYaml, texts, Node.texts, fieldTexts_append, fieldTexts_append, fieldTexts_optionalField,
    fieldTexts_optionalField]
  cases m.labels with
  | none => rfl
  | some l => simp [Node.fieldTexts, Node.texts]

theorem PrometheusRule.fieldTexts_yamlFields (p : PrometheusRule) :
    Node.fieldTexts p.yamlFields = p.texts := by
  simp [yamlFields, Node.fieldTexts, Node.texts, Metadata.texts_toYaml, RuleSpec.texts_toYaml,
    texts]

/-! ## The names of fields -/

/-- All names of these fields and in their trees may stand plain. -/
def PlainFields (l : List (String × Node)) : Prop :=
  (∀ m ∈ l, IsPlainName m.1) ∧ ∀ m ∈ l, PlainlyNamed m.2

namespace PlainFields

variable {k : String} {l l' : List (String × Node)}

theorem nil : PlainFields [] := ⟨by simp, by simp⟩

theorem append (h : PlainFields l) (h' : PlainFields l') : PlainFields (l ++ l') :=
  ⟨List.forall_mem_append.2 ⟨h.1, h'.1⟩, List.forall_mem_append.2 ⟨h.2, h'.2⟩⟩

theorem cons (hk : IsPlainName k) {n : Node} (hn : PlainlyNamed n) (h : PlainFields l) :
    PlainFields ((k, n) :: l) :=
  ⟨List.forall_mem_cons.2 ⟨hk, h.1⟩, List.forall_mem_cons.2 ⟨hn, h.2⟩⟩

theorem optionalField (hk : IsPlainName k) (v : Option String) :
    PlainFields (Yaml.optionalField k v) := by
  cases v with
  | none => exact nil
  | some s => exact cons hk (.text s) nil

theorem entriesField (hk : IsPlainName k) (e : Entries) :
    PlainFields (Yaml.entriesField k e) := by
  rw [Yaml.entriesField]
  split
  · exact nil
  · exact cons hk (.entries _) nil

end PlainFields

theorem Rule.plainlyNamed_toYaml (r : Rule) : PlainlyNamed r.toYaml := by
  have halert : IsPlainName "alert" := by decide
  have hrecord : IsPlainName "record" := by decide
  have hexpr : IsPlainName "expr" := by decide
  have hfor : IsPlainName "for" := by decide
  have hlabels : IsPlainName "labels" := by decide
  have hannotations : IsPlainName "annotations" := by decide
  have h := (((((PlainFields.optionalField halert r.alert).append
    (.optionalField hrecord r.record)).append (.cons hexpr (.text r.expr) .nil)).append
    (.optionalField hfor r.holdFor)).append (.entriesField hlabels r.labels)).append
    (.entriesField hannotations r.annotations)
  exact .fields h.1 h.2

theorem RuleGroup.plainlyNamed_toYaml (g : RuleGroup) : PlainlyNamed g.toYaml := by
  have hrules : PlainlyNamed (.list (g.rules.map Rule.toYaml)) :=
    .list (List.forall_mem_map.2 fun r _ => r.plainlyNamed_toYaml)
  have h : PlainFields [("name", .text g.name), ("rules", .list (g.rules.map Rule.toYaml))] :=
    .cons (by decide) (.text g.name) (.cons (by decide) hrules .nil)
  exact .fields h.1 h.2

theorem RuleSpec.plainlyNamed_toYaml (s : RuleSpec) : PlainlyNamed s.toYaml := by
  have hgroups : PlainlyNamed (.list (s.groups.map RuleGroup.toYaml)) :=
    .list (List.forall_mem_map.2 fun g _ => g.plainlyNamed_toYaml)
  have h : PlainFields [("groups", .list (s.groups.map RuleGroup.toYaml))] :=
    .cons (by decide) hgroups .nil
  exact .fields h.1 h.2

theorem Metadata.plainlyNamed_toYaml (m : Metadata) : PlainlyNamed m.toYaml := by
  have hlabels : PlainFields (match m.labels with
      | some l => [("labels", .entries l.toList)]
      | none => []) := by
    cases m.labels with
    | none => exact .nil
    | some l => exact .cons (by decide) (.entries _) .nil
  have hname : IsPlainName "name" := by decide
  have hnamespace : IsPlainName "namespace" := by decide
  have h := (hlabels.append (.optionalField hname m.name)).append (.optionalField hnamespace m.scope)
  exact .fields h.1 h.2

namespace PrometheusRule

theorem plainFields_yamlFields (p : PrometheusRule) : PlainFields p.yamlFields :=
  .cons (by decide) (.text _) (.cons (by decide) (.text _)
    (.cons (by decide) p.metadata.plainlyNamed_toYaml
      (.cons (by decide) p.spec.plainlyNamed_toYaml .nil)))

/-- What is written of a manifest are marks and the scalars of its keys and values. A scalar, with
or without the end of its line and at every column, reads back as its text by the rules of the style
that it shows, and it shows no quotes only if it may stand plain. -/
theorem renderYaml_scalars :
    (∀ p : PrometheusRule, Shows p.pieces p.renderYaml.toList p.texts) ∧
      ∀ (column : Nat) (s : String),
        (Piece.key column s).Faithful s ∧ (Piece.lines column s).Faithful s := by
  refine ⟨fun p => ?_, fun column s => ⟨Piece.faithful rfl, Piece.faithful rfl⟩⟩
  obtain ⟨hk, h⟩ := p.plainFields_yamlFields
  have hshows := shows_fieldPieces hk (fun m hm => shown_of_plainlyNamed (h m hm)) 0
  rw [fieldTexts_yamlFields] at hshows
  rw [renderYaml, String.toList_ofList]
  exact hshows

/-- Text that looks like a number is a text. -/
example : (Piece.lines 8 "-0x10").text = "'-0x10'\n".toList := by decide

end PrometheusRule

end OperatorRules
