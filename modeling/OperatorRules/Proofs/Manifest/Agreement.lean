import OperatorRules.Proofs.Json.Records
import OperatorRules.Proofs.Manifest.Data

/-!
# Rules from texts and from values

The text of a value is decoded to the same rules as the value itself, or neither is decoded; and
so is every respelling of the value (`ReadsAlike`). For each kind of rule it is enough that its
decoder respects respellings up to the order of members, which follows from what its fields
respect.
-/

namespace OperatorRules

open Json

/-! ## Texts and values -/

/-- A decoder makes the same of a value and of its texts, and the same of all spellings of a value.
What it makes of them is the same result, or an error each time. -/
structure ReadsAlike {α : Type} (read : Decoder α) (respelled : Value → Value → Prop) : Prop where
  compact_iff {v : Value} (hv : v.Distinct) (a : α) :
    decodeText read v.compactText = .ok a ↔ decodeValue read v = .ok a
  pretty_iff {v : Value} (hv : v.Distinct) (a : α) :
    decodeText read v.prettyText = .ok a ↔ decodeValue read v = .ok a
  respelled_iff {v w : Value} (hv : v.Distinct) (hw : respelled v w) (a : α) :
    decodeValue read w = .ok a ↔ decodeValue read v = .ok a
  compact_respelled_iff {v w : Value} (hv : v.Distinct) (hw : respelled v w) (a : α) :
    decodeText read w.compactText = .ok a ↔ decodeText read v.compactText = .ok a
  pretty_respelled_iff {v w : Value} (hv : v.Distinct) (hw : respelled v w) (a : α) :
    decodeText read w.prettyText = .ok a ↔ decodeText read v.prettyText = .ok a

theorem decodeValue_eq {α : Type} (read : Decoder α) (v : Value) :
    decodeValue read v = read .value (.laid .ok v.sorted) := by
  rw [decodeValue, Document.laid_ok]

/-- A decoder that respects respellings reads alike: a text shows the members as they stand, a value
in ascending order. -/
theorem Json.Respects.readsAlike {α : Type} {read : Decoder α} {R : Value → Value → Prop}
    (h : Respects (UpToOrder R) read) (hrefl : ∀ v, R v v) : ReadsAlike read R := by
  have htext {v w : Value} (hv : v.Distinct) (hw : R v w) (a : α) :
      read .text (.laid Number.reread v) = .ok a ↔ read .text (.laid Number.reread w) = .ok a :=
    (h.agree ⟨hv, w, id, hw, arranges_id, rfl⟩).ok_iff a
  have hvalue {v w : Value} (hv : v.Distinct) (hw : R v w) (a : α) :
      read .text (.laid Number.reread v) = .ok a ↔ decodeValue read w = .ok a := by
    rw [decodeValue_eq]
    exact (h.agree ⟨hv, w, _, hw, arranges_sorted, rfl⟩).ok_iff a
  constructor
  case compact_iff =>
    intro v hv a
    rw [decodeText_compactText_eq]
    exact hvalue hv (hrefl v) a
  case pretty_iff =>
    intro v hv a
    rw [decodeText_prettyText_eq]
    exact hvalue hv (hrefl v) a
  case respelled_iff =>
    intro v w hv hw a
    rw [← hvalue hv hw a, hvalue hv (hrefl v) a]
  case compact_respelled_iff =>
    intro v w hv hw a
    rw [decodeText_compactText_eq, decodeText_compactText_eq]
    exact (htext hv hw a).symm
  case pretty_respelled_iff =>
    intro v w hv hw a
    rw [decodeText_prettyText_eq, decodeText_prettyText_eq]
    exact (htext hv hw a).symm

/-! ## Alerts and recording rules -/

namespace AlertRule

/-- The spellings of an alert. -/
def Respells : Value → Value → Prop :=
  Json.Respells (fun _ => Eq) ["alert", "expr", "for", "annotations", "labels"]

theorem respells_refl (v : Value) : Respells v v := Json.Respells.refl (fun _ _ => rfl) _ v

theorem fieldsRespect : FieldsRespect (fun _ => UpToOrder Eq) fun _ => record.fields :=
  .cons respects_text <| .cons respects_text <| .cons respects_text? <|
    .cons respects_entries <| .cons respects_entries .nil

theorem respects_decode : Respects (UpToOrder Respells) decode := by
  refine ⟨fun {s s' num num' v u} h => ?_⟩
  refine (members_respect fieldsRespect (fun _ => rfl) (by decide) h s s').bind fun m m' hm => ?_
  refine (hm.required s s' respects_text).bind_eq fun name => ?_
  refine (hm.required s s' respects_text).bind_eq fun expr => ?_
  refine (hm.optional s s' respects_text? none).bind_eq fun holdFor => ?_
  refine (hm.optional s s' respects_entries ∅).bind_eq fun annotations => ?_
  refine (hm.optional s s' respects_entries ∅).bind_eq fun labels => ?_
  exact .ok rfl

end AlertRule

namespace RecordingRule

/-- The spellings of a recording rule. -/
def Respells : Value → Value → Prop :=
  Json.Respells (fun _ => Eq) ["name", "help", "type", "expr"]

theorem respells_refl (v : Value) : Respells v v := Json.Respells.refl (fun _ _ => rfl) _ v

theorem respects_type : Respects (UpToOrder Eq) MetricType.decode :=
  respects_choice MetricType.choices

theorem fieldsRespect : FieldsRespect (fun _ => UpToOrder Eq) fun s => (record s).fields :=
  .cons respects_text <| .cons respects_text <| .cons respects_type <| .cons respects_text .nil

theorem respects_decode : Respects (UpToOrder Respells) decode := by
  refine ⟨fun {s s' num num' v u} h => ?_⟩
  refine (members_respect fieldsRespect (fun _ => rfl) (by decide) h s s').bind fun m m' hm => ?_
  refine (hm.required s s' respects_text).bind_eq fun name => ?_
  refine (hm.required s s' respects_text).bind_eq fun help => ?_
  refine (hm.optional s s' respects_type .gauge).bind_eq fun metricType => ?_
  refine (hm.required s s' respects_text).bind_eq fun expr => ?_
  exact .ok rfl

end RecordingRule

/-! ## Rules in groups -/

namespace Rule

/-- The spellings of a rule. -/
def Respells : Value → Value → Prop :=
  Json.Respells (fun _ => Eq) ["alert", "record", "expr", "for", "labels", "annotations"]

theorem respells_refl (v : Value) : Respells v v := Json.Respells.refl (fun _ _ => rfl) _ v

theorem fieldsRespect : FieldsRespect (fun _ => UpToOrder Eq) fun _ => fields.fields :=
  .cons respects_text? <| .cons respects_text? <| .cons respects_text <|
    .cons respects_text? <| .cons respects_entries <| .cons respects_entries .nil

theorem respects_decode : Respects (UpToOrder Respells) decode := by
  refine ⟨fun {s s' num num' v u} h => ?_⟩
  refine (members_respect fieldsRespect (fun _ => rfl) (by decide) h s s').bind fun m m' hm => ?_
  refine (hm.optional s s' respects_text? none).bind_eq fun alert => ?_
  refine (hm.optional s s' respects_text? none).bind_eq fun record => ?_
  refine (hm.required s s' respects_text).bind_eq fun expr => ?_
  refine (hm.optional s s' respects_text? none).bind_eq fun holdFor => ?_
  refine (hm.optional s s' respects_entries ∅).bind_eq fun labels => ?_
  refine (hm.optional s s' respects_entries ∅).bind_eq fun annotations => ?_
  exact .ok rfl

end Rule

namespace RuleGroup

/-- The rules of a group may be respelled, its name may not. -/
def fieldRespells (key : String) : Value → Value → Prop :=
  if key = "rules" then Each Rule.Respells else Eq

/-- The spellings of a group. -/
def Respells : Value → Value → Prop := Json.Respells fieldRespells ["name", "rules"]

theorem fieldRespells_refl (key : String) (v : Value) : fieldRespells key v v := by
  rw [fieldRespells]
  split
  · exact Each.refl Rule.respells_refl v
  · rfl

theorem respells_refl (v : Value) : Respells v v := Json.Respells.refl fieldRespells_refl _ v

theorem respects_name : Respects (UpToOrder (fieldRespells "name")) fun _ => Document.text :=
  respects_text

theorem respects_rules :
    Respects (UpToOrder (fieldRespells "rules")) fun s => Document.list (Rule.decode s) :=
  respects_list Rule.respects_decode

theorem fieldsRespect :
    FieldsRespect (fun k => UpToOrder (fieldRespells k)) fun s => (record s).fields :=
  .cons respects_name <| .cons respects_rules .nil

theorem respects_decode : Respects (UpToOrder Respells) decode := by
  refine ⟨fun {s s' num num' v u} h => ?_⟩
  refine (members_respect fieldsRespect (fun _ => rfl) (by decide) h s s').bind fun m m' hm => ?_
  refine (hm.required s s' respects_name).bind_eq fun name => ?_
  refine (hm.required s s' respects_rules).bind_eq fun rules => ?_
  exact .ok rfl

end RuleGroup

namespace RuleSpec

/-- The groups may be respelled. -/
def fieldRespells (key : String) : Value → Value → Prop :=
  if key = "groups" then Each RuleGroup.Respells else Eq

/-- The spellings of groups. -/
def Respells : Value → Value → Prop := Json.Respells fieldRespells ["groups"]

theorem fieldRespells_refl (key : String) (v : Value) : fieldRespells key v v := by
  rw [fieldRespells]
  split
  · exact Each.refl RuleGroup.respells_refl v
  · rfl

theorem respells_refl (v : Value) : Respells v v := Json.Respells.refl fieldRespells_refl _ v

theorem respects_groups :
    Respects (UpToOrder (fieldRespells "groups")) fun s => Document.list (RuleGroup.decode s) :=
  respects_list RuleGroup.respects_decode

theorem fieldsRespect :
    FieldsRespect (fun k => UpToOrder (fieldRespells k)) fun s => (record s).fields :=
  .cons respects_groups .nil

theorem respects_decode : Respects (UpToOrder Respells) decode := by
  refine ⟨fun {s s' num num' v u} h => ?_⟩
  refine (members_respect fieldsRespect (fun _ => rfl) (by decide) h s s').bind fun m m' hm => ?_
  refine (hm.optional s s' respects_groups []).bind_eq fun groups => ?_
  exact .ok rfl

end RuleSpec

/-! ## All kinds of rules -/

/-- Rules, groups of them and the whole of the groups are decoded alike from a value and from its
texts, in whatever order the members of their objects stand and whatever else stands there. -/
theorem decoders_readAlike :
    ReadsAlike AlertRule.decode AlertRule.Respells ∧
    ReadsAlike RecordingRule.decode RecordingRule.Respells ∧
    ReadsAlike Rule.decode Rule.Respells ∧
    ReadsAlike RuleGroup.decode RuleGroup.Respells ∧
    ReadsAlike RuleSpec.decode RuleSpec.Respells := by
  refine ⟨?_, ?_, ?_, ?_, ?_⟩
  · exact AlertRule.respects_decode.readsAlike AlertRule.respells_refl
  · exact RecordingRule.respects_decode.readsAlike RecordingRule.respells_refl
  · exact Rule.respects_decode.readsAlike Rule.respells_refl
  · exact RuleGroup.respects_decode.readsAlike RuleGroup.respells_refl
  · exact RuleSpec.respects_decode.readsAlike RuleSpec.respells_refl

/-- A group with its members and those of its alert the other way round, and a note in the alert. -/
theorem decoders_readAlike_reordered :
    decodeText RuleGroup.decode (Value.object [("rules", .array [.object [
        ("expr", .string "up"), ("alert", .string "Down"), ("note", .array [.object []])]]),
      ("name", .string "a")]).compactText =
      .ok { name := "a", rules := [{ alert := some "Down", expr := "up" }] } := by
  have hnote : ∀ m ∈ [("note", Value.array [.object []])],
      m.1 ∉ ["alert", "record", "expr", "for", "labels", "annotations"] := by simp
  have halert : Rule.Respells (.object [("alert", .string "Down"), ("expr", .string "up")])
      (.object [("expr", .string "up"), ("alert", .string "Down"),
        ("note", .array [.object []])]) :=
    .object (List.forall₂_same.2 fun _ _ => ⟨rfl, rfl⟩) hnote (List.Perm.swap _ _ [_])
  have hmembers : Memberwise RuleGroup.fieldRespells
      [("name", .string "a"),
        ("rules", .array [.object [("alert", .string "Down"), ("expr", .string "up")]])]
      [("name", .string "a"), ("rules", .array [.object [("expr", .string "up"),
        ("alert", .string "Down"), ("note", .array [.object []])]])] :=
    .cons ⟨rfl, rfl⟩ (.cons ⟨rfl, Each.array (.cons halert .nil)⟩ .nil)
  have hrule : (Value.object [("alert", .string "Down"), ("expr", .string "up")]).Distinct :=
    .object (by simp) (by simp [Value.Distinct.string])
  have hdistinct : (Value.object [("name", .string "a"), ("rules", .array [.object
      [("alert", .string "Down"), ("expr", .string "up")]])]).Distinct :=
    .object (by simp) (by simp [Value.Distinct.string, Value.Distinct.array, hrule])
  obtain ⟨-, -, -, hgroups, -⟩ := decoders_readAlike
  refine (hgroups.compact_respelled_iff hdistinct ?_ _).2 ((hgroups.compact_iff hdistinct _).2 rfl)
  exact .object hmembers (List.forall_mem_nil _) (List.Perm.swap _ _ [])

end OperatorRules
