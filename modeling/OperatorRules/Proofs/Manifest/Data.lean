import OperatorRules.Proofs.Json.Decoder

/-!
# Data and back

Whatever is written as JSON is decoded to itself: each record in turn on the value laid out as a
document, and with the reader of pages on its texts. `decodeText_toJson` puts the kinds of data
together.
-/

namespace OperatorRules

open Json

/-! ## From texts to documents -/

/-- Any text of a document is decoded as that document. -/
theorem decodeText_written {α : Type} (read : Decoder α) {d : Document} {t : List Char}
    (ht : Json.Written (.document d) t) : decodeText read (String.ofList t) = read .text d := by
  rw [decodeText, String.toList_ofList, ht.page]
  exact bind_pure _

section
variable {α : Type} (read : Decoder α) (v : Value)

theorem decodeText_compactText_eq :
    decodeText read v.compactText = read .text (.laid Number.reread v) :=
  decodeText_written read (written_compact v)

theorem decodeText_prettyText_eq :
    decodeText read v.prettyText = read .text (.laid Number.reread v) :=
  decodeText_written read (written_prettyAt v 0)

end

theorem decodeText_compactText {α : Type} {read : Decoder α} {v : Value} {a : α}
    (hread : read .text (.ofValue v) = .ok a) (hv : v.Numberless) :
    decodeText read v.compactText = .ok a := by
  rw [decodeText_compactText_eq, laid_of_numberless _ v hv, hread]

theorem decodeText_prettyText {α : Type} {read : Decoder α} {v : Value} {a : α}
    (hread : read .text (.ofValue v) = .ok a) (hv : v.Numberless) :
    decodeText read v.prettyText = .ok a := by
  rw [decodeText_prettyText_eq, laid_of_numberless _ v hv, hread]

/-! ## Alerts -/

namespace AlertRule
variable (a : AlertRule)

theorem conforms :
    Conforms record ["alert", "expr", "for", "annotations", "labels"] a.toJson.members := by
  have hannotations := entries_ofEntries a.annotations
  have hlabels := entries_ofEntries a.labels
  simp only [toJson, Value.members, List.cons_append, List.nil_append]
  exact .member (takes_field rfl rfl) (.member (takes_field rfl rfl) (.optionalMember rfl _
    (.member (takes_field rfl hannotations) (.member (takes_field rfl hlabels) .nil))))

theorem lookup_members (k : String) : a.toJson.members.lookup k =
    if k = "alert" then some (.string a.name)
    else if k = "expr" then some (.string a.expr)
    else (if k = "for" then a.holdFor.map .string else none).or
      (if k = "annotations" then some (.ofEntries a.annotations)
      else if k = "labels" then some (.ofEntries a.labels) else none) := by
  simp [toJson, Value.members, List.lookup_append, lookup_cons_ite, lookup_optionalMember]

theorem decode_ofValue (source : Source) : decode source (.ofValue a.toJson) = .ok a := by
  obtain ⟨m, hm, hfinds⟩ := members_ofValue record source (by decide) a.conforms
  have hname : m.required "alert" Document.text = .ok a.name :=
    hfinds.required rfl (a.lookup_members "alert") rfl
  have hexpr : m.required "expr" Document.text = .ok a.expr :=
    hfinds.required rfl (a.lookup_members "expr") rfl
  have hfor : m.optional "for" Document.text? none = .ok a.holdFor :=
    hfinds.optional_text? rfl (by simp [lookup_members])
  have hannotations : m.optional "annotations" Document.entries ∅ = .ok a.annotations :=
    hfinds.optional rfl (a.lookup_members "annotations") (entries_ofEntries a.annotations) ∅
  have hlabels : m.optional "labels" Document.entries ∅ = .ok a.labels :=
    hfinds.optional rfl (a.lookup_members "labels") (entries_ofEntries a.labels) ∅
  have hrecord : record.members source (.ofValue a.toJson) = .ok m := hm
  simp only [decode, hrecord, hname, hexpr, hfor, hannotations, hlabels, Except.ok_bind]
  rfl

end AlertRule

/-! ## Recording rules and problems -/

theorem MetricType.decode_ofValue (source : Source) (t : MetricType) :
    decode source (.ofValue t.toJson) = .ok t := by
  cases t <;> cases source <;> rfl

namespace RecordingRule
variable (r : RecordingRule)

theorem conforms (source : Source) :
    Conforms (record source) ["name", "help", "type", "expr"] r.toJson.members := by
  have htype := MetricType.decode_ofValue source r.metricType
  exact .member (takes_field rfl rfl) (.member (takes_field rfl rfl)
    (.member (takes_field rfl htype) (.member (takes_field rfl rfl) .nil)))

theorem decode_ofValue (source : Source) : decode source (.ofValue r.toJson) = .ok r := by
  obtain ⟨m, hm, hfinds⟩ := members_ofValue (record source) source (by decide) (r.conforms source)
  have hname : m.required "name" Document.text = .ok r.name := hfinds.required rfl rfl rfl
  have hhelp : m.required "help" Document.text = .ok r.help := hfinds.required rfl rfl rfl
  have htype : m.optional "type" (MetricType.decode source) .gauge = .ok r.metricType :=
    hfinds.optional rfl rfl (MetricType.decode_ofValue source r.metricType) .gauge
  have hexpr : m.required "expr" Document.text = .ok r.expr := hfinds.required rfl rfl rfl
  have hrecord : (record source).members source (.ofValue r.toJson) = .ok m := hm
  simp only [decode, hrecord, hname, hhelp, htype, hexpr, Except.ok_bind]
  rfl

end RecordingRule

namespace Problem
variable (p : Problem)

theorem conforms : Conforms record ["rule", "message"] p.toJson.members :=
  .member (takes_field rfl rfl) (.member (takes_field rfl rfl) .nil)

theorem decode_ofValue (source : Source) : decode source (.ofValue p.toJson) = .ok p := by
  obtain ⟨m, hm, hfinds⟩ := members_ofValue record source (by decide) p.conforms
  have hrule : m.required "rule" Document.text = .ok p.rule := hfinds.required rfl rfl rfl
  have hmessage : m.required "message" Document.text = .ok p.message := hfinds.required rfl rfl rfl
  have hrecord : record.members source (.ofValue p.toJson) = .ok m := hm
  simp only [decode, hrecord, hrule, hmessage, Except.ok_bind]
  rfl

end Problem

/-! ## Groups of rules -/

namespace Rule
variable (r : Rule)

theorem conforms :
    Conforms fields ["alert", "record", "expr", "for", "labels", "annotations"]
      r.toJson.members := by
  rw [← List.append_nil r.toJson.members]
  simp only [toJson, Value.members, List.append_assoc, List.cons_append, List.nil_append]
  exact .optionalMember rfl _ (.optionalMember rfl _ (.member (takes_field rfl rfl)
    (.optionalMember rfl _ (.entriesMember rfl _ (.entriesMember rfl _ .nil)))))

theorem lookup_members (k : String) : r.toJson.members.lookup k =
    (if k = "alert" then r.alert.map .string else none).or
      ((if k = "record" then r.record.map .string else none).or
        ((if k = "expr" then some (.string r.expr) else none).or
          ((if k = "for" then r.holdFor.map .string else none).or
            ((if k = "labels" ∧ r.labels.isEmpty = false then some (.ofEntries r.labels)
              else none).or
              (if k = "annotations" ∧ r.annotations.isEmpty = false
                then some (.ofEntries r.annotations) else none))))) := by
  simp only [toJson, Value.members, List.lookup_append, lookup_pair, lookup_optionalMember,
    lookup_entriesMember, Option.or_assoc]

theorem decode_ofValue (source : Source) : decode source (.ofValue r.toJson) = .ok r := by
  obtain ⟨m, hm, hfinds⟩ := members_ofValue fields source (by decide) r.conforms
  have halert : m.optional "alert" Document.text? none = .ok r.alert :=
    hfinds.optional_text? rfl (by simp [lookup_members])
  have hrecord : m.optional "record" Document.text? none = .ok r.record :=
    hfinds.optional_text? rfl (by simp [lookup_members])
  have hexpr : m.required "expr" Document.text = .ok r.expr :=
    hfinds.required (v := .string r.expr) rfl (by simp [lookup_members]) rfl
  have hfor : m.optional "for" Document.text? none = .ok r.holdFor :=
    hfinds.optional_text? rfl (by simp [lookup_members])
  have hlabels : m.optional "labels" Document.entries ∅ = .ok r.labels :=
    hfinds.optional_entries rfl (by simp [lookup_members])
  have hannotations : m.optional "annotations" Document.entries ∅ = .ok r.annotations :=
    hfinds.optional_entries rfl (by simp [lookup_members])
  have hfields : fields.members source (.ofValue r.toJson) = .ok m := hm
  simp only [decode, hfields, halert, hrecord, hexpr, hfor, hlabels, hannotations, Except.ok_bind]
  rfl

end Rule

namespace RuleGroup
variable (g : RuleGroup) (source : Source)

theorem decode_ofValue : decode source (.ofValue g.toJson) = .ok g := by
  have hlist := list_ofValue (fun r : Rule => r.decode_ofValue source) g.rules
  have hconforms : Conforms (record source) ["name", "rules"] g.toJson.members :=
    .member (takes_field rfl rfl) (.member (takes_field rfl hlist) .nil)
  obtain ⟨m, hm, hfinds⟩ := members_ofValue (record source) source (by decide) hconforms
  have hname : m.required "name" Document.text = .ok g.name := hfinds.required rfl rfl rfl
  have hrules : m.required "rules" (Document.list (Rule.decode source)) = .ok g.rules :=
    hfinds.required rfl rfl hlist
  have hrecord : (record source).members source (.ofValue g.toJson) = .ok m := hm
  simp only [decode, hrecord, hname, hrules, Except.ok_bind]
  rfl

end RuleGroup

namespace RuleSpec
variable (s : RuleSpec) (source : Source)

theorem decode_ofValue : decode source (.ofValue s.toJson) = .ok s := by
  have hlist := list_ofValue (fun g : RuleGroup => g.decode_ofValue source) s.groups
  have hconforms : Conforms (record source) ["groups"] s.toJson.members :=
    .member (takes_field rfl hlist) .nil
  obtain ⟨m, hm, hfinds⟩ := members_ofValue (record source) source (by decide) hconforms
  have hgroups : m.optional "groups" (Document.list (RuleGroup.decode source)) [] = .ok s.groups :=
    hfinds.optional rfl rfl hlist []
  have hrecord : (record source).members source (.ofValue s.toJson) = .ok m := hm
  simp only [decode, hrecord, hgroups, Except.ok_bind]
  rfl

end RuleSpec

/-! ## Manifests -/

namespace Metadata
variable (m : Metadata)

theorem nullable_entries (e : Entries) :
    Document.nullable Document.entries (.ofValue (.ofEntries e)) = .ok (some e) := by
  show (Document.entries (.ofValue (.ofEntries e))).map some = _
  rw [entries_ofEntries]
  rfl

theorem conforms : Conforms record ["labels", "name", "namespace"] m.toJson.members := by
  have hrest : Conforms record ["name", "namespace"]
      (optionalMember "name" m.name ++ optionalMember "namespace" m.scope) := by
    rw [← List.append_nil (optionalMember "namespace" m.scope)]
    exact .optionalMember rfl _ (.optionalMember rfl _ .nil)
  obtain ⟨name, scope, labels⟩ := m
  simp only [toJson, Value.members, List.append_assoc]
  cases labels with
  | none => exact hrest.absent
  | some l => exact hrest.member (takes_field rfl (nullable_entries l))

theorem lookup_members (k : String) : m.toJson.members.lookup k =
    (if k = "labels" then m.labels.map .ofEntries else none).or
      ((if k = "name" then m.name.map .string else none).or
        (if k = "namespace" then m.scope.map .string else none)) := by
  obtain ⟨name, scope, labels⟩ := m
  simp only [toJson, Value.members, List.lookup_append, lookup_optionalMember, Option.or_assoc]
  congr 1
  cases labels with
  | none => simp
  | some l => exact lookup_pair "labels" k _

theorem decode_ofValue (source : Source) : decode source (.ofValue m.toJson) = .ok m := by
  obtain ⟨found, hfound, hfinds⟩ := looseMembers_ofValue record (by decide) m.conforms
  have hname : found.optional "name" Document.text? none = .ok m.name :=
    hfinds.optional_text? rfl (by simp [lookup_members])
  have hscope : found.optional "namespace" Document.text? none = .ok m.scope :=
    hfinds.optional_text? rfl (by simp [lookup_members])
  have hlabels :
      found.optional "labels" (Document.nullable Document.entries) none = .ok m.labels := by
    have hlookup := hfinds "labels" rfl
    rw [lookup_members] at hlookup
    rw [Members.optional, hlookup]
    cases hl : m.labels with
    | none => simp
    | some l => exact nullable_entries l
  have hrecord : record.looseMembers (.ofValue m.toJson) = .ok found := hfound
  simp only [decode, hrecord, hname, hscope, hlabels, Except.ok_bind]
  rfl

end Metadata

namespace PrometheusRule
variable (p : PrometheusRule)

theorem decode_ofValue (source : Source) : decode source (.ofValue p.toJson) = .ok p := by
  have hmetadata := p.metadata.decode_ofValue source
  have hspec := p.spec.decode_ofValue source
  have hconforms : Conforms (record source) ["apiVersion", "kind", "metadata", "spec"]
      p.toJson.members := by
    refine .member ?_ (.member ?_ (.member (takes_field rfl hmetadata)
      (.member (takes_field rfl hspec) .nil)))
    · exact (rfl : Document.skip (.ofValue (.string qualifiedVersion)) = .ok ())
    · exact (rfl : Document.skip (.ofValue (.string kind)) = .ok ())
  obtain ⟨m, hm, hfinds⟩ := members_ofValue (record source) source (by decide) hconforms
  have hrequired : m.required "metadata" (Metadata.decode source) = .ok p.metadata :=
    hfinds.required rfl rfl hmetadata
  have hrequired' : m.required "spec" (RuleSpec.decode source) = .ok p.spec :=
    hfinds.required rfl rfl hspec
  have hrecord : (record source).members source (.ofValue p.toJson) = .ok m := hm
  simp only [decode, hrecord, hrequired, hrequired', Except.ok_bind]
  rfl

end PrometheusRule

/-! ## No numbers -/

open Value

theorem numberless_optionalMember (k : String) (v : Option String) :
    MembersNumberless (optionalMember k v) := by
  cases v with
  | none => trivial
  | some s => exact ⟨trivial, trivial⟩

theorem numberless_entriesMember (k : String) (e : Entries) :
    MembersNumberless (entriesMember k e) := by
  rw [entriesMember]
  split
  · trivial
  · exact ⟨numberless_ofEntries e, trivial⟩

theorem AlertRule.numberless (a : AlertRule) : a.toJson.Numberless := by
  refine membersNumberless_append (membersNumberless_append ⟨trivial, trivial, trivial⟩ ?_) ?_
  · exact numberless_optionalMember "for" a.holdFor
  · exact ⟨numberless_ofEntries a.annotations, numberless_ofEntries a.labels, trivial⟩

theorem RecordingRule.numberless (r : RecordingRule) : r.toJson.Numberless :=
  ⟨trivial, trivial, trivial, trivial, trivial⟩

theorem Problem.numberless (p : Problem) : p.toJson.Numberless := ⟨trivial, trivial, trivial⟩

theorem Rule.numberless (r : Rule) : r.toJson.Numberless := by
  refine membersNumberless_append (membersNumberless_append (membersNumberless_append
    (membersNumberless_append (membersNumberless_append ?_ ?_) ⟨trivial, trivial⟩) ?_) ?_) ?_
  · exact numberless_optionalMember "alert" r.alert
  · exact numberless_optionalMember "record" r.record
  · exact numberless_optionalMember "for" r.holdFor
  · exact numberless_entriesMember "labels" r.labels
  · exact numberless_entriesMember "annotations" r.annotations

theorem RuleGroup.numberless (g : RuleGroup) : g.toJson.Numberless :=
  ⟨trivial, itemsNumberless_map Rule.numberless g.rules, trivial⟩

theorem RuleSpec.numberless (s : RuleSpec) : s.toJson.Numberless :=
  ⟨itemsNumberless_map RuleGroup.numberless s.groups, trivial⟩

theorem Metadata.numberless (m : Metadata) : m.toJson.Numberless := by
  refine membersNumberless_append (membersNumberless_append ?_ ?_) ?_
  · cases m.labels with
    | none => trivial
    | some l => exact ⟨numberless_ofEntries l, trivial⟩
  · exact numberless_optionalMember "name" m.name
  · exact numberless_optionalMember "namespace" m.scope

theorem PrometheusRule.numberless (p : PrometheusRule) : p.toJson.Numberless :=
  ⟨trivial, trivial, p.metadata.numberless, p.spec.numberless, trivial⟩

/-- Every kind of data decodes from its JSON text to itself, from the compact text as well as from
the pretty one of the rule file. -/
theorem decodeText_toJson :
    (∀ a : AlertRule, decodeText AlertRule.decode a.toJson.compactText = .ok a) ∧
    (∀ r : RecordingRule, decodeText RecordingRule.decode r.toJson.compactText = .ok r) ∧
    (∀ r : Rule, decodeText Rule.decode r.toJson.compactText = .ok r) ∧
    (∀ g : RuleGroup, decodeText RuleGroup.decode g.toJson.compactText = .ok g) ∧
    (∀ s : RuleSpec, decodeText RuleSpec.decode s.toJson.compactText = .ok s ∧
      decodeText RuleSpec.decode s.ruleFile = .ok s) ∧
    (∀ p : Problem, decodeText Problem.decode p.toJson.compactText = .ok p) ∧
    (∀ p : PrometheusRule, decodeText PrometheusRule.decode p.toJson.compactText = .ok p) := by
  refine ⟨fun a => ?_, fun r => ?_, fun r => ?_, fun g => ?_, fun s => ⟨?_, ?_⟩, fun p => ?_,
    fun p => ?_⟩
  · exact decodeText_compactText (a.decode_ofValue .text) a.numberless
  · exact decodeText_compactText (r.decode_ofValue .text) r.numberless
  · exact decodeText_compactText (r.decode_ofValue .text) r.numberless
  · exact decodeText_compactText (g.decode_ofValue .text) g.numberless
  · exact decodeText_compactText (s.decode_ofValue .text) s.numberless
  · exact decodeText_prettyText (s.decode_ofValue .text) s.numberless
  · exact decodeText_compactText (p.decode_ofValue .text) p.numberless
  · exact decodeText_compactText (p.decode_ofValue .text) p.numberless

end OperatorRules
