import OperatorRules.Manifest.Basic
import OperatorRules.Rule.Data

/-!
# Manifests as data

The JSON forms of rules in groups, of groups and of the whole resource, the definition of the
resource itself, and the decoders that read the former. A rule in a group shows only what it has;
the rule file is the pretty form of the groups.
-/

namespace OperatorRules

open Json

/-- A member that is left out if there are no entries. -/
def Json.entriesMember (key : String) (e : Entries) : List (String × Value) :=
  if e.isEmpty then [] else [(key, .ofEntries e)]

namespace Rule

def toJson (r : Rule) : Value :=
  .object (optionalMember "alert" r.alert ++ optionalMember "record" r.record ++
    [("expr", .string r.expr)] ++ optionalMember "for" r.holdFor ++
    entriesMember "labels" r.labels ++ entriesMember "annotations" r.annotations)

def fields : Record where
  name := "Rule"
  fields := [.of "alert" Document.text?, .of "record" Document.text?, .of "expr" Document.text,
    .of "for" Document.text?, .of "labels" Document.entries,
    .of "annotations" Document.entries]

def decode : Decoder Rule := fun source d => do
  let m ← fields.members source d
  let alert ← m.optional "alert" Document.text? none
  let record ← m.optional "record" Document.text? none
  let expr ← m.required "expr" Document.text
  let holdFor ← m.optional "for" Document.text? none
  let labels ← m.optional "labels" Document.entries ∅
  let annotations ← m.optional "annotations" Document.entries ∅
  return { alert, record, expr, holdFor, labels, annotations }

end Rule

namespace RuleGroup

def toJson (g : RuleGroup) : Value :=
  .object [("name", .string g.name), ("rules", .array (g.rules.map Rule.toJson))]

def record (source : Source) : Record where
  name := "RuleGroup"
  fields := [.of "name" Document.text, .of "rules" (Document.list (Rule.decode source))]

def decode : Decoder RuleGroup := fun source d => do
  let m ← (record source).members source d
  let name ← m.required "name" Document.text
  let rules ← m.required "rules" (Document.list (Rule.decode source))
  return { name, rules }

end RuleGroup

namespace RuleSpec

def toJson (s : RuleSpec) : Value := .object [("groups", .array (s.groups.map RuleGroup.toJson))]

/-- The rule file. -/
def ruleFile (s : RuleSpec) : String := s.toJson.prettyText

def record (source : Source) : Record where
  name := "PrometheusRuleSpec"
  fields := [.of "groups" (Document.list (RuleGroup.decode source))]

/-- Decodes groups; there are none where none are given. -/
def decode : Decoder RuleSpec := fun source d => do
  let m ← (record source).members source d
  let groups ← m.optional "groups" (Document.list (RuleGroup.decode source)) []
  return { groups }

end RuleSpec

namespace Metadata

def toJson (m : Metadata) : Value :=
  .object ((match m.labels with
      | some l => [("labels", .ofEntries l)]
      | none => []) ++
    optionalMember "name" m.name ++ optionalMember "namespace" m.scope)

def record : Record where
  name := "ObjectMeta"
  fields := [.of "labels" (Document.nullable Document.entries), .of "name" Document.text?,
    .of "namespace" Document.text?]

/-- Decodes metadata, which are given as an object; a key that repeats counts the last time. -/
def decode : Decoder Metadata := fun _ d => do
  let m ← record.looseMembers d
  let labels ← m.optional "labels" (Document.nullable Document.entries) none
  let name ← m.optional "name" Document.text? none
  let scope ← m.optional "namespace" Document.text? none
  return { name, scope, labels }

end Metadata

namespace PrometheusRule

def apiGroup : String := "monitoring.coreos.com"

def apiVersion : String := "v1"

def qualifiedVersion : String := apiGroup ++ "/" ++ apiVersion

def kind : String := "PrometheusRule"

def plural : String := "prometheusrules"

def definitionName : String := plural ++ "." ++ apiGroup

def toJson (p : PrometheusRule) : Value :=
  .object [("apiVersion", .string qualifiedVersion), ("kind", .string kind),
    ("metadata", p.metadata.toJson), ("spec", p.spec.toJson)]

/-- The fields of the resource; its version and its kind are not looked at. -/
def record (source : Source) : Record where
  name := "PrometheusRule"
  fields := [.of "metadata" (Metadata.decode source), .of "spec" (RuleSpec.decode source)]

def decode : Decoder PrometheusRule := fun source d => do
  let m ← (record source).members source d
  let metadata ← m.required "metadata" (Metadata.decode source)
  let spec ← m.required "spec" (RuleSpec.decode source)
  return { metadata, spec }

end PrometheusRule

end OperatorRules
