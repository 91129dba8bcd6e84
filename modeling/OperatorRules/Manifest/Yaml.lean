import OperatorRules.Manifest.Data
import OperatorRules.Yaml.Node

/-!
# Manifests in YAML

The tree of a manifest and its text. Every value in it is a text; what is absent is left out.
-/

namespace OperatorRules

open Yaml

/-- A field that is left out if there is no text. -/
def Yaml.optionalField (key : String) : Option String → List (String × Node)
  | some s => [(key, .text s)]
  | none => []

def Yaml.entriesField (key : String) (e : Entries) : List (String × Node) :=
  if e.isEmpty then [] else [(key, .entries e.toList)]

def Rule.toYaml (r : Rule) : Node :=
  .fields (optionalField "alert" r.alert ++ optionalField "record" r.record ++
    [("expr", .text r.expr)] ++ optionalField "for" r.holdFor ++ entriesField "labels" r.labels ++
    entriesField "annotations" r.annotations)

def RuleGroup.toYaml (g : RuleGroup) : Node :=
  .fields [("name", .text g.name), ("rules", .list (g.rules.map Rule.toYaml))]

def RuleSpec.toYaml (s : RuleSpec) : Node :=
  .fields [("groups", .list (s.groups.map RuleGroup.toYaml))]

def Metadata.toYaml (m : Metadata) : Node :=
  .fields ((match m.labels with
      | some l => [("labels", .entries l.toList)]
      | none => []) ++
    optionalField "name" m.name ++ optionalField "namespace" m.scope)

/-- The fields of a manifest. -/
def PrometheusRule.yamlFields (p : PrometheusRule) : List (String × Node) :=
  [("apiVersion", .text qualifiedVersion), ("kind", .text kind),
    ("metadata", p.metadata.toYaml), ("spec", p.spec.toYaml)]

def PrometheusRule.renderYaml (p : PrometheusRule) : String :=
  String.ofList (Node.fieldLines 0 p.yamlFields)

end OperatorRules
