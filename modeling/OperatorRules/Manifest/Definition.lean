import OperatorRules.Manifest.Data

/-!
# The definition of the resource

What a cluster is told so that it accepts manifests: the names of the resource and the schema of
its content.
-/

namespace OperatorRules

open Json

namespace Definition

def stringSchema : Value := .object [("type", .string "string")]

def nullableStringSchema : Value :=
  .object [("nullable", .bool true), ("type", .string "string")]

def entriesSchema : Value :=
  .object [("additionalProperties", stringSchema), ("type", .string "object")]

def listSchema (items : Value) : List (String × Value) :=
  [("items", items), ("type", .string "array")]

/-- The schema of an object with a description and required fields, each left out if there is
none. -/
def objectSchema (description : Option String) (properties : List (String × Value))
    (required : List String) : List (String × Value) :=
  (match description with
    | some d => [("description", .string d)]
    | none => []) ++
  [("properties", .object properties)] ++
  (if required.isEmpty then [] else [("required", .array (required.map .string))]) ++
  [("type", .string "object")]

def ruleSchema : Value :=
  .object (objectSchema (some "Single alerting or recording rule in a group")
    [("alert", nullableStringSchema), ("annotations", entriesSchema), ("expr", stringSchema),
      ("for", nullableStringSchema), ("labels", entriesSchema), ("record", nullableStringSchema)]
    ["expr"])

def groupSchema : Value :=
  .object (objectSchema (some "Named group of rules evaluated together")
    [("name", stringSchema), ("rules", .object (listSchema ruleSchema))] ["name", "rules"])

def specSchema : Value :=
  .object (objectSchema (some "PrometheusRule CRD, as consumed by the Prometheus operator")
    [("groups", .object ([("default", .array []), ("description", .string "Rule groups")] ++
      listSchema groupSchema))] [])

def resourceSchema : Value :=
  .object (objectSchema
      (some "Auto-generated derived type for PrometheusRuleSpec via `CustomResource`")
      [("spec", specSchema)] ["spec"] ++ [("title", .string PrometheusRule.kind)])

def names : Value :=
  .object [("categories", .array []), ("kind", .string PrometheusRule.kind),
    ("plural", .string PrometheusRule.plural), ("shortNames", .array []),
    ("singular", .string "prometheusrule")]

/-- The only version of the resource. -/
def version : Value :=
  .object [("additionalPrinterColumns", .array []), ("name", .string PrometheusRule.apiVersion),
    ("schema", .object [("openAPIV3Schema", resourceSchema)]), ("served", .bool true),
    ("storage", .bool true), ("subresources", .object [])]

def document : Value :=
  .object [("apiVersion", .string "apiextensions.k8s.io/v1"),
    ("kind", .string "CustomResourceDefinition"),
    ("metadata", .object [("name", .string PrometheusRule.definitionName)]),
    ("spec", .object [("group", .string PrometheusRule.apiGroup), ("names", names),
      ("scope", .string "Namespaced"), ("versions", .array [version])])]

end Definition

end OperatorRules
