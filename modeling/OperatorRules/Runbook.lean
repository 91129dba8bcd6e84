import OperatorRules.Json.Complaint
import OperatorRules.Text.Quoted

/-!
# Runbook addresses

A template is a text with exactly one slot, written `%s`; the address of an alert's runbook has the
alert's name in place of the slot. The template is given directly or by an environment variable,
whose value is any sequence of bytes.
-/

namespace OperatorRules

/-- What can be wrong with the rules of the operator, or with writing them. Manifests and rule files
consist of texts, lists and maps whose keys are texts, all of which can be rendered, so nothing in
this library ends with `render` or `serialize`; they are the messages that a caller may meet. -/
inductive RuleError where
  /-- The template has `found` slots, not one. -/
  | invalidRunbookTemplate (template : String) (found : Nat)
  /-- The environment variable does not hold text. -/
  | nonUnicodeRunbookTemplate
  /-- The manifest could not be rendered. -/
  | render (cause : String)
  /-- The rule file could not be rendered. -/
  | serialize (cause : Json.Complaint)
  deriving DecidableEq, Repr

def runbookVariable : String := "RUNBOOK_URL_TEMPLATE"

def RuleError.message : RuleError → String
  | invalidRunbookTemplate template found =>
    "invalid runbook URL template " ++ Text.quote template ++
      ": expected exactly one %s placeholder, found " ++ String.ofList (Text.decimal found)
  | nonUnicodeRunbookTemplate => runbookVariable ++ " is not valid unicode"
  | render cause => "failed to render PrometheusRule: " ++ cause
  | serialize cause => "failed to serialize rule spec: " ++ cause.message

namespace Runbook

/-- The number of slots, counted from the left without overlap. -/
def slots : List Char → Nat
  | '%' :: 's' :: cs => slots cs + 1
  | _ :: cs => slots cs
  | [] => 0

/-- The text with `name` in place of the first slot. -/
def fill (name : List Char) : List Char → List Char
  | '%' :: 's' :: cs => name ++ cs
  | c :: cs => c :: fill name cs
  | [] => []

end Runbook

/-- A text with exactly one slot for the name of an alert. -/
structure RunbookTemplate where
  text : String
  oneSlot : Runbook.slots text.toList = 1
  deriving DecidableEq

namespace RunbookTemplate

def parse (text : String) : Except RuleError RunbookTemplate :=
  if h : Runbook.slots text.toList = 1 then .ok ⟨text, h⟩
  else .error (.invalidRunbookTemplate text (Runbook.slots text.toList))

def default : RunbookTemplate := ⟨"https://kubevirt.io/monitoring/runbooks/%s", by decide⟩

instance : Inhabited RunbookTemplate := ⟨default⟩

/-- The template that the value of the environment variable determines; the default if it is not
set. -/
def resolve : Option ByteArray → Except RuleError RunbookTemplate
  | none => .ok default
  | some bytes =>
    match String.fromUTF8? bytes with
    | some text => parse text
    | none => .error .nonUnicodeRunbookTemplate

def urlFor (t : RunbookTemplate) (alert : String) : String :=
  String.ofList (Runbook.fill alert.toList t.text.toList)

end RunbookTemplate

end OperatorRules
