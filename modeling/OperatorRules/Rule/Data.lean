import OperatorRules.Json.Decoder
import OperatorRules.Json.Printer
import OperatorRules.Lint
import OperatorRules.Rule.Alert
import OperatorRules.Rule.Recording

/-!
# Rules as data

The JSON forms of alerts, recording rules and problems, and the decoders that read them. An alert
always shows its labels and annotations, also if there are none, and its holding time only if it
has one.
-/

namespace OperatorRules

open Json

/-- A member that is left out if there is no text. -/
def Json.optionalMember (key : String) : Option String → List (String × Value)
  | some s => [(key, .string s)]
  | none => []

namespace AlertRule

def toJson (a : AlertRule) : Value :=
  .object ([("alert", .string a.name), ("expr", .string a.expr)] ++
    optionalMember "for" a.holdFor ++
    [("annotations", .ofEntries a.annotations), ("labels", .ofEntries a.labels)])

def record : Record where
  name := "AlertRule"
  fields := [.of "alert" Document.text, .of "expr" Document.text, .of "for" Document.text?,
    .of "annotations" Document.entries, .of "labels" Document.entries]

def decode : Decoder AlertRule := fun source d => do
  let m ← record.members source d
  let name ← m.required "alert" Document.text
  let expr ← m.required "expr" Document.text
  let holdFor ← m.optional "for" Document.text? none
  let annotations ← m.optional "annotations" Document.entries ∅
  let labels ← m.optional "labels" Document.entries ∅
  return { name, expr, holdFor, annotations, labels }

end AlertRule

namespace MetricType

def toJson (t : MetricType) : Value := .string t.keyword

def choices : List (String × MetricType) :=
  [gauge, counter].map fun t => (t.keyword, t)

def decode : Decoder MetricType := Document.choice choices

end MetricType

namespace RecordingRule

def toJson (r : RecordingRule) : Value :=
  .object [("name", .string r.name), ("help", .string r.help), ("type", r.metricType.toJson),
    ("expr", .string r.expr)]

def record (source : Source) : Record where
  name := "RecordingRule"
  fields := [.of "name" Document.text, .of "help" Document.text,
    .of "type" (MetricType.decode source), .of "expr" Document.text]

/-- Decodes a recording rule; the type is a gauge where none is given. -/
def decode : Decoder RecordingRule := fun source d => do
  let m ← (record source).members source d
  let name ← m.required "name" Document.text
  let help ← m.required "help" Document.text
  let metricType ← m.optional "type" (MetricType.decode source) .gauge
  let expr ← m.required "expr" Document.text
  return { name, help, metricType, expr }

end RecordingRule

namespace Problem

def toJson (p : Problem) : Value :=
  .object [("rule", .string p.rule), ("message", .string p.message)]

def record : Record where
  name := "Problem"
  fields := [.of "rule" Document.text, .of "message" Document.text]

def decode : Decoder Problem := fun source d => do
  let m ← record.members source d
  let rule ← m.required "rule" Document.text
  let message ← m.required "message" Document.text
  return { rule, message }

end Problem

end OperatorRules
