import OperatorRules.Event
import OperatorRules.Rule.Alert
import OperatorRules.Rule.Recording

/-!
# The registry

A roster of alerts and a roster of recording rules, independent of each other. Registering a rule
replaces the rule of its name, and reports the replacement. Registration takes groups of rules;
only their order matters, not how they are grouped.
-/

namespace OperatorRules

structure Registry where
  alerts : Roster AlertRule
  recordingRules : Roster RecordingRule
  deriving DecidableEq

/-- A registry together with what was reported on the way to it. -/
structure Registration where
  registry : Registry
  events : List Event
  deriving DecidableEq

/-- How events speak of a kind of rule: the field that holds its name, and its messages. -/
structure Wording where
  field : String
  registering : String
  replacing : String

/-- The events of one registration: that it takes place, and that a rule is replaced if the name
was taken. -/
def Wording.events (w : Wording) (name : String) (taken : Bool) : List Event :=
  let fields := [(w.field, FieldValue.text name)]
  ⟨.debug, some w.registering, fields⟩ ::
    if taken then [⟨.warn, some w.replacing, fields⟩] else []

def Roster.register {α : Type} [Named α] (w : Wording) :
    Roster α → List α → Roster α × List Event
  | r, [] => (r, [])
  | r, a :: l =>
    let (r', events) := register w (r.insert a) l
    (r', w.events (nameOf a) (r.contains (nameOf a)) ++ events)

namespace Registry

def empty : Registry := ⟨∅, ∅⟩

instance : EmptyCollection Registry := ⟨empty⟩
instance : Inhabited Registry := ⟨empty⟩

def alertWording : Wording where
  field := "alert"
  registering := "registering alert"
  replacing := "alert registered twice, keeping the latest definition"

def recordingRuleWording : Wording where
  field := "record"
  registering := "registering recording rule"
  replacing := "recording rule registered twice, keeping the latest definition"

def registerAlerts (r : Registry) (groups : List (List AlertRule)) : Registration :=
  let (alerts, events) := r.alerts.register alertWording groups.flatten
  ⟨{ r with alerts }, events⟩

def registerRecordingRules (r : Registry) (groups : List (List RecordingRule)) : Registration :=
  let (recordingRules, events) := r.recordingRules.register recordingRuleWording groups.flatten
  ⟨{ r with recordingRules }, events⟩

/-- The alerts in ascending order of their names. -/
def listAlerts (r : Registry) : List AlertRule := r.alerts.toList

def listRecordingRules (r : Registry) : List RecordingRule := r.recordingRules.toList

def alertCount (r : Registry) : Nat := r.alerts.size

def recordingRuleCount (r : Registry) : Nat := r.recordingRules.size

def isEmpty (r : Registry) : Bool := r.alerts.isEmpty && r.recordingRules.isEmpty

def clean (_ : Registry) : Registry := ∅

end Registry

end OperatorRules
