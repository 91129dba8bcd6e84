import OperatorRules.Catalogue

/-!
# Histories of a registry

A history is the list of changes made to a registry since it was empty. `replay` carries it out;
`alertLog` and `recordingRuleLog` are what was given since the last cleaning, in order, and
`lastNamed?` looks up in them what a registry holds under a name.
-/

namespace OperatorRules

/-- What was given last under a name. -/
def lastNamed? {α : Type} [Named α] (name : String) (l : List α) : Option α :=
  l.reverse.find? fun a => nameOf a == name

namespace Registry

inductive Change where
  | alerts (groups : List (List AlertRule))
  | enriched (template : RunbookTemplate) (groups : List (List AlertRule))
  | operatorAlerts (template : RunbookTemplate)
  | recordingRules (groups : List (List RecordingRule))
  | operatorRecordingRules (ns : String)
  | setup (ns : String) (template : RunbookTemplate)
  | clean

/-- The changes made to an empty registry. -/
abbrev History := List Change

namespace Change

def apply : Change → Registry → Registration
  | alerts groups, r => r.registerAlerts groups
  | enriched t groups, r => r.registerEnriched t groups
  | operatorAlerts t, r => r.registerOperatorAlerts t
  | recordingRules groups, r => r.registerRecordingRules groups
  | operatorRecordingRules ns, r => r.registerOperatorRecordingRules ns
  | setup ns t, r => r.setup ns t
  | clean, r => ⟨r.clean, []⟩

/-- Whether a change forgets all that came before. -/
def forgets : Change → Bool
  | clean => true
  | _ => false

/-- The alerts that a change registers, in order, with the template they are enriched by. -/
def givenAlerts : Change → List (Option RunbookTemplate × AlertRule)
  | alerts groups => groups.flatten.map fun a => (none, a)
  | enriched t groups => groups.flatten.map fun a => (some t, a)
  | operatorAlerts t => Catalogue.operatorAlerts.map fun a => (some t, a)
  | setup _ t => Catalogue.operatorAlerts.map fun a => (some t, a)
  | _ => []

def givenRecordingRules : Change → List RecordingRule
  | recordingRules groups => groups.flatten
  | operatorRecordingRules ns =>
    Catalogue.operatorRecordingRules ns ++ Catalogue.macPoolRecordingRules ns
  | setup ns _ => Catalogue.operatorRecordingRules ns ++ Catalogue.macPoolRecordingRules ns
  | _ => []

end Change

namespace History

/-- The registry after a history. -/
def replay (h : History) : Registry := h.foldl (fun r c => (c.apply r).registry) ∅

/-- The changes since the last cleaning. -/
def current (h : History) : History := (h.reverse.takeWhile fun c => !c.forgets).reverse

/-- The alerts given since the last cleaning, in order, each with its template if it has one. -/
def givenAlerts (h : History) : List (Option RunbookTemplate × AlertRule) :=
  h.current.flatMap Change.givenAlerts

/-- The alerts registered since the last cleaning, in order. -/
def alertLog (h : History) : List AlertRule :=
  h.givenAlerts.map fun (t?, a) =>
    match t? with
    | some t => a.enrich t
    | none => a

def recordingRuleLog (h : History) : List RecordingRule :=
  h.current.flatMap Change.givenRecordingRules

end History

end Registry

end OperatorRules
