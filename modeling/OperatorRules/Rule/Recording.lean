import OperatorRules.Roster

/-!
# Recording rules

A recording rule stores the value of an expression as a series of its own. Help text and type of
the series serve its documentation.
-/

namespace OperatorRules

inductive MetricType where
  | gauge
  | counter
  deriving DecidableEq, Repr, Inhabited

/-- The type as documents name it. -/
def MetricType.title : MetricType → String
  | gauge => "Gauge"
  | counter => "Counter"

/-- The type as data name it. -/
def MetricType.keyword : MetricType → String
  | gauge => "gauge"
  | counter => "counter"

structure RecordingRule where
  name : String
  help : String
  metricType : MetricType := .gauge
  expr : String
  deriving DecidableEq, Repr

instance : Named RecordingRule := ⟨RecordingRule.name⟩

def RecordingRule.gauge (name help expr : String) : RecordingRule := { name, help, expr }

end OperatorRules
