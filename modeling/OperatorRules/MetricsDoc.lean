import OperatorRules.Rule.Recording

/-!
# Documentation of the recorded metrics

A Markdown document with a heading and a section for each recording rule, in the order given. It
shows the name, the help text and the type, and nothing of the expression.
-/

namespace OperatorRules

namespace MetricsDoc

def header : String :=
  "# Cluster Network Addons Operator metrics\n\n" ++
    "This document is generated from the operator's recording rules.\n"

def trimDots (cs : List Char) : List Char := (cs.reverse.dropWhile (· == '.')).reverse

/-- The section about a rule; its help text ends in exactly one dot. -/
def entry (r : RecordingRule) : String :=
  "\n### " ++ r.name ++ "\n" ++ String.ofList (trimDots r.help.toList) ++ ". Type: " ++
    r.metricType.title ++ ".\n"

def render (rules : List RecordingRule) : String :=
  header ++ String.join (rules.map entry)

end MetricsDoc

end OperatorRules
