import OperatorRules.Text.Duration

/-!
# Settings of a verification

Three paths have to be given; image, namespace and time limit have defaults that steps override.
All of them are texts. A path that is not UTF-8 is outside of these settings: the system takes it
for the file that it names, but in messages and volumes it stands with replacement characters.
-/

namespace OperatorRules

structure VerifierConfig where
  /-- The container runtime. -/
  ociBin : String
  /-- The file that the rules are written to. -/
  targetFile : String
  /-- The unit tests of the rules. -/
  testsFile : String
  /-- The image that provides promtool. -/
  image : String := "quay.io/prometheus/prometheus:v2.44.0"
  /-- The namespace that the recording rules are for. -/
  ns : String := "ci"
  /-- The time limit of each run of promtool. -/
  timeout : Duration := .ofSeconds 600
  deriving DecidableEq, Repr

namespace VerifierConfig

def ofPaths (ociBin targetFile testsFile : String) : VerifierConfig :=
  { ociBin, targetFile, testsFile }

inductive Override where
  | image (name : String)
  | ns (name : String)
  | timeout (limit : Duration)
  deriving DecidableEq, Repr

def Override.apply : Override → VerifierConfig → VerifierConfig
  | .image name, c => { c with image := name }
  | .ns name, c => { c with ns := name }
  | .timeout limit, c => { c with timeout := limit }

def override (c : VerifierConfig) (steps : List Override) : VerifierConfig :=
  steps.foldl (fun c s => s.apply c) c

end VerifierConfig

end OperatorRules
