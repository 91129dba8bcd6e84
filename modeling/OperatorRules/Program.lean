import OperatorRules.CommandLine
import OperatorRules.MetricsDoc
import OperatorRules.Promtool.Container
import OperatorRules.Verification.Run

/-!
# The programs

The two programs as functions of their arguments and surroundings: one verifies the rules of the
operator with promtool, the other prints the documentation of the recorded metrics.
-/

namespace OperatorRules.Program

/-- What a program leaves to who called it; the words of an error of usage are not fixed. -/
structure Exit where
  code : Nat
  output : String
  errors : Option String
  deriving DecidableEq, Repr

def Exit.silent : Exit := ⟨0, "", some ""⟩

def Exit.printing (text : String) : Exit := ⟨0, text, some ""⟩

def Exit.failing (message : String) (causes : List String) : Exit :=
  ⟨1, "", some (Report.text message causes)⟩

def verificationFailed : String := "prometheus rule verification failed"

/-- Verifies the rules as the arguments ask, under the name that help shows. The container runtime
is found by its name on the disk. -/
def verifyRules (name : String) (args : List String) (s : Surroundings)
    (runtime : String → Disk → ContainerRuntime) (pid : Nat) (d : Disk) :
    Exit × Disk × List Action :=
  match CommandLine.parse args with
  | .error _ => (⟨CommandLine.usageExitCode, "", none⟩, d, [])
  | .ok .help => (.printing (CommandLine.helpText name), d, [])
  | .ok .version => (.printing CommandLine.versionText, d, [])
  | .ok (.verify config) =>
    let promtool := ContainerPromtool.ofConfig config pid
    let engine := promtool.engine (runtime config.ociBin) (.ok s.cwd.path)
    let outcome := ({ config } : Verifier).verify s engine d
    let exit := match outcome.result with
      | .ok () => Exit.silent
      | .error e => .failing verificationFailed (e.message :: e.causes)
    (exit, outcome.disk, outcome.trace)

/-- The namespace that documentation shows. -/
def documentedNamespace : String := "<namespace>"

/-- Prints the documentation of the metrics that setup records. -/
def metricsDocs (rawTemplate? : Option ByteArray) : Exit :=
  match (∅ : Registry).setupFromEnvironment documentedNamespace rawTemplate? with
  | .error e => .failing e.message e.cause?.toList
  | .ok r => .printing (MetricsDoc.render r.registry.listRecordingRules)

end OperatorRules.Program
