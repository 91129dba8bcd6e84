import OperatorRules.Manifest.Data
import OperatorRules.Verification.Config
import OperatorRules.Verification.Engine

/-!
# Verifications

A verification sets up the rules in a fresh registry, writes them to a file, has an engine check the
file and run tests on it, and removes the file again whatever happened before. The first stage that
fails decides the result; a failed removal decides it only if no stage failed, and is reported
otherwise.
-/

namespace OperatorRules

/-- A verification: its settings, and a runbook template that takes the place of the one in the
environment. -/
structure Verifier where
  config : VerifierConfig
  runbook : Option RunbookTemplate := none

/-- The value of the environment variable and the place where a verification runs. -/
structure Surroundings extends Site where
  rawTemplate? : Option ByteArray := none

namespace Verifier

/-- The template that is in force. -/
def template (v : Verifier) (s : Surroundings) : Except RuleError RunbookTemplate :=
  match v.runbook with
  | some t => .ok t
  | none => RunbookTemplate.resolve s.rawTemplate?

def registration (v : Verifier) (t : RunbookTemplate) : Registration :=
  (∅ : Registry).setup v.config.ns t

def ruleFile (v : Verifier) (t : RunbookTemplate) : String :=
  (PrometheusRule.build (v.registration t).registry v.config.ns).spec.ruleFile

def stageEvent (level : Level) (stage : Stage) (fields : List (String × FieldValue)) : Action :=
  .report ⟨level, none, ("stage", .text stage.name) :: fields⟩

/-- Runs the tests, the last stage. -/
def runTests (v : Verifier) (engine : RuleEngine) (d : Disk) : Outcome Action :=
  let target := v.config.targetFile
  let tests := v.config.testsFile
  let tested := engine.test d target tests
  let trace :=
    [stageEvent .info .unitTest [], .test target tests d] ++ tested.trace.map .engine
  match tested.result with
  | .error e => ⟨.error e, tested.disk, trace⟩
  | .ok () =>
    ⟨.ok (), tested.disk, trace ++ [.report ⟨.info, some "prometheus rules verified", []⟩]⟩

/-- Checks the rules and goes on if they pass. -/
def runCheck (v : Verifier) (engine : RuleEngine) (d : Disk) : Outcome Action :=
  let target := v.config.targetFile
  let checked := engine.check d target
  let trace := [stageEvent .info .lint [], .check target d] ++ checked.trace.map .engine
  match checked.result with
  | .error e => ⟨.error e, checked.disk, trace⟩
  | .ok () =>
    let rest := v.runTests engine checked.disk
    ⟨rest.result, rest.disk, trace ++ rest.trace⟩

def write (v : Verifier) (s : Surroundings) (d : Disk) (t : RunbookTemplate) : Written :=
  writeAtomically s.toSite d v.config.targetFile (v.ruleFile t).toUTF8

/-- Writes the rule file and goes on if it could be written. -/
def runSerialize (v : Verifier) (s : Surroundings) (engine : RuleEngine) (d : Disk)
    (t : RunbookTemplate) : Outcome Action :=
  let target := v.config.targetFile
  let trace := [stageEvent .info .serializeToFile [("path", .text target)]]
  let written := v.write s d t
  match written.result with
  | .error (path, e) => ⟨.error (.io path e), written.disk, trace⟩
  | .ok () =>
    let rest := v.runCheck engine written.disk
    ⟨rest.result, rest.disk, trace ++ rest.trace⟩

/-- Runs the stages in order up to the first that fails. -/
def runStages (v : Verifier) (s : Surroundings) (engine : RuleEngine) (d : Disk) : Outcome Action :=
  let trace := [stageEvent .info .setupRules [("namespace", .text v.config.ns)]]
  match v.template s with
  | .error e => ⟨.error (.rules e), d, trace⟩
  | .ok t =>
    let rest := v.runSerialize s engine d t
    ⟨rest.result, rest.disk, trace ++ (v.registration t).events.map .report ++
      [stageEvent .info .buildRuleset []] ++ rest.trace⟩

def removal (v : Verifier) (s : Surroundings) (d : Disk) : Except SystemError Disk :=
  match s.refusals.remove with
  | some e => .error e
  | none => d.unlink s.cwd v.config.targetFile

/-- Removes the rule file; that there is none is no error. -/
def cleanup (v : Verifier) (s : Surroundings) (d : Disk) : Outcome Action :=
  let target := v.config.targetFile
  let removed := v.removal s d
  let trace := [stageEvent .debug .cleanup [("path", .text target)],
    .remove target (removed.map fun _ => ())]
  match removed with
  | .ok d' => ⟨.ok (), d', trace⟩
  | .error .notFound => ⟨.ok (), d, trace⟩
  | .error e => ⟨.error (.io target (.system e)), d, trace⟩

/-- Runs the stages and removes the rule file. -/
def verify (v : Verifier) (s : Surroundings) (engine : RuleEngine) (d : Disk) : Outcome Action :=
  let opening := .report ⟨.info, some "verifying prometheus rules",
    [("target_file", .text v.config.targetFile), ("tests_file", .text v.config.testsFile)]⟩
  let stages := v.runStages s engine d
  let cleaned := v.cleanup s stages.disk
  let trace := opening :: stages.trace ++ cleaned.trace
  match stages.result, cleaned.result with
  | .ok (), result => ⟨result, cleaned.disk, trace⟩
  | .error e, .ok () => ⟨.error e, cleaned.disk, trace⟩
  | .error e, .error dropped =>
    ⟨.error e, cleaned.disk, trace ++ [.report ⟨.error,
      some "cleanup failed after an earlier error", [("error", .text dropped.message)]⟩]⟩

end Verifier

end OperatorRules
