import OperatorRules.Promtool.Arguments
import OperatorRules.Verification.Config
import OperatorRules.Verification.Engine

/-!
# Promtool in a container

The engine that runs promtool through a container runtime. Each run has a time limit; when it has
passed, the client is killed and the container removed, and whatever comes of that, the run counts
as timed out. The files on the disk are left alone.
-/

namespace OperatorRules

inductive RunOutcome where
  | notStarted (e : IoError)
  | lost (e : IoError)
  | exited (code : Int)
  | signalled
  /-- The time limit passed; killing the client may fail too. -/
  | overdue (kill : Option IoError)
  deriving DecidableEq, Repr

inductive RemovalOutcome where
  | exited (code : Int)
  | signalled
  | failed (e : IoError)
  deriving DecidableEq, Repr

/-- A container runtime: how it takes the arguments of a run and those of a removal. -/
structure ContainerRuntime where
  run : List String → RunOutcome
  remove : List String → RemovalOutcome

/-- Promtool from an image, run by a process of a certain number. -/
structure ContainerPromtool where
  ociBin : String
  image : String
  timeout : Duration
  pid : Nat
  deriving DecidableEq, Repr

namespace ContainerPromtool

def ofConfig (c : VerifierConfig) (pid : Nat) : ContainerPromtool :=
  ⟨c.ociBin, c.image, c.timeout, pid⟩

def checkArguments (p : ContainerPromtool) (rules : String) : List String :=
  Promtool.checkArguments p.pid p.image rules

def testArguments (p : ContainerPromtool) (rules tests : String) : List String :=
  Promtool.testArguments p.pid p.image rules tests

def removeArguments (p : ContainerPromtool) (stage : Stage) : List String :=
  Promtool.removeArguments p.pid stage

def stageEvent (level : Level) (message : String) (stage : Stage)
    (fields : List (String × FieldValue)) : EngineAction :=
  .report ⟨level, some message, ("stage", .text stage.name) :: fields⟩

def removalReport (stage : Stage) : RemovalOutcome → EngineAction
  | .exited 0 => stageEvent .debug "removed timed out promtool container" stage []
  | .exited code =>
    stageEvent .warn "failed to remove timed out promtool container" stage
      [("code", .text (exitText (some code)))]
  | .signalled =>
    stageEvent .warn "failed to remove timed out promtool container" stage
      [("code", .text (exitText none))]
  | .failed e =>
    stageEvent .warn "failed to remove timed out promtool container" stage
      [("error", .text e.message)]

def killReport (stage : Stage) : Option IoError → List EngineAction
  | none => []
  | some e =>
    [stageEvent .warn "failed to kill timed out promtool container" stage
      [("error", .text e.message)]]

def removal (p : ContainerPromtool) (runtime : ContainerRuntime) (stage : Stage) :
    List EngineAction :=
  let args := p.removeArguments stage
  [.command p.ociBin args, removalReport stage (runtime.remove args)]

/-- The result of a run, and what follows it. -/
def conclude (p : ContainerPromtool) (runtime : ContainerRuntime) (stage : Stage) :
    RunOutcome → Except VerifyError Unit × List EngineAction
  | .notStarted e => (.error (.spawn p.ociBin e), [])
  | .lost e => (.error (.io p.ociBin e), [])
  | .exited 0 => (.ok (), [])
  | .exited code => (.error (.commandFailed stage (some code)), [])
  | .signalled => (.error (.commandFailed stage none), [])
  | .overdue kill =>
    (.error (.timeout stage p.timeout), killReport stage kill ++ p.removal runtime stage)

def run (p : ContainerPromtool) (runtime : ContainerRuntime) (stage : Stage) (args : List String)
    (d : Disk) : Outcome EngineAction :=
  let started := stageEvent .debug "running promtool" stage
    [("program", .text p.ociBin), ("args", .text (Promtool.argumentsText args))]
  let (result, after) := p.conclude runtime stage (runtime.run args)
  ⟨result, d, started :: .command p.ociBin args :: after⟩

def check (p : ContainerPromtool) (runtime : ContainerRuntime)
    (cwd : Except SystemError (List Char)) (d : Disk) (rules : String) : Outcome EngineAction :=
  match Promtool.absolute cwd rules with
  | .error e => ⟨.error e, d, []⟩
  | .ok rules => p.run runtime .lint (p.checkArguments rules) d

def test (p : ContainerPromtool) (runtime : ContainerRuntime)
    (cwd : Except SystemError (List Char)) (d : Disk) (rules tests : String) :
    Outcome EngineAction :=
  match Promtool.absolute cwd rules with
  | .error e => ⟨.error e, d, []⟩
  | .ok rules =>
    match Promtool.absolute cwd tests with
    | .error e => ⟨.error e, d, []⟩
    | .ok tests => p.run runtime .unitTest (p.testArguments rules tests) d

/-- The engine. How the runtime takes arguments may depend on the disk, on which it lies itself. -/
def engine (p : ContainerPromtool) (runtime : Disk → ContainerRuntime)
    (cwd : Except SystemError (List Char)) : RuleEngine where
  check := fun d => p.check (runtime d) cwd d
  test := fun d => p.test (runtime d) cwd d

end ContainerPromtool

end OperatorRules
