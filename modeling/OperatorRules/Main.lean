import OperatorRules.Program

/-!
# Entry point

The name under which the program is called tells which of the two it is. A verification is
rehearsed: it prints the commands that it would give to the container runtime, in their order, with
the rules kept in memory.
-/

namespace OperatorRules

/-- A runtime with which every run succeeds. -/
def rehearsal : ContainerRuntime := ⟨fun _ => .exited 0, fun _ => .exited 0⟩

def skeleton (cwd : Location) : Disk := (∅ : Disk).putDirectories cwd

def commandLine (program : String) (args : List String) : String :=
  " ".intercalate (program :: args)

/-- Prints what a program printed, or help for an error of usage, and returns its code. -/
def finish (name : String) (exit : Program.Exit) : IO UInt32 := do
  (← IO.getStdout).putStr exit.output
  (← IO.getStderr).putStr (exit.errors.getD (CommandLine.helpText name))
  return UInt32.ofNat exit.code

def namesOf (path : String) : Location := (path.splitOn "/").filter (· ≠ "")

end OperatorRules

open OperatorRules in
def main (args : List String) : IO UInt32 := do
  let rawTemplate? := (← IO.getEnv runbookVariable).map String.toUTF8
  let name := CommandLine.usageName (toString (← IO.appPath)).toUTF8
  if name = "metricsdocs" then
    finish name (Program.metricsDocs rawTemplate?)
  else
    let cwd := namesOf (toString (← IO.currentDir))
    let surroundings : Surroundings := { cwd, tempName := ".tmp", rawTemplate? }
    let (exit, _, trace) :=
      Program.verifyRules name args surroundings (fun _ _ => rehearsal) 1 (skeleton cwd)
    for (program, args) in trace.filterMap Action.command? do
      IO.println (commandLine program args)
    finish name exit
