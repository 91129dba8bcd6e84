import OperatorRules.Disk.AtomicWrite
import OperatorRules.Event
import OperatorRules.Verification.Error

/-!
# Engines and actions

An engine checks a rule file and runs unit tests on it. What happens in the course of a verification
is recorded in one list of actions: events, calls of the engine and what it does, removals.
-/

namespace OperatorRules

inductive EngineAction where
  | report (e : Event)
  /-- A command is started, or the attempt is made. -/
  | command (program : String) (args : List String)

namespace EngineAction

def event? : EngineAction → Option Event
  | report e => some e
  | command .. => none

def command? : EngineAction → Option (String × List String)
  | command program args => some (program, args)
  | report _ => none

end EngineAction

/-- Something that happens in the course of a verification. -/
inductive Action where
  | report (e : Event)
  /-- The engine is asked to check the rules, with the disk as it is then. -/
  | check (rules : String) (disk : Disk)
  /-- The engine is asked to run the tests, with the disk as it is then. -/
  | test (rules tests : String) (disk : Disk)
  /-- The engine does something. -/
  | engine (a : EngineAction)
  /-- A file is removed, or the attempt is made. -/
  | remove (path : String) (result : Except SystemError Unit)

namespace Action

/-- The event of an action that is one, whoever reports it. -/
def event? : Action → Option Event
  | report e => some e
  | engine a => a.event?
  | _ => none

def command? : Action → Option (String × List String)
  | engine a => a.command?
  | _ => none

end Action

/-- What a piece of work leaves behind: its result, the disk, and what happened in its course. -/
structure Outcome (α : Type) where
  result : Except VerifyError Unit
  disk : Disk
  trace : List α

/-- Something that checks rules and runs their tests. -/
structure RuleEngine where
  check : Disk → (rules : String) → Outcome EngineAction
  test : Disk → (rules tests : String) → Outcome EngineAction

end OperatorRules
