import OperatorRules.Promtool.Container
import OperatorRules.Proofs.Text.Digits
import OperatorRules.Proofs.Verification.Calls

/-!
# The containers of a verification

What a verification with promtool in a container asks of the container runtime. `Course` lists the
ways it can take: no run at all for want of a rule file, a run for the check that ends it, and a run
for the tests after a check that passed. Every list of commands is `Tidy`: a run past its time limit
is followed by one removal, of the container that it named, and there is no other removal. The runs
are `InOrder`: which of them there are follows from the paths and from how the check ends.
-/

namespace OperatorRules

/-- A program and its arguments. -/
abbrev Command := String × List String

/-- The commands that are started in a trace, in order. -/
def commands (t : List Action) : List Command := t.filterMap Action.command?

theorem overlooks_command? : Overlooks Action.command? := ⟨fun _ => rfl, fun _ _ => rfl⟩

theorem commands_map_engine (l : List EngineAction) :
    commands (l.map .engine) = l.filterMap EngineAction.command? := by
  rw [commands, List.filterMap_map]
  rfl

/-! ## Names of containers -/

namespace Promtool

theorem startedName?_runArguments (pid : Nat) (stage : Stage) (rest : List String) :
    startedName? (runArguments pid stage ++ rest) = some (containerName pid stage) := by
  have hremove : nameOption.toList.isPrefixOf "--rm".toList = false := by decide
  have hname : nameOption.toList.isPrefixOf (nameOption ++ containerName pid stage).toList := by
    rw [String.toList_append, List.isPrefixOf_iff_prefix]
    exact List.prefix_append ..
  simp only [runArguments, List.cons_append, startedName?, List.findSome?_cons, hremove, hname]
  simp

/-- The name of a container tells the process and the word of the stage: the digits of the number
end at the dash. -/
theorem containerName_inj {pid pid' : Nat} {stage stage' : Stage}
    (h : containerName pid stage = containerName pid' stage') :
    pid = pid' ∧ stageWord stage = stageWord stage' := by
  have hsplit (pid : Nat) (stage : Stage) :
      Text.splitDigits (Text.decimal pid ++ ("-".toList ++ (stageWord stage).toList)) =
        (Text.decimal pid, "-".toList ++ (stageWord stage).toList) := by
    refine Text.splitDigits_append (fun _ hc => Text.isDigit_of_mem_decimal hc) fun c hc => ?_
    obtain rfl : '-' = c := Option.some.inj hc
    decide
  have hlist := congrArg String.toList h
  simp only [containerName, String.toList_append, String.toList_ofList, List.append_assoc] at hlist
  have hparts := congrArg Text.splitDigits (List.append_cancel_left hlist)
  rw [hsplit, hsplit] at hparts
  obtain ⟨hpid, hword⟩ := Prod.mk.inj hparts
  exact ⟨Text.decimal_injective hpid, String.toList_injective (List.append_cancel_left hword)⟩

theorem containerName_lint_ne_unitTest (pid : Nat) :
    containerName pid .lint ≠ containerName pid .unitTest := by
  intro h
  have hword := (containerName_inj h).2
  revert hword
  decide

theorem volume_inj {host host' mount : String} (h : volume host mount = volume host' mount) :
    host = host' := by
  have hlist := congrArg String.toList h
  simp only [volume, String.toList_append, List.append_assoc] at hlist
  exact String.toList_injective (List.append_cancel_right hlist)

/-- What starts a container removes none. -/
theorem removedName?_of_startedName? {args : List String} {name : String}
    (h : startedName? args = some name) : removedName? args = none := by
  unfold startedName? at h
  split at h
  · rfl
  · cases h

/-- The runs among commands: those that remove no container. -/
def runs (l : List Command) : List Command := l.filter fun c => (removedName? c.2).isNone

@[simp] theorem runs_nil : runs [] = [] := rfl

theorem runs_cons {program : String} {args : List String} {name : String} {l : List Command}
    (hname : startedName? args = some name) :
    runs ((program, args) :: l) = (program, args) :: runs l := by
  simp [runs, removedName?_of_startedName? hname]

theorem runs_removeArguments (program : String) (pid : Nat) (stage : Stage) (l : List Command) :
    runs ((program, removeArguments pid stage) :: l) = runs l := rfl

/-- Commands among which there is a removal for each run past its time limit, right after it and of
the container that it named, and no other. -/
inductive Tidy (program : String) (ends : List String → RunOutcome) : List Command → Prop where
  | nil : Tidy program ends []
  | run {args : List String} {name : String} {l : List Command}
      (hname : startedName? args = some name) (h : ∀ kill, ends args ≠ .overdue kill)
      (hl : Tidy program ends l) : Tidy program ends ((program, args) :: l)
  | overdue {args : List String} {name : String} {kill : Option IoError} {l : List Command}
      (hname : startedName? args = some name) (h : ends args = .overdue kill)
      (hl : Tidy program ends l) :
      Tidy program ends ((program, args) :: (program, ["rm", "-f", name]) :: l)

end Promtool

namespace ContainerPromtool

open Promtool

variable {p : ContainerPromtool} {runtime : ContainerRuntime} {stage : Stage}

theorem startedName?_checkArguments (p : ContainerPromtool) (rules : String) :
    startedName? (p.checkArguments rules) = some (containerName p.pid .lint) := by
  rw [checkArguments, Promtool.checkArguments, List.append_assoc, List.append_assoc]
  exact startedName?_runArguments ..

theorem startedName?_testArguments (p : ContainerPromtool) (rules tests : String) :
    startedName? (p.testArguments rules tests) = some (containerName p.pid .unitTest) := by
  rw [testArguments, Promtool.testArguments, List.append_assoc, List.append_assoc,
    List.append_assoc]
  exact startedName?_runArguments ..

@[simp] theorem checkArguments_ne_testArguments (p : ContainerPromtool)
    (rules rules' tests : String) : p.checkArguments rules ≠ p.testArguments rules' tests := by
  intro h
  have hname := congrArg startedName? h
  rw [startedName?_checkArguments, startedName?_testArguments, Option.some_inj] at hname
  exact containerName_lint_ne_unitTest _ hname

@[simp] theorem testArguments_ne_checkArguments (p : ContainerPromtool)
    (rules rules' tests : String) : p.testArguments rules tests ≠ p.checkArguments rules' :=
  (p.checkArguments_ne_testArguments rules' rules tests).symm

@[simp] theorem checkArguments_inj {rules rules' : String} :
    p.checkArguments rules = p.checkArguments rules' ↔ rules = rules' := by
  refine ⟨fun h => ?_, congrArg _⟩
  have hvolume : volume rules rulesMount = volume rules' rulesMount := by
    simpa [checkArguments, Promtool.checkArguments] using h
  exact volume_inj hvolume

@[simp] theorem testArguments_inj {rules rules' tests tests' : String} :
    p.testArguments rules tests = p.testArguments rules' tests' ↔
      rules = rules' ∧ tests = tests' := by
  refine ⟨fun h => ?_, fun ⟨hrules, htests⟩ => by rw [hrules, htests]⟩
  have hvolumes : volume tests testsMount = volume tests' testsMount ∧
      volume rules rulesMount = volume rules' rulesMount := by
    simpa [testArguments, Promtool.testArguments] using h
  exact ⟨volume_inj hvolumes.2, volume_inj hvolumes.1⟩

/-! ## One run -/

/-- What the end of a run means for its stage. -/
inductive Yields (p : ContainerPromtool) (stage : Stage) :
    RunOutcome → Except VerifyError Unit → Prop where
  | passed : Yields p stage (.exited 0) (.ok ())
  | failed {code : Int} (h : code ≠ 0) :
      Yields p stage (.exited code) (.error (.commandFailed stage (some code)))
  | signalled : Yields p stage .signalled (.error (.commandFailed stage none))
  | overdue (kill : Option IoError) :
      Yields p stage (.overdue kill) (.error (.timeout stage p.timeout))
  | notStarted (e : IoError) : Yields p stage (.notStarted e) (.error (.spawn p.ociBin e))
  | lost (e : IoError) : Yields p stage (.lost e) (.error (.io p.ociBin e))

theorem Yields.unique {o : RunOutcome} {r r' : Except VerifyError Unit}
    (h : p.Yields stage o r) (h' : p.Yields stage o r') : r = r' := by
  cases h <;> cases h' <;> first | rfl | contradiction

theorem Yields.eq_ok_iff {o : RunOutcome} {r : Except VerifyError Unit} (h : p.Yields stage o r) :
    r = .ok () ↔ o = .exited 0 := by
  cases h <;> simp [*]

/-- Only a run past its time limit is said to be, and with the limit that was set. -/
theorem Yields.eq_timeout_iff {o : RunOutcome} {r : Except VerifyError Unit}
    (h : p.Yields stage o r) {limit : Duration} :
    r = .error (.timeout stage limit) ↔ (∃ kill, o = .overdue kill) ∧ p.timeout = limit := by
  cases h <;> simp

theorem run_result (p : ContainerPromtool) (runtime : ContainerRuntime) (stage : Stage)
    (args : List String) (d : Disk) :
    p.Yields stage (runtime.run args) (p.run runtime stage args d).result := by
  rw [run]
  cases runtime.run args with
  | notStarted e => exact .notStarted e
  | lost e => exact .lost e
  | exited code =>
    by_cases h : code = 0
    · subst h; exact .passed
    · simpa [conclude, h] using Yields.failed h
  | signalled => exact .signalled
  | overdue kill => exact .overdue kill

/-- The commands of a run: itself, and the removal of its container if its time limit passed. -/
def runCommands (p : ContainerPromtool) (stage : Stage) (args : List String) :
    RunOutcome → List Command
  | .overdue _ => [(p.ociBin, args), (p.ociBin, p.removeArguments stage)]
  | _ => [(p.ociBin, args)]

theorem killReport_commands (stage : Stage) (kill : Option IoError) :
    (killReport stage kill).filterMap EngineAction.command? = [] := by
  cases kill <;> rfl

theorem removalReport_command? (stage : Stage) (o : RemovalOutcome) :
    (removalReport stage o).command? = none := by
  unfold removalReport
  split <;> rfl

theorem removal_commands (p : ContainerPromtool) (runtime : ContainerRuntime) (stage : Stage) :
    (p.removal runtime stage).filterMap EngineAction.command? =
      [(p.ociBin, p.removeArguments stage)] :=
  congrArg _ (List.filterMap_cons_none (removalReport_command? ..))

theorem conclude_commands (p : ContainerPromtool) (runtime : ContainerRuntime) (stage : Stage)
    (args : List String) (o : RunOutcome) :
    (p.ociBin, args) :: (p.conclude runtime stage o).2.filterMap EngineAction.command? =
      p.runCommands stage args o := by
  unfold conclude
  split
  case h_6 kill =>
    rw [List.filterMap_append, killReport_commands, removal_commands]
    rfl
  all_goals rfl

theorem run_commands (p : ContainerPromtool) (runtime : ContainerRuntime) (stage : Stage)
    (args : List String) (d : Disk) :
    (p.run runtime stage args d).trace.filterMap EngineAction.command? =
      p.runCommands stage args (runtime.run args) := by
  rw [← conclude_commands p runtime]
  rfl

theorem runs_runCommands (p : ContainerPromtool) (stage : Stage) {args : List String}
    {name : String} (hname : startedName? args = some name) (o : RunOutcome) :
    runs (p.runCommands stage args o) = [(p.ociBin, args)] := by
  cases o <;> simp [runCommands, runs_cons hname, removeArguments, runs_removeArguments]

theorem tidy_runCommands {ends : List String → RunOutcome} {args : List String}
    (hname : startedName? args = some (containerName p.pid stage)) :
    Tidy p.ociBin ends (p.runCommands stage args (ends args)) := by
  cases h : ends args with
  | overdue kill => exact .overdue hname h .nil
  | _ => exact .run hname (by simp [h]) .nil

/-! ## Both runs -/

/-- How far a verification comes with its runs: the commands that it starts and the result of its
stages. The paths are those of the rule file and of the tests, as seen from the root, or tell why
there is none. -/
inductive Course (p : ContainerPromtool) (ends : List String → RunOutcome)
    (rulesPath testsPath : Except VerifyError String) :
    List Command → Except VerifyError Unit → Prop where
  /-- There is no rule file, or no path to it. -/
  | unreached {e : VerifyError} (hr : rulesPath = .error e) :
      Course p ends rulesPath testsPath [] (.error e)
  /-- The check fails. -/
  | lint {rules : String} {e : VerifyError} (hr : rulesPath = .ok rules)
      (h : p.Yields .lint (ends (p.checkArguments rules)) (.error e)) :
      Course p ends rulesPath testsPath
        (p.runCommands .lint (p.checkArguments rules) (ends (p.checkArguments rules))) (.error e)
  /-- The check passes and there is no path to the tests. -/
  | pathless {rules : String} {e : VerifyError} (hr : rulesPath = .ok rules)
      (hpass : ends (p.checkArguments rules) = .exited 0) (ht : testsPath = .error e) :
      Course p ends rulesPath testsPath [(p.ociBin, p.checkArguments rules)] (.error e)
  /-- The check passes and the tests are run. -/
  | unitTest {rules tests : String} {r : Except VerifyError Unit} (hr : rulesPath = .ok rules)
      (hpass : ends (p.checkArguments rules) = .exited 0) (ht : testsPath = .ok tests)
      (h : p.Yields .unitTest (ends (p.testArguments rules tests)) r) :
      Course p ends rulesPath testsPath ((p.ociBin, p.checkArguments rules) ::
        p.runCommands .unitTest (p.testArguments rules tests)
          (ends (p.testArguments rules tests))) r

/-- The runs are those of the check and of the tests, in this order. The check is run just if there
is a path to the rules, and the tests just if the check passes and there is a path to them. The
first of all these that fails decides the result, and only if both runs pass is there no error. -/
structure InOrder (p : ContainerPromtool) (ends : List String → RunOutcome)
    (rulesPath testsPath : Except VerifyError String) (l : List Command)
    (r : Except VerifyError Unit) : Prop where
  prefix_pair : ∃ rules tests,
    l <+: [(p.ociBin, p.checkArguments rules), (p.ociBin, p.testArguments rules tests)]
  lint_mem_iff (rules : String) :
    (p.ociBin, p.checkArguments rules) ∈ l ↔ rulesPath = .ok rules
  unitTest_mem_iff (rules tests : String) :
    (p.ociBin, p.testArguments rules tests) ∈ l ↔
      rulesPath = .ok rules ∧ ends (p.checkArguments rules) = .exited 0 ∧ testsPath = .ok tests
  rules_error {e : VerifyError} (hr : rulesPath = .error e) : r = .error e
  lint_error {rules : String} {e : VerifyError} (hr : rulesPath = .ok rules)
    (he : p.Yields .lint (ends (p.checkArguments rules)) (.error e)) : r = .error e
  tests_error {rules : String} {e : VerifyError} (hr : rulesPath = .ok rules)
    (hpass : ends (p.checkArguments rules) = .exited 0) (ht : testsPath = .error e) : r = .error e
  unitTest_error {rules tests : String} {e : VerifyError} (hr : rulesPath = .ok rules)
    (hpass : ends (p.checkArguments rules) = .exited 0) (ht : testsPath = .ok tests)
    (he : p.Yields .unitTest (ends (p.testArguments rules tests)) (.error e)) : r = .error e
  ok_iff : r = .ok () ↔ ∃ rules tests,
    l = [(p.ociBin, p.checkArguments rules), (p.ociBin, p.testArguments rules tests)] ∧
      ends (p.checkArguments rules) = .exited 0 ∧ ends (p.testArguments rules tests) = .exited 0

namespace Course

variable {ends : List String → RunOutcome} {rulesPath testsPath : Except VerifyError String}
  {l : List Command} {r : Except VerifyError Unit}

theorem tidy (h : p.Course ends rulesPath testsPath l r) : Tidy p.ociBin ends l := by
  have hlint (rules : String) := p.startedName?_checkArguments rules
  cases h with
  | unreached => exact .nil
  | lint => exact tidy_runCommands (hlint _)
  | pathless _ hpass => exact .run (hlint _) (by simp [hpass]) .nil
  | unitTest _ hpass =>
    refine .run (hlint _) (by simp [hpass]) ?_
    exact tidy_runCommands (p.startedName?_testArguments ..)

/-- The runs of a course are in order. -/
theorem inOrder (h : p.Course ends rulesPath testsPath l r) :
    p.InOrder ends rulesPath testsPath (runs l) r := by
  have hpassed {stage : Stage} {e : VerifyError} : ¬ p.Yields stage (.exited 0) (.error e) :=
    fun h => nomatch h.eq_ok_iff.2 rfl
  have hlint (rules : String) (l : List Command) :
      runs ((p.ociBin, p.checkArguments rules) :: l) =
        (p.ociBin, p.checkArguments rules) :: runs l :=
    runs_cons (p.startedName?_checkArguments rules)
  cases h with
  | unreached hr => constructor <;> simp [hr]
  | @lint rules e hr h =>
    have hfail : ends (p.checkArguments rules) ≠ .exited 0 := fun hpass => hpassed (hpass ▸ h)
    rw [p.runs_runCommands .lint (p.startedName?_checkArguments rules)]
    subst hr
    constructor
    case unitTest_mem_iff =>
      refine fun _ _ => iff_of_false (by simp) ?_
      rintro ⟨⟨⟩, hpass, -⟩
      exact hfail hpass
    case lint_error => rintro _ _ ⟨⟩ h'; exact h.unique h'
    case tests_error => rintro _ _ ⟨⟩ hpass; exact absurd hpass hfail
    case unitTest_error => rintro _ _ _ ⟨⟩ hpass; exact absurd hpass hfail
    all_goals simp [eq_comm]
  | @pathless rules e hr hpass ht =>
    rw [hlint, runs_nil]
    subst hr ht
    constructor
    case lint_error => rintro _ _ ⟨⟩ h'; exact absurd (hpass ▸ h') hpassed
    all_goals simp [eq_comm]
  | @unitTest rules tests r hr hpass ht h =>
    rw [hlint, p.runs_runCommands .unitTest (p.startedName?_testArguments rules tests)]
    subst hr ht
    constructor
    case unitTest_mem_iff =>
      intro rules' tests'
      have hmem : (p.ociBin, p.testArguments rules' tests') ∈ [(p.ociBin, p.checkArguments rules),
          (p.ociBin, p.testArguments rules tests)] ↔ rules' = rules ∧ tests' = tests := by simp
      rw [hmem]
      constructor
      · rintro ⟨rfl, rfl⟩
        exact ⟨rfl, hpass, rfl⟩
      · rintro ⟨⟨⟩, -, ⟨⟩⟩
        exact ⟨rfl, rfl⟩
    case lint_error => rintro _ _ ⟨⟩ h'; exact absurd (hpass ▸ h') hpassed
    case unitTest_error => rintro _ _ _ ⟨⟩ - ⟨⟩ h'; exact h.unique h'
    all_goals simp [eq_comm, hpass, h.eq_ok_iff]

end Course

section
variable {cwd : Except SystemError (List Char)} {d : Disk} {target testsFile rules tests : String}
  {e : VerifyError}

theorem check_disk : (p.check runtime cwd d target).disk = d := by
  unfold check
  split <;> rfl

theorem check_of_error (hr : absolute cwd target = .error e) :
    p.check runtime cwd d target = ⟨.error e, d, []⟩ := by
  rw [check, hr]

theorem check_of_ok (hr : absolute cwd target = .ok rules) :
    p.check runtime cwd d target = p.run runtime .lint (p.checkArguments rules) d := by
  rw [check, hr]

theorem test_of_error (hr : absolute cwd target = .ok rules)
    (ht : absolute cwd testsFile = .error e) :
    p.test runtime cwd d target testsFile = ⟨.error e, d, []⟩ := by
  rw [test, hr, ht]

theorem test_of_ok (hr : absolute cwd target = .ok rules)
    (ht : absolute cwd testsFile = .ok tests) :
    p.test runtime cwd d target testsFile =
      p.run runtime .unitTest (p.testArguments rules tests) d := by
  rw [test, hr, ht]

end

end ContainerPromtool

/-! ## The whole verification -/

namespace Verifier

open ContainerPromtool Promtool

variable {v : Verifier} {s : Surroundings} {engine : RuleEngine} {d : Disk}

theorem commands_runCheck (v : Verifier) (engine : RuleEngine) (d : Disk) :
    commands (v.runCheck engine d).trace =
      (engine.check d v.config.targetFile).trace.filterMap EngineAction.command? ++
        match (engine.check d v.config.targetFile).result with
        | .error _ => []
        | .ok () => (engine.test (engine.check d v.config.targetFile).disk v.config.targetFile
            v.config.testsFile).trace.filterMap EngineAction.command? := by
  have hcall {a : Action} (ha : a.command? = none) (l : List EngineAction) :
      (a :: l.map .engine).filterMap Action.command? = l.filterMap EngineAction.command? := by
    rw [List.filterMap_cons_none ha]
    exact commands_map_engine l
  have h := filterMap_runCheck overlooks_command? v engine d
  rw [filterMap_runTests overlooks_command?, hcall rfl, hcall rfl] at h
  exact h

theorem commands_verify_of_error {c : RuleError} (ht : v.template s = .error c) :
    commands (v.verify s engine d).trace = [] :=
  (filterMap_verify overlooks_command? v s engine d).trans
    (filterMap_runStages_of_error overlooks_command? ht)

theorem commands_verify_of_ok {t : RunbookTemplate} (ht : v.template s = .ok t) :
    commands (v.verify s engine d).trace =
      match (v.write s d t).result with
      | .error _ => []
      | .ok () => commands (v.runCheck engine (v.write s d t).disk).trace :=
  (filterMap_verify overlooks_command? v s engine d).trans
    (filterMap_runStages_of_ok overlooks_command? ht)

theorem course_runCheck (v : Verifier) (p : ContainerPromtool) (runtime : Disk → ContainerRuntime)
    (cwd : Except SystemError (List Char)) (d : Disk) :
    p.Course (runtime d).run (absolute cwd v.config.targetFile) (absolute cwd v.config.testsFile)
      (commands (v.runCheck (p.engine runtime cwd) d).trace)
      (v.runCheck (p.engine runtime cwd) d).result := by
  rw [commands_runCheck, runCheck_result]
  simp only [engine, check_disk]
  cases hr : absolute cwd v.config.targetFile with
  | error e =>
    rw [check_of_error hr]
    exact .unreached rfl
  | ok rules =>
    rw [check_of_ok hr, run_commands]
    have hyields := p.run_result (runtime d) .lint (p.checkArguments rules) d
    cases hc : (p.run (runtime d) .lint (p.checkArguments rules) d).result with
    | error e =>
      rw [hc] at hyields
      rw [List.append_nil]
      exact .lint rfl hyields
    | ok _ =>
      have hpass := hyields.eq_ok_iff.1 hc
      rw [hpass]
      cases ht : absolute cwd v.config.testsFile with
      | error e =>
        rw [test_of_error hr ht]
        exact .pathless rfl hpass rfl
      | ok tests =>
        simp only [test_of_ok hr ht, run_commands]
        exact .unitTest rfl hpass rfl (p.run_result _ _ _ d)

/-- The disk that the calls of an engine find which leaves it as it is. -/
def writtenDisk (v : Verifier) (s : Surroundings) (d : Disk) : Disk :=
  match v.template s with
  | .error _ => d
  | .ok t => (v.write s d t).disk

/-- The path of the rule file, as seen from the root, once it is written. There is none if no
template is in force or the write fails, and none without a current directory. -/
def rulesPath (v : Verifier) (s : Surroundings) (d : Disk)
    (cwd : Except SystemError (List Char)) : Except VerifyError String :=
  match v.template s with
  | .error c => .error (.rules c)
  | .ok t =>
    match (v.write s d t).result with
    | .error (path, c) => .error (.io path c)
    | .ok () => absolute cwd v.config.targetFile

theorem course_verify (v : Verifier) (s : Surroundings) (p : ContainerPromtool)
    (runtime : Disk → ContainerRuntime) (cwd : Except SystemError (List Char)) (d : Disk) :
    p.Course (runtime (v.writtenDisk s d)).run (v.rulesPath s d cwd)
      (absolute cwd v.config.testsFile) (commands (v.verify s (p.engine runtime cwd) d).trace)
      (v.runStages s (p.engine runtime cwd) d).result := by
  cases ht : v.template s with
  | error c =>
    rw [commands_verify_of_error ht, runStages_result_of_error ht]
    exact .unreached (by rw [rulesPath, ht])
  | ok t =>
    rw [commands_verify_of_ok ht]
    have hdisk : v.writtenDisk s d = (v.write s d t).disk := by rw [writtenDisk, ht]
    rw [hdisk]
    cases hw : (v.write s d t).result with
    | error e =>
      rw [runStages_result_of_ok ht, hw]
      exact .unreached (by simp only [rulesPath, ht, hw])
    | ok _ =>
      have hpath : v.rulesPath s d cwd = absolute cwd v.config.targetFile := by
        simp only [rulesPath, ht, hw]
      rw [hpath, (runStages_of_write _ ht hw).1]
      exact course_runCheck ..

/-- Of the container runtime a verification asks for the run that checks the rules, once they are
written and their path is known, and if that passes in time for the run of the tests, unless there
is no path to them. Each run past its time limit is followed by one removal of the container that it
named, and nothing else is removed. A run that does not pass decides the error of the verification,
whatever came of killing it and of the removal, and the stages succeed only if both runs pass. -/
theorem verify_commands (v : Verifier) (s : Surroundings) (p : ContainerPromtool)
    (runtime : Disk → ContainerRuntime) (cwd : Except SystemError (List Char)) (d : Disk) :
    let engine := p.engine runtime cwd
    let stages := v.runStages s engine d
    let outcome := v.verify s engine d
    let ends := (runtime (v.writtenDisk s d)).run
    Tidy p.ociBin ends (commands outcome.trace) ∧
    p.InOrder ends (v.rulesPath s d cwd) (absolute cwd v.config.testsFile)
      (runs (commands outcome.trace)) stages.result ∧
    ∀ e, stages.result = .error e → outcome.result = .error e := by
  intro engine stages outcome ends
  have hcourse := v.course_verify s p runtime cwd d
  refine ⟨hcourse.tidy, hcourse.inOrder, fun e he => ?_⟩
  rw [verify_result, he, Except.error_bind]

end Verifier

end OperatorRules
