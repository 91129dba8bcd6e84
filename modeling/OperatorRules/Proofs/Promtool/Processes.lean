import Mathlib.Data.List.Pairwise
import Mathlib.Logic.Function.Basic
import OperatorRules.Program
import OperatorRules.Proofs.Promtool.Container

/-!
# Verifications side by side

Any number of processes, each with a verification of its own, that give their commands to container
runtimes in any order (`Interleaving`). At every moment each process has given the first of its
commands and has the others left (`Interleaving.asked_append_left`), so what keeps apart the
commands of one process and those of any two keeps apart all that was asked
(`Interleaving.pairwise`). The name of a container tells its process and its stage, hence processes
with different numbers stay out of each other's way.
-/

namespace OperatorRules

open Promtool

/-- A process that verifies with promtool in a container. What disk it finds and how its runtime
answers are left open, so both may be as the other processes make them. -/
structure Process where
  verifier : Verifier
  surroundings : Surroundings
  promtool : ContainerPromtool
  runtime : Disk → ContainerRuntime
  cwd : Except SystemError (List Char)
  disk : Disk

namespace Process

def pid (p : Process) : Nat := p.promtool.pid

def commands (p : Process) : List Command :=
  OperatorRules.commands
    (p.verifier.verify p.surroundings (p.promtool.engine p.runtime p.cwd) p.disk).trace

/-- How the runs of the process end. -/
def ends (p : Process) : List String → RunOutcome :=
  (p.runtime (p.verifier.writtenDisk p.surroundings p.disk)).run

/-- What the program asks of the runtime is what such a process asks, or nothing. -/
theorem commands_verifyRules (name : String) (args : List String) (s : Surroundings)
    (runtime : String → Disk → ContainerRuntime) (pid : Nat) (d : Disk) :
    OperatorRules.commands (Program.verifyRules name args s runtime pid d).2.2 = [] ∨
      ∃ p : Process, p.pid = pid ∧
        OperatorRules.commands (Program.verifyRules name args s runtime pid d).2.2 =
          p.commands := by
  unfold Program.verifyRules
  cases CommandLine.parse args with
  | error e => exact .inl rfl
  | ok request =>
    cases request with
    | help | version => exact .inl rfl
    | verify config =>
      exact .inr ⟨⟨{ config }, s, .ofConfig config pid, runtime config.ociBin, .ok s.cwd.path, d⟩,
        rfl, rfl⟩

end Process

/-! ## Any order -/

section
variable {ι : Type} [DecidableEq ι] {start left left' : ι → List Command}
  {log : List (ι × Command)} {x : ι × Command}

/-- One of the processes asks for the first command that it has left. -/
inductive Step : (ι → List Command) → ι × Command → (ι → List Command) → Prop where
  | ask {left : ι → List Command} {i : ι} {c : Command} {rest : List Command}
      (h : left i = c :: rest) : Step left (i, c) (Function.update left i rest)

/-- The processes ask in any order: what each has left at first, all that is asked, and what each
has left then. -/
inductive Interleaving : (ι → List Command) → List (ι × Command) → (ι → List Command) → Prop where
  | nil (start : ι → List Command) : Interleaving start [] start
  | cons {start next left : ι → List Command} {x : ι × Command} {log : List (ι × Command)}
      (hx : Step start x next) (h : Interleaving next log left) : Interleaving start (x :: log) left

def asked (i : ι) (log : List (ι × Command)) : List Command :=
  log.filterMap fun x => if x.1 = i then some x.2 else none

theorem asked_append (i : ι) (log log' : List (ι × Command)) :
    asked i (log ++ log') = asked i log ++ asked i log' :=
  List.filterMap_append ..

theorem asked_cons_self (i : ι) (c : Command) (log : List (ι × Command)) :
    asked i ((i, c) :: log) = c :: asked i log := by
  simp [asked]

theorem mem_asked {i : ι} {c : Command} : c ∈ asked i log ↔ (i, c) ∈ log := by
  simp [asked, List.mem_filterMap]

/-- A step asks for the next command of one process, and the others have left what they had. -/
theorem Step.asked_singleton (h : Step left x left') (i : ι) :
    asked i [x] ++ left' i = left i := by
  cases h with
  | @ask j c rest h =>
    by_cases hj : j = i
    · subst hj
      rw [asked_cons_self, Function.update_self, h]
      rfl
    · rw [Function.update_of_ne (Ne.symm hj)]
      simp [asked, hj]

namespace Interleaving

/-- Each process has asked for the first of its commands and has the others left. -/
theorem asked_append_left (h : Interleaving start log left) (i : ι) :
    asked i log ++ left i = start i := by
  induction h with
  | nil => rfl
  | cons hx _ ih =>
    rw [← List.singleton_append, asked_append, List.append_assoc, ih, hx.asked_singleton]

theorem asked_prefix (h : Interleaving start log left) (i : ι) : asked i log <+: start i :=
  ⟨left i, h.asked_append_left i⟩

theorem mem_start (h : Interleaving start log left) {i : ι} {c : Command} (hc : (i, c) ∈ log) :
    c ∈ start i :=
  (h.asked_prefix i).subset (mem_asked.2 hc)

/-- What keeps apart the commands of one process and those of any two keeps apart all. -/
theorem pairwise {R : Command → Command → Prop} (h : Interleaving start log left)
    (hown : ∀ i, (start i).Pairwise R)
    (hother : ∀ i j, i ≠ j → ∀ c ∈ start i, ∀ c' ∈ start j, R c c') :
    log.Pairwise fun x y => R x.2 y.2 := by
  refine List.pairwise_iff_forall_sublist.2 ?_
  rintro ⟨i, c⟩ ⟨j, c'⟩ hsub
  by_cases hij : i = j
  · subst hij
    have hpair : [c, c'].Sublist (asked i log) := by
      have hasked := hsub.filterMap fun x : ι × Command => if x.1 = i then some x.2 else none
      simpa [asked] using hasked
    have hstart := hpair.trans (h.asked_prefix i).sublist
    exact List.pairwise_iff_forall_sublist.1 (hown i) hstart
  · have hmem := hsub.subset
    exact hother i j hij c (h.mem_start (hmem (by simp))) c' (h.mem_start (hmem (by simp)))

end Interleaving

end

/-! ## The containers of one process -/

namespace Promtool

def startedNames (l : List Command) : List String := l.filterMap fun c => startedName? c.2

theorem startedNames_cons {program : String} {args : List String} {name : String}
    (hname : startedName? args = some name) (l : List Command) :
    startedNames ((program, args) :: l) = name :: startedNames l :=
  List.filterMap_cons_some hname

/-- The commands do not start two containers of one name. -/
def StartApart (c c' : Command) : Prop :=
  ∀ name, startedName? c.2 = some name → ∀ name', startedName? c'.2 = some name' → name ≠ name'

theorem StartApart.symm {c c' : Command} (h : StartApart c c') : StartApart c' c :=
  fun name hname name' hname' => (h name' hname' name hname).symm

theorem startedNames_nodup_iff {l : List Command} :
    (startedNames l).Nodup ↔ l.Pairwise StartApart := List.pairwise_filterMap

end Promtool

namespace ContainerPromtool

variable {p : ContainerPromtool} {ends : List String → RunOutcome}

theorem startedNames_runCommands {stage : Stage} {args : List String} {name : String}
    (hname : startedName? args = some name) (o : RunOutcome) :
    startedNames (p.runCommands stage args o) = [name] := by
  cases o <;> exact startedNames_cons hname _

theorem Course.startedNames_prefix {rulesPath testsPath : Except VerifyError String}
    {l : List Command} {r : Except VerifyError Unit} (h : p.Course ends rulesPath testsPath l r) :
    startedNames l <+: [containerName p.pid .lint, containerName p.pid .unitTest] := by
  have hlint (rules : String) := p.startedName?_checkArguments rules
  have hunit (rules tests : String) := p.startedName?_testArguments rules tests
  cases h with
  | unreached => exact List.nil_prefix
  | lint =>
    rw [startedNames_runCommands (hlint _)]
    exact ⟨[containerName p.pid .unitTest], rfl⟩
  | pathless =>
    rw [startedNames_cons (hlint _)]
    exact ⟨[containerName p.pid .unitTest], rfl⟩
  | unitTest =>
    refine ⟨[], ?_⟩
    rw [List.append_nil, startedNames_cons (hlint _), startedNames_runCommands (hunit ..)]

end ContainerPromtool

/-- Before a removal stands the run past its time limit that named the container. -/
theorem Promtool.Tidy.overdue_before {program program' : String} {ends : List String → RunOutcome}
    {l before after : List Command} {args : List String} {name : String} (h : Tidy program ends l)
    (hl : l = before ++ (program', args) :: after) (hname : removedName? args = some name) :
    ∃ run kill, (program', run) ∈ before ∧ startedName? run = some name ∧
      ends run = .overdue kill := by
  have hstarts {run : List String} {started : String} (hrun : startedName? run = some started) :
      run ≠ args := by
    rintro rfl
    rw [removedName?_of_startedName? hrun] at hname
    cases hname
  induction h generalizing before with
  | nil => simp at hl
  | @run run started l hrun _ _ ih =>
    cases before with
    | nil => exact absurd (Prod.mk.inj (List.cons.inj hl).1).2 (hstarts hrun)
    | cons c before =>
      obtain ⟨run', kill, hmem, hrest⟩ := ih (List.cons.inj hl).2
      exact ⟨run', kill, List.mem_cons_of_mem _ hmem, hrest⟩
  | @overdue run started kill l hrun hends _ ih =>
    match before, hl with
    | [], hl => exact absurd (Prod.mk.inj (List.cons.inj hl).1).2 (hstarts hrun)
    | [c], hl =>
      -- this is the removal of the run before it
      obtain ⟨hc, hl⟩ := List.cons.inj hl
      obtain ⟨hprogram, rfl⟩ := Prod.mk.inj (List.cons.inj hl).1
      obtain rfl : started = name := Option.some.inj hname
      refine ⟨run, kill, ?_, hrun, hends⟩
      rw [← hc, ← hprogram]
      exact List.mem_singleton_self _
    | c :: c' :: before, hl =>
      obtain ⟨run', kill', hmem, hrest⟩ := ih (List.cons.inj (List.cons.inj hl).2).2
      exact ⟨run', kill', List.mem_cons_of_mem _ (List.mem_cons_of_mem _ hmem), hrest⟩

namespace Process

variable {p : Process} {c : Command} {name : String}

theorem course (p : Process) :
    p.promtool.Course p.ends (p.verifier.rulesPath p.surroundings p.disk p.cwd)
      (absolute p.cwd p.verifier.config.testsFile) p.commands
      (p.verifier.runStages p.surroundings (p.promtool.engine p.runtime p.cwd) p.disk).result :=
  p.verifier.course_verify p.surroundings p.promtool p.runtime p.cwd p.disk

theorem startedNames_nodup (p : Process) : (startedNames p.commands).Nodup := by
  refine List.Nodup.sublist p.course.startedNames_prefix.sublist ?_
  simpa using containerName_lint_ne_unitTest p.promtool.pid

/-- The containers that a process starts have its number in their names. -/
theorem exists_containerName (hc : c ∈ p.commands) (hname : startedName? c.2 = some name) :
    ∃ stage, name = containerName p.pid stage := by
  have hmem := p.course.startedNames_prefix.subset (List.mem_filterMap.2 ⟨c, hc, hname⟩)
  rcases List.mem_cons.1 hmem with rfl | hmem
  · exact ⟨.lint, rfl⟩
  · exact ⟨.unitTest, List.mem_singleton.1 hmem⟩

/-! ## The containers of all processes -/

/-- However processes with different numbers interleave, no two of their commands start containers
of one name. Each removal follows a run past its time limit of the same process, and that run is the
only command of all that starts a container of the name that is removed. -/
theorem containers_apart {ι : Type} [DecidableEq ι] (processes : ι → Process)
    (hpid : ∀ i j, (processes i).pid = (processes j).pid → i = j) {log : List (ι × Command)}
    {left : ι → List Command} (h : Interleaving (fun i => (processes i).commands) log left) :
    (startedNames (log.map Prod.snd)).Nodup ∧
    ∀ before i program args after name, log = before ++ (i, program, args) :: after →
      removedName? args = some name →
        ∃ run kill, (i, program, run) ∈ before ∧ (processes i).ends run = .overdue kill ∧
          startedName? run = some name ∧
          ∀ x ∈ log, startedName? x.2.2 = some name → x = (i, program, run) := by
  have hapart : log.Pairwise fun x y => StartApart x.2 y.2 := by
    refine h.pairwise (fun i => startedNames_nodup_iff.1 (processes i).startedNames_nodup) ?_
    rintro i j hij c hc c' hc' name hname _ hname' rfl
    obtain ⟨stage, rfl⟩ := exists_containerName hc hname
    obtain ⟨stage', hsame⟩ := exists_containerName hc' hname'
    exact hij (hpid i j (containerName_inj hsame).1)
  refine ⟨startedNames_nodup_iff.2 (List.pairwise_map.2 hapart),
    fun before i program args after name hlog hname => ?_⟩
  have hcommands : (processes i).commands =
      asked i before ++ (program, args) :: (asked i after ++ left i) := by
    have hi := h.asked_append_left i
    rw [hlog, asked_append, asked_cons_self, List.append_assoc, List.cons_append] at hi
    exact hi.symm
  obtain ⟨run, kill, hrun, hstarted, hends⟩ :=
    (processes i).course.tidy.overdue_before hcommands hname
  have hrun := mem_asked.1 hrun
  refine ⟨run, kill, hrun, hends, hstarted, fun x hx hxname => ?_⟩
  by_contra hne
  have hsymm : Std.Symm fun x y : ι × Command => StartApart x.2 y.2 := ⟨fun _ _ => StartApart.symm⟩
  have hmem : (i, program, run) ∈ log := hlog ▸ List.mem_append_left _ hrun
  exact hapart.forall hx hmem hne name hxname name hstarted rfl

/-- Two processes on files of the same names, one late with its check and the other with its tests,
whose commands alternate: each removal is of the container of the late run. -/
theorem containers_apart_two_late :
    let late (word : String) : ContainerRuntime :=
      ⟨fun args => if word ∈ args then .overdue none else .exited 0, fun _ => .exited 0⟩
    let process (pid : Nat) (word : String) : Process := {
      verifier := {
        config := .ofPaths "podman" "rules.json" "tests.yaml"
        runbook := some .default }
      surroundings := { cwd := ["w"], tempName := ".tmp1" }
      promtool := ⟨"podman", "prometheus", .ofSeconds 600, pid⟩
      runtime := fun _ => late word
      cwd := .ok ['/', 'w']
      disk := ⟨[(["w"], .directory)]⟩ }
    let processes : Bool → Process := fun b => if b then process 42 "check" else process 4 "test"
    (∀ i j, (processes i).pid = (processes j).pid → i = j) ∧
      ∃ log left, Interleaving (fun i => (processes i).commands) log left ∧
        startedNames (log.map Prod.snd) =
          ["prom-rule-ci-42-check", "prom-rule-ci-4-check", "prom-rule-ci-4-test"] ∧
        (startedNames (log.map Prod.snd)).Nodup ∧
        log.getLast? = some (false, "podman", ["rm", "-f", "prom-rule-ci-4-test"]) ∧
        ∃ run, startedName? run = some "prom-rule-ci-4-test" ∧
          ∀ x ∈ log, startedName? x.2.2 = some "prom-rule-ci-4-test" →
            x = (false, "podman", run) := by
  intro late process processes
  have hpid : ∀ i j, (processes i).pid = (processes j).pid → i = j := by decide
  let check (pid : Nat) : Command :=
    ("podman", checkArguments pid "prometheus" "/w/rules.json")
  let test (pid : Nat) : Command :=
    ("podman", testArguments pid "prometheus" "/w/rules.json" "/w/tests.yaml")
  let remove (pid : Nat) (stage : Stage) : Command := ("podman", removeArguments pid stage)
  have hstart : (fun i => (processes i).commands) = fun b =>
      if b then [check 42, remove 42 .lint] else [check 4, test 4, remove 4 .unitTest] := by
    funext b
    cases b <;> decide +kernel
  obtain ⟨left, h⟩ : ∃ left, Interleaving (fun i => (processes i).commands) [(true, check 42),
      (false, check 4), (true, remove 42 .lint), (false, test 4), (false, remove 4 .unitTest)]
      left := by
    rw [hstart]
    exact ⟨_, .cons (.ask rfl) (.cons (.ask rfl) (.cons (.ask rfl) (.cons (.ask rfl)
      (.cons (.ask rfl) (.nil _)))))⟩
  have hname : containerName 4 .unitTest = "prom-rule-ci-4-test" := by decide +kernel
  obtain ⟨hnodup, hremovals⟩ := containers_apart processes hpid h
  obtain ⟨run, -, -, -, hrun, honly⟩ := hremovals [(true, check 42), (false, check 4),
    (true, remove 42 .lint), (false, test 4)] false "podman" (removeArguments 4 .unitTest) []
    (containerName 4 .unitTest) rfl rfl
  rw [hname] at hrun honly
  exact ⟨hpid, _, left, h, by decide +kernel, hnodup, by decide +kernel, run, hrun, honly⟩

end Process

end OperatorRules
