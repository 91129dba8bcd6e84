import OperatorRules.Proofs.Promtool.Container

/-!
# The log of a verification

What a verification says about its course, told in three places: the events of its trace, the order
in which its stages run, and the stage that an error of promtool carries. `Milestone` is what the
events tell; a lemma for each part of the run says how the part and its result show in them, and
`verify_milestones` ties the three together on every way a verification can end.
-/

namespace OperatorRules

/-- A point in the course of a verification that is told by an event. -/
inductive Milestone where
  /-- A stage starts. -/
  | stage (s : Stage)
  /-- All stages are through. -/
  | verified
  /-- The cleanup failed, with an error that is not returned. -/
  | cleanupFailed (error : String)
  deriving DecidableEq, Repr

/-- The stage of a name. -/
def Stage.ofName? (name : String) : Option Stage :=
  [setupRules, buildRuleset, serializeToFile, lint, unitTest, cleanup].find? (·.name = name)

/-- What an event tells. The event of a stage has no message; its first field names the stage. -/
def Event.milestone? : Event → Option Milestone
  | ⟨_, none, ("stage", .text name) :: _⟩ => (Stage.ofName? name).map .stage
  | ⟨.info, some "prometheus rules verified", []⟩ => some .verified
  | ⟨.error, some "cleanup failed after an earlier error", [("error", .text error)]⟩ =>
    some (.cleanupFailed error)
  | _ => none

/-- What an action tells. Events of the engine are not the verification's own. -/
def Action.milestone? : Action → Option Milestone
  | report e => e.milestone?
  | _ => none

/-- What the events of a trace tell, in order. -/
def milestones (t : List Action) : List Milestone := t.filterMap Action.milestone?

/-- The stage that an error names as the one whose command did not succeed. -/
def VerifyError.stage? : VerifyError → Option Stage
  | commandFailed stage _ => some stage
  | timeout stage _ => some stage
  | _ => none

/-! ## Single events -/

section
variable {t t' : List Action}

@[simp] theorem milestones_nil : milestones [] = [] := rfl

@[simp] theorem milestones_append : milestones (t ++ t') = milestones t ++ milestones t' :=
  List.filterMap_append

@[simp] theorem milestones_check (rules : String) (d : Disk) :
    milestones (.check rules d :: t) = milestones t := rfl

@[simp] theorem milestones_test (rules tests : String) (d : Disk) :
    milestones (.test rules tests d :: t) = milestones t := rfl

@[simp] theorem milestones_remove (path : String) (result : Except SystemError Unit) :
    milestones (.remove path result :: t) = milestones t := rfl

@[simp] theorem milestones_map_engine (l : List EngineAction) :
    milestones (l.map .engine) = [] := by
  rw [milestones, List.filterMap_map]
  exact List.filterMap_eq_nil_iff.2 fun _ _ => rfl

@[simp] theorem milestones_stageEvent (level : Level) (stage : Stage)
    (fields : List (String × FieldValue)) :
    milestones (Verifier.stageEvent level stage fields :: t) = .stage stage :: milestones t := by
  have hname : Stage.ofName? stage.name = some stage := by cases stage <;> decide
  refine List.filterMap_cons_some (b := Milestone.stage stage) ?_
  show (Stage.ofName? stage.name).map Milestone.stage = _
  rw [hname]
  rfl

end

/-! ## The parts of a run -/

theorem milestone?_of_mem_register {α : Type} [Named α] {w : Wording} {r : Roster α} {l : List α}
    {e : Event} (he : e ∈ (r.register w l).2) : e.milestone? = none := by
  induction l generalizing r with
  | nil => cases he
  | cons a l ih =>
    have hmem : e ∈ w.events (nameOf a) (r.contains (nameOf a)) ∨
        e ∈ ((r.insert a).register w l).2 := List.mem_append.1 he
    obtain hhere | hlater := hmem
    · cases hr : r.contains (nameOf a) with
      | false =>
        rw [hr] at hhere
        obtain rfl := List.mem_singleton.1 hhere
        simp [Event.milestone?]
      | true =>
        rw [hr] at hhere
        obtain rfl | rfl := List.mem_pair.1 hhere <;> simp [Event.milestone?]
    · exact ih hlater

theorem milestones_map_report {l : List Event} (h : ∀ e ∈ l, e.milestone? = none) :
    milestones (l.map .report) = [] := by
  rw [milestones, List.filterMap_map]
  exact List.filterMap_eq_nil_iff.2 h

/-- Registration tells nothing of the course. -/
theorem milestones_setup (r : Registry) (ns : String) (t : RunbookTemplate) :
    milestones ((r.setup ns t).events.map .report) = [] := by
  have hrules (r : Registry) (groups : List (List RecordingRule)) :
      ∀ e ∈ (r.registerRecordingRules groups).events, e.milestone? = none :=
    fun _ => milestone?_of_mem_register
  have halerts (r : Registry) (groups : List (List AlertRule)) :
      ∀ e ∈ (r.registerAlerts groups).events, e.milestone? = none :=
    fun _ => milestone?_of_mem_register
  refine milestones_map_report fun e he => ?_
  obtain he | he := List.mem_append.1 he
  · obtain he | he := List.mem_append.1 he
    · exact hrules _ _ e he
    · exact halerts _ _ e he
  · obtain rfl := List.mem_singleton.1 he
    rfl

namespace Verifier

variable {v : Verifier} {s : Surroundings} {engine : RuleEngine} {d : Disk}

theorem milestones_runTests (v : Verifier) (engine : RuleEngine) (d : Disk) :
    milestones (v.runTests engine d).trace = .stage .unitTest ::
      match (engine.test d v.config.targetFile v.config.testsFile).result with
      | .error _ => []
      | .ok () => [.verified] := by
  cases h : (engine.test d v.config.targetFile v.config.testsFile).result with
  | error e => simp [runTests, h]
  | ok _ =>
    simp [runTests, h]
    rfl

theorem milestones_runCheck (v : Verifier) (engine : RuleEngine) (d : Disk) :
    milestones (v.runCheck engine d).trace = .stage .lint ::
      match (engine.check d v.config.targetFile).result with
      | .error _ => []
      | .ok () =>
        milestones (v.runTests engine (engine.check d v.config.targetFile).disk).trace := by
  cases h : (engine.check d v.config.targetFile).result <;> simp [runCheck, h]

theorem milestones_runStages_of_error {c : RuleError} (ht : v.template s = .error c) :
    milestones (v.runStages s engine d).trace = [.stage .setupRules] := by
  simp [runStages, ht]

theorem milestones_runStages_of_ok {t : RunbookTemplate} (ht : v.template s = .ok t) :
    milestones (v.runStages s engine d).trace =
      [.stage .setupRules, .stage .buildRuleset, .stage .serializeToFile] ++
        match (v.write s d t).result with
        | .error _ => []
        | .ok () => milestones (v.runCheck engine (v.write s d t).disk).trace := by
  cases hw : (v.write s d t).result <;>
    simp [runStages, ht, runSerialize, hw, registration, milestones_setup]

/-! ## How far the stages come -/

/-- The stages before the cleanup, in order. -/
def stages : List Stage := [.setupRules, .buildRuleset, .serializeToFile, .lint, .unitTest]

/-- The stages up to one of them. -/
def stagesThrough (stage : Stage) : List Stage := stages.take (stages.idxOf stage + 1)

theorem milestones_runStages_of_stagesPass (h : v.StagesPass s engine d) :
    milestones (v.runStages s engine d).trace = stages.map .stage ++ [.verified] := by
  obtain ⟨t, ht, hw, hc, hu⟩ := h
  simp only [checked] at hc
  simp only [tested, checked] at hu
  rw [milestones_runStages_of_ok ht, hw]
  simp only [milestones_runCheck, hc, milestones_runTests, hu]
  rfl

theorem milestones_runStages_of_failsAt {stage : Stage} {e : VerifyError}
    (h : v.FailsAt s engine d stage e) :
    milestones (v.runStages s engine d).trace = (stagesThrough stage).map .stage := by
  cases h with
  | setupRules ht => rw [milestones_runStages_of_error ht]; rfl
  | serializeToFile ht hw => rw [milestones_runStages_of_ok ht, hw]; rfl
  | lint ht hw hc =>
    simp only [checked] at hc
    rw [milestones_runStages_of_ok ht, hw]
    simp only [milestones_runCheck, hc]
    rfl
  | unitTest ht hw hc hu =>
    simp only [checked] at hc
    simp only [tested, checked] at hu
    rw [milestones_runStages_of_ok ht, hw]
    simp only [milestones_runCheck, hc, milestones_runTests, hu]
    rfl

theorem getLast?_stagesThrough {stage : Stage} {e : VerifyError}
    (h : v.FailsAt s engine d stage e) : (stagesThrough stage).getLast? = some stage := by
  cases h <;> rfl

theorem milestones_cleanup (v : Verifier) (s : Surroundings) (d : Disk) :
    milestones (v.cleanup s d).trace = [.stage .cleanup] := by
  obtain ⟨removed, htrace, -⟩ := v.cleanup_cases s d
  rw [htrace, milestones_stageEvent, milestones_remove, milestones_nil]

/-- What is told of the result of a cleanup after a stage has failed. -/
def dropped : Except VerifyError Unit → List Milestone
  | .ok () => []
  | .error c => [.cleanupFailed c.message]

theorem mem_dropped_iff {cleaned : Except VerifyError Unit} {error : String} :
    .cleanupFailed error ∈ dropped cleaned ↔ ∃ c, cleaned = .error c ∧ error = c.message := by
  cases cleaned <;> simp [dropped]

/-- What is told after the stages: the cleanup, and its error if that is not returned. -/
theorem milestones_verify (v : Verifier) (s : Surroundings) (engine : RuleEngine) (d : Disk) :
    milestones (v.verify s engine d).trace = milestones (v.runStages s engine d).trace ++
      .stage .cleanup :: match (v.runStages s engine d).result with
        | .ok () => []
        | .error _ => dropped (v.cleanup s (v.runStages s engine d).disk).result := by
  have hopening (e : Event) (he : e.milestone? = none) (t : List Action) :
      milestones (.report e :: t) = milestones t := List.filterMap_cons_none he
  have hcleaned := milestones_cleanup v s (v.runStages s engine d).disk
  simp only [verify]
  split
  · next h => simp [hopening, Event.milestone?, hcleaned, h]
  · next h h' => simp [hopening, Event.milestone?, hcleaned, h, h', dropped]
  · next c h h' =>
    rw [h, h', List.cons_append, List.cons_append, hopening _ rfl, milestones_append,
      milestones_append, hcleaned, List.append_assoc]
    rfl

end Verifier

/-! ## The stage in an error of promtool -/

namespace ContainerPromtool

variable {p : ContainerPromtool} {stage stage' : Stage} {e : VerifyError}

theorem Yields.eq_stage {o : RunOutcome} (h : p.Yields stage o (.error e))
    (he : e.stage? = some stage') : stage' = stage := by
  cases h <;> simp [VerifyError.stage?] at he <;> exact he.symm

end ContainerPromtool

theorem Promtool.stage?_of_absolute_error {cwd : Except SystemError (List Char)} {path : String}
    {e : VerifyError} (h : absolute cwd path = .error e) : e.stage? = none := by
  unfold absolute at h
  split at h
  · cases h
  · split at h
    · cases h
    · cases h; rfl

namespace ContainerPromtool

open Promtool

variable {p : ContainerPromtool} {runtime : ContainerRuntime} {stage : Stage}
  {cwd : Except SystemError (List Char)} {d : Disk} {target testsFile : String} {e : VerifyError}

theorem stage_of_check_error (h : (p.check runtime cwd d target).result = .error e)
    (he : e.stage? = some stage) : stage = .lint := by
  cases hr : absolute cwd target with
  | error e' =>
    rw [check_of_error hr] at h
    cases h
    rw [stage?_of_absolute_error hr] at he
    cases he
  | ok rules =>
    rw [check_of_ok hr] at h
    exact (h ▸ p.run_result runtime .lint _ d).eq_stage he

theorem stage_of_test_error (h : (p.test runtime cwd d target testsFile).result = .error e)
    (he : e.stage? = some stage) : stage = .unitTest := by
  cases hr : absolute cwd target with
  | error e' =>
    rw [test, hr] at h
    cases h
    rw [stage?_of_absolute_error hr] at he
    cases he
  | ok rules =>
    cases ht : absolute cwd testsFile with
    | error e' =>
      rw [test_of_error hr ht] at h
      cases h
      rw [stage?_of_absolute_error ht] at he
      cases he
    | ok tests =>
      rw [test_of_ok hr ht] at h
      exact (h ▸ p.run_result runtime .unitTest _ d).eq_stage he

end ContainerPromtool

/-! ## The whole verification -/

namespace Verifier

/-- An error that promtool in a container gives carries the stage that failed. -/
theorem FailsAt.eq_stage {v : Verifier} {s : Surroundings} {p : ContainerPromtool}
    {runtime : Disk → ContainerRuntime} {cwd : Except SystemError (List Char)} {d : Disk}
    {stage stage' : Stage} {e : VerifyError} (h : v.FailsAt s (p.engine runtime cwd) d stage e)
    (he : e.stage? = some stage') : stage' = stage := by
  cases h with
  | setupRules | serializeToFile => cases he
  | lint _ _ hc => exact ContainerPromtool.stage_of_check_error hc he
  | unitTest _ _ _ hu => exact ContainerPromtool.stage_of_test_error hu he

theorem stage?_of_cleanup_error {v : Verifier} {s : Surroundings} {d : Disk} {e : VerifyError}
    (h : (v.cleanup s d).result = .error e) : e.stage? = none := by
  obtain ⟨-, -, ⟨-, hok, -⟩ | ⟨c, -, -, -, herror⟩⟩ := v.cleanup_cases s d
  · rw [hok] at h; cases h
  · rw [herror] at h; cases h; rfl

/-- What the log of a verification tells. The stages are announced in order, as far as they come,
then the cleanup. If all succeed, that is told before the cleanup; otherwise the last one announced
is the one that fails, with the error that is returned, and with promtool in a container an error
that carries a stage carries that one. An error of the cleanup is told just if a stage failed
before, and then it is not the one returned. -/
theorem verify_milestones (v : Verifier) (s : Surroundings) (engine : RuleEngine) (d : Disk) :
    let outcome := v.verify s engine d
    let cleaned := v.cleanup s (v.runStages s engine d).disk
    ∃ reached verified last,
      milestones outcome.trace = reached.map .stage ++ verified ++ .stage .cleanup :: last ∧
      reached ≠ [] ∧
      reached <+: [.setupRules, .buildRuleset, .serializeToFile, .lint, .unitTest] ∧
      (v.StagesPass s engine d ∧ outcome.result = cleaned.result ∧
          reached = [.setupRules, .buildRuleset, .serializeToFile, .lint, .unitTest] ∧
          verified = [.verified] ∧ last = [] ∨
        ∃ stage e, v.FailsAt s engine d stage e ∧ outcome.result = .error e ∧
          reached.getLast? = some stage ∧ verified = [] ∧ last = dropped cleaned.result) ∧
      (∀ error, .cleanupFailed error ∈ milestones outcome.trace ↔
        (∃ stage e, v.FailsAt s engine d stage e) ∧
          ∃ c, cleaned.result = .error c ∧ error = c.message) ∧
      ∀ (p : ContainerPromtool) runtime cwd, engine = p.engine runtime cwd →
        ∀ e stage, outcome.result = .error e → e.stage? = some stage →
          reached.getLast? = some stage := by
  intro outcome cleaned
  have htrace := v.milestones_verify s engine d
  obtain hp | ⟨stage, e, hf⟩ := v.stagesPass_or_failsAt s engine d
  · rw [milestones_runStages_of_stagesPass hp, runStages_result_of_stagesPass hp] at htrace
    have hresult := verify_result_of_stagesPass hp
    have hnone : ¬ ∃ stage e, v.FailsAt s engine d stage e := fun ⟨_, _, hf⟩ =>
      not_stagesPass_of_failsAt hf hp
    refine ⟨stages, [.verified], [], htrace, by decide, List.prefix_refl _,
      .inl ⟨hp, hresult, rfl, rfl, rfl⟩, fun error => ?_, fun _ _ _ _ e stage he hstage => ?_⟩
    · rw [htrace]
      simp [hnone]
    · rw [hresult] at he
      rw [stage?_of_cleanup_error he] at hstage
      cases hstage
  · rw [milestones_runStages_of_failsAt hf, runStages_result_of_failsAt hf] at htrace
    have hresult := verify_result_of_failsAt hf
    have hlast := getLast?_stagesThrough hf
    refine ⟨stagesThrough stage, [], dropped cleaned.result, ?_, fun hnil => ?_,
      List.take_prefix _ _, .inr ⟨stage, e, hf, hresult, hlast, rfl, rfl⟩, fun error => ?_, ?_⟩
    · rw [List.append_nil]
      exact htrace
    · rw [hnil] at hlast
      cases hlast
    · have hsome : ∃ stage e, v.FailsAt s engine d stage e := ⟨stage, e, hf⟩
      rw [htrace]
      simpa [hsome] using mem_dropped_iff
    · rintro p runtime cwd rfl e' stage' he hstage
      rw [hresult] at he
      cases he
      rw [hf.eq_stage hstage]
      exact hlast

/-- The check takes too long and the rule file cannot be removed: the log breaks off at the check,
whose stage the error carries, and tells the error of the removal, which is not returned. -/
theorem verify_milestones_overdue :
    let v : Verifier := {
      config := .ofPaths "podman" "rules.json" "tests.yaml"
      runbook := some .default }
    let runtime : ContainerRuntime := {
      run := fun _ => .overdue none
      remove := fun _ => .exited 0 }
    let engine := (ContainerPromtool.ofConfig v.config 7).engine (fun _ => runtime) (.ok ['/', 'w'])
    let s : Surroundings := {
      cwd := ["w"]
      tempName := ".tmp1"
      refusals := { remove := some .permissionDenied } }
    let d : Disk := ⟨[(["w"], .directory)]⟩
    let outcome := v.verify s engine d
    outcome.result = .error (.timeout .lint (.ofSeconds 600)) ∧
      ∃ reached : List Stage, reached.getLast? = some .lint ∧
        milestones outcome.trace = reached.map .stage ++ [.stage .cleanup,
          .cleanupFailed "I/O error on rules.json: Permission denied (os error 13)"] := by
  intro v runtime engine s d outcome
  have hw : (v.write s d .default).result = .ok () := by
    have hok : (v.write s d .default).result.isOk = true := by decide +kernel
    cases hr : (v.write s d .default).result with
    | ok _ => rfl
    | error e => rw [hr] at hok; cases hok
  have hpath : Promtool.absolute (.ok ['/', 'w']) "rules.json" = .ok "/w/rules.json" := by rfl
  have hc : (v.checked s engine d .default).result = .error (.timeout .lint (.ofSeconds 600)) :=
    congrArg Outcome.result (ContainerPromtool.check_of_ok hpath)
  have hf : v.FailsAt s engine d .lint (.timeout .lint (.ofSeconds 600)) := .lint rfl hw hc
  have hresult : outcome.result = .error (.timeout .lint (.ofSeconds 600)) :=
    verify_result_of_failsAt hf
  obtain ⟨reached, verified, last, htrace, -, -, hends, -, hstage⟩ :=
    verify_milestones v s engine d
  have hlast := hstage _ _ _ rfl _ _ hresult rfl
  obtain ⟨hp, -⟩ | ⟨-, -, -, -, -, rfl, rfl⟩ := hends
  · exact absurd hp (not_stagesPass_of_failsAt hf)
  · have hrefused (d : Disk) :
        (v.cleanup s d).result = .error (.io "rules.json" (.system .permissionDenied)) := rfl
    have htext : dropped (.error (.io "rules.json" (.system .permissionDenied))) =
        [.cleanupFailed "I/O error on rules.json: Permission denied (os error 13)"] := by
      decide +kernel
    refine ⟨hresult, reached, hlast, ?_⟩
    rw [List.append_nil, hrefused, htext] at htrace
    exact htrace

end Verifier

end OperatorRules
