import OperatorRules.Proofs.AtomicWrite
import OperatorRules.Verification.Run

/-!
# Verifications clean up after themselves

`FailsAt` says which stage of a verification fails first, and with what error; `StagesPass` says
that none does. `verify_leaves_no_trace` puts together what a verification does to the disk and
which error it returns: the removal of the rule file comes last and comes once, its outcome decides
what is left at the path, nothing else on the disk has changed, and an error of a stage is never
covered by an error of the removal.
-/

namespace OperatorRules

/-- The engine leaves every file as it is. -/
structure RuleEngine.LeavesFiles (engine : RuleEngine) : Prop where
  check (d : Disk) (rules : String) : (engine.check d rules).disk = d
  test (d : Disk) (rules tests : String) : (engine.test d rules tests).disk = d

/-- Whether an action is an attempt to remove a file. -/
def Action.IsRemoval : Action → Prop
  | remove .. => True
  | _ => False

/-- A trace without an attempt to remove a file. -/
def RemovesNothing (t : List Action) : Prop := ∀ a ∈ t, ¬ a.IsRemoval

/-- An attempt to remove a file that leaves nothing behind: it succeeds, or there is nothing. -/
def Cleared : Except SystemError Unit → Prop
  | .ok () => True
  | .error e => e = .notFound

namespace Verifier

open Disk

/-! ## Stages -/

/-- How the engine checks the rule file that a template gives. -/
def checked (v : Verifier) (s : Surroundings) (engine : RuleEngine) (d : Disk)
    (t : RunbookTemplate) : Outcome EngineAction :=
  engine.check (v.write s d t).disk v.config.targetFile

/-- How the engine runs the tests on that file. -/
def tested (v : Verifier) (s : Surroundings) (engine : RuleEngine) (d : Disk)
    (t : RunbookTemplate) : Outcome EngineAction :=
  engine.test (v.checked s engine d t).disk v.config.targetFile v.config.testsFile

/-- The first stage that fails, and its error: all stages before it succeed. -/
inductive FailsAt (v : Verifier) (s : Surroundings) (engine : RuleEngine) (d : Disk) :
    Stage → VerifyError → Prop where
  | setupRules {c : RuleError} (ht : v.template s = .error c) :
      FailsAt v s engine d .setupRules (.rules c)
  | serializeToFile {t : RunbookTemplate} {path : String} {c : IoError}
      (ht : v.template s = .ok t) (hw : (v.write s d t).result = .error (path, c)) :
      FailsAt v s engine d .serializeToFile (.io path c)
  | lint {t : RunbookTemplate} {e : VerifyError} (ht : v.template s = .ok t)
      (hw : (v.write s d t).result = .ok ()) (hc : (v.checked s engine d t).result = .error e) :
      FailsAt v s engine d .lint e
  | unitTest {t : RunbookTemplate} {e : VerifyError} (ht : v.template s = .ok t)
      (hw : (v.write s d t).result = .ok ()) (hc : (v.checked s engine d t).result = .ok ())
      (hu : (v.tested s engine d t).result = .error e) : FailsAt v s engine d .unitTest e

/-- Every stage succeeds. -/
def StagesPass (v : Verifier) (s : Surroundings) (engine : RuleEngine) (d : Disk) : Prop :=
  ∃ t, v.template s = .ok t ∧ (v.write s d t).result = .ok () ∧
    (v.checked s engine d t).result = .ok () ∧ (v.tested s engine d t).result = .ok ()

variable {v : Verifier} {s : Surroundings} {engine : RuleEngine} {d : Disk}

/-! ## Results of the stages -/

theorem runTests_result (v : Verifier) (engine : RuleEngine) (d : Disk) :
    (v.runTests engine d).result =
      (engine.test d v.config.targetFile v.config.testsFile).result := by
  simp only [runTests]
  split
  · next h => exact h.symm
  · next h => exact h.symm

theorem runCheck_result (v : Verifier) (engine : RuleEngine) (d : Disk) :
    (v.runCheck engine d).result = ((engine.check d v.config.targetFile).result >>= fun _ =>
      (engine.test (engine.check d v.config.targetFile).disk v.config.targetFile
        v.config.testsFile).result) := by
  simp only [runCheck]
  split
  · next h => rw [h, Except.error_bind]
  · next h => rw [h, Except.ok_bind, runTests_result]

theorem runStages_result_of_error {c : RuleError} (ht : v.template s = .error c) :
    (v.runStages s engine d).result = .error (.rules c) := by
  simp only [runStages, ht]

theorem runStages_result_of_ok {t : RunbookTemplate} (ht : v.template s = .ok t) :
    (v.runStages s engine d).result =
      ((v.write s d t).result.mapError fun p => .io p.1 p.2) >>= fun _ =>
        (v.checked s engine d t).result >>= fun _ => (v.tested s engine d t).result := by
  simp only [runStages, ht, runSerialize]
  cases (v.write s d t).result with
  | error p => rfl
  | ok _ => exact runCheck_result v engine _

theorem runStages_result_of_stagesPass (h : v.StagesPass s engine d) :
    (v.runStages s engine d).result = .ok () := by
  obtain ⟨t, ht, hw, hc, hu⟩ := h
  rw [runStages_result_of_ok ht, hw, hc, hu]
  rfl

theorem runStages_result_of_failsAt {stage : Stage} {e : VerifyError}
    (h : v.FailsAt s engine d stage e) : (v.runStages s engine d).result = .error e := by
  cases h with
  | setupRules ht => exact runStages_result_of_error ht
  | serializeToFile ht hw => rw [runStages_result_of_ok ht, hw]; rfl
  | lint ht hw hc => rw [runStages_result_of_ok ht, hw, hc]; rfl
  | unitTest ht hw hc hu => rw [runStages_result_of_ok ht, hw, hc, hu]; rfl

/-- Either all stages pass or one is the first to fail. -/
theorem stagesPass_or_failsAt (v : Verifier) (s : Surroundings) (engine : RuleEngine) (d : Disk) :
    v.StagesPass s engine d ∨ ∃ stage e, v.FailsAt s engine d stage e := by
  cases ht : v.template s with
  | error c => exact .inr ⟨_, _, .setupRules ht⟩
  | ok t =>
    cases hw : (v.write s d t).result with
    | error p => exact .inr ⟨_, _, .serializeToFile ht hw⟩
    | ok _ =>
      cases hc : (v.checked s engine d t).result with
      | error e => exact .inr ⟨_, _, .lint ht hw hc⟩
      | ok _ =>
        cases hu : (v.tested s engine d t).result with
        | error e => exact .inr ⟨_, _, .unitTest ht hw hc hu⟩
        | ok _ => exact .inl ⟨t, ht, hw, hc, hu⟩

theorem runStages_result_eq_error_iff {e : VerifyError} :
    (v.runStages s engine d).result = .error e ↔ ∃ stage, v.FailsAt s engine d stage e := by
  refine ⟨fun h => ?_, fun ⟨stage, hf⟩ => runStages_result_of_failsAt hf⟩
  obtain hp | ⟨stage, e', hf⟩ := stagesPass_or_failsAt v s engine d
  · rw [runStages_result_of_stagesPass hp] at h; cases h
  · rw [runStages_result_of_failsAt hf] at h; cases h; exact ⟨stage, hf⟩

theorem not_stagesPass_of_failsAt {stage : Stage} {e : VerifyError}
    (h : v.FailsAt s engine d stage e) : ¬ v.StagesPass s engine d := by
  intro hp
  have he := runStages_result_of_failsAt h
  rw [runStages_result_of_stagesPass hp] at he
  cases he

/-! ## The disk after the stages -/

theorem runTests_disk (h : engine.LeavesFiles) : (v.runTests engine d).disk = d := by
  simp only [runTests]
  split <;> exact h.test ..

theorem runCheck_disk (h : engine.LeavesFiles) : (v.runCheck engine d).disk = d := by
  simp only [runCheck]
  split
  · exact h.check ..
  · rw [runTests_disk h, h.check]

theorem runStages_disk_of_ok (h : engine.LeavesFiles) {t : RunbookTemplate}
    (ht : v.template s = .ok t) : (v.runStages s engine d).disk = (v.write s d t).disk := by
  simp only [runStages, ht, runSerialize]
  split
  · rfl
  · exact runCheck_disk h

/-- The stages make and remove no directory and touch no file but the target. -/
theorem runStages_disk (h : engine.LeavesFiles) :
    d.SameDirectories (v.runStages s engine d).disk ∧
      d.UnchangedOff s.cwd v.config.targetFile (v.runStages s engine d).disk := by
  cases ht : v.template s with
  | error c =>
    simp only [runStages, ht]
    exact ⟨.of_get? fun _ => rfl, fun _ _ => rfl⟩
  | ok t =>
    rw [runStages_disk_of_ok h ht]
    obtain ⟨-, hl⟩ | ⟨-, l, hsp, hnd, hl⟩ := writeAtomically_cases (w := v.write s d t) rfl
    · exact ⟨.of_get? hl, fun l _ => hl l⟩
    · exact ⟨hl.sameDirectories hnd (by simp), .of_updated hsp hl⟩

/-! ## What is removed -/

section
variable {t t' : List Action}

@[simp] theorem removesNothing_nil : RemovesNothing [] := by simp [RemovesNothing]

@[simp] theorem removesNothing_append :
    RemovesNothing (t ++ t') ↔ RemovesNothing t ∧ RemovesNothing t' := List.forall_mem_append

@[simp] theorem removesNothing_cons {a : Action} :
    RemovesNothing (a :: t) ↔ ¬ a.IsRemoval ∧ RemovesNothing t := List.forall_mem_cons

@[simp] theorem removesNothing_map_engine (l : List EngineAction) :
    RemovesNothing (l.map .engine) := by
  simp [RemovesNothing, Action.IsRemoval]

@[simp] theorem removesNothing_map_report (l : List Event) : RemovesNothing (l.map .report) := by
  simp [RemovesNothing, Action.IsRemoval]

@[simp] theorem not_isRemoval_report (e : Event) : ¬ (Action.report e).IsRemoval := id

@[simp] theorem not_isRemoval_check (rules : String) (d : Disk) :
    ¬ (Action.check rules d).IsRemoval := id

@[simp] theorem not_isRemoval_test (rules tests : String) (d : Disk) :
    ¬ (Action.test rules tests d).IsRemoval := id

@[simp] theorem not_isRemoval_stageEvent (level : Level) (stage : Stage)
    (fields : List (String × FieldValue)) : ¬ (stageEvent level stage fields).IsRemoval := id

end

theorem runTests_removesNothing (v : Verifier) (engine : RuleEngine) (d : Disk) :
    RemovesNothing (v.runTests engine d).trace := by
  simp only [runTests]
  split <;> simp

theorem runCheck_removesNothing (v : Verifier) (engine : RuleEngine) (d : Disk) :
    RemovesNothing (v.runCheck engine d).trace := by
  simp only [runCheck]
  split <;> simp [runTests_removesNothing]

theorem runStages_removesNothing (v : Verifier) (s : Surroundings) (engine : RuleEngine)
    (d : Disk) : RemovesNothing (v.runStages s engine d).trace := by
  simp only [runStages, runSerialize]
  split
  · simp
  · split <;> simp [runCheck_removesNothing]

theorem unlink_of_removal_ok {d' : Disk} (h : v.removal s d = .ok d') :
    d.unlink s.cwd v.config.targetFile = .ok d' := by
  unfold removal at h
  split at h
  · cases h
  · exact h

theorem unlink_of_removal_notFound (h : v.removal s d = .error .notFound) :
    d.unlink s.cwd v.config.targetFile = .error .notFound := by
  unfold removal at h
  split at h
  · next e he => cases h; exact absurd he s.refusals.remove_ne_notFound
  · exact h

/-- The removal of the rule file is the last thing that the cleanup does. Either it clears the
path, or the cleanup fails with its error and leaves the disk as it is. -/
theorem cleanup_cases (v : Verifier) (s : Surroundings) (d : Disk) :
    ∃ removed, (v.cleanup s d).trace =
        [stageEvent .debug .cleanup [("path", .text v.config.targetFile)],
          .remove v.config.targetFile removed] ∧
      ((Cleared removed ∧ (v.cleanup s d).result = .ok () ∧
          (d.unlink s.cwd v.config.targetFile = .ok (v.cleanup s d).disk ∨
            d.unlink s.cwd v.config.targetFile = .error .notFound ∧ (v.cleanup s d).disk = d)) ∨
        ∃ c, c ≠ .notFound ∧ removed = .error c ∧ (v.cleanup s d).disk = d ∧
          (v.cleanup s d).result = .error (.io v.config.targetFile (.system c))) := by
  simp only [cleanup]
  cases hr : v.removal s d with
  | ok d' => exact ⟨.ok (), rfl, .inl ⟨trivial, rfl, .inl (unlink_of_removal_ok hr)⟩⟩
  | error c =>
    refine ⟨.error c, ?_, ?_⟩
    · cases c <;> rfl
    by_cases hc : c = .notFound
    · subst hc
      exact .inl ⟨rfl, rfl, .inr ⟨unlink_of_removal_notFound hr, rfl⟩⟩
    · refine .inr ⟨c, hc, rfl, ?_⟩
      cases c <;> first | exact ⟨rfl, rfl⟩ | exact absurd rfl hc

theorem cleanup_unchangedOff (v : Verifier) (s : Surroundings) (d : Disk) :
    d.UnchangedOff s.cwd v.config.targetFile (v.cleanup s d).disk := by
  obtain ⟨_, -, ⟨-, -, hu | ⟨-, hd⟩⟩ | ⟨_, -, -, hd, -⟩⟩ := cleanup_cases v s d
  · exact unchangedOff_of_unlink hu
  · rw [hd]; exact fun _ _ => rfl
  · rw [hd]; exact fun _ _ => rfl

/-! ## The whole verification -/

/-- What a verification reports of an error of the cleanup that it does not return. -/
def droppedReport (dropped : VerifyError) : Action :=
  .report ⟨.error, some "cleanup failed after an earlier error",
    [("error", .text dropped.message)]⟩

theorem verify_disk (v : Verifier) (s : Surroundings) (engine : RuleEngine) (d : Disk) :
    (v.verify s engine d).disk = (v.cleanup s (v.runStages s engine d).disk).disk := by
  simp only [verify]
  split <;> rfl

theorem verify_result (v : Verifier) (s : Surroundings) (engine : RuleEngine) (d : Disk) :
    (v.verify s engine d).result = ((v.runStages s engine d).result >>= fun _ =>
      (v.cleanup s (v.runStages s engine d).disk).result) := by
  simp only [verify]
  split
  · next h => rw [h, Except.ok_bind]
  · next h _ => rw [h, Except.error_bind]
  · next h _ => rw [h, Except.error_bind]

theorem verify_result_of_stagesPass (h : v.StagesPass s engine d) :
    (v.verify s engine d).result = (v.cleanup s (v.runStages s engine d).disk).result := by
  rw [verify_result, runStages_result_of_stagesPass h, Except.ok_bind]

theorem verify_result_of_failsAt {stage : Stage} {e : VerifyError}
    (h : v.FailsAt s engine d stage e) : (v.verify s engine d).result = .error e := by
  rw [verify_result, runStages_result_of_failsAt h, Except.error_bind]

theorem verify_trace (v : Verifier) (s : Surroundings) (engine : RuleEngine) (d : Disk) :
    ∃ opening after, (v.verify s engine d).trace =
        .report opening :: (v.runStages s engine d).trace ++
          (v.cleanup s (v.runStages s engine d).disk).trace ++ after ∧
      (after = [] ∨ ∃ dropped, after = [droppedReport dropped]) := by
  simp only [verify]
  split
  · exact ⟨_, [], (List.append_nil _).symm, .inl rfl⟩
  · exact ⟨_, [], (List.append_nil _).symm, .inl rfl⟩
  · exact ⟨_, _, rfl, .inr ⟨_, rfl⟩⟩

/-- A verification removes the rule file once and last, whatever happened before. Unless that
removal fails, nothing is left at the path of the target; every location that this path does not
lead to is as it was, so no temporary file is left either. The error of the first stage that fails
is returned whether or not the removal fails, and an error of the removal only if all stages
pass. -/
theorem verify_leaves_no_trace (v : Verifier) (s : Surroundings) (engine : RuleEngine) (d : Disk)
    (h : engine.LeavesFiles) :
    ∃ before removed after,
      (v.verify s engine d).trace =
        before ++ .remove v.config.targetFile removed :: after ∧
      RemovesNothing before ∧ (after = [] ∨ ∃ dropped, after = [droppedReport dropped]) ∧
      (Cleared removed → (v.verify s engine d).disk.at? s.cwd v.config.targetFile = none) ∧
      d.UnchangedOff s.cwd v.config.targetFile (v.verify s engine d).disk ∧
      ((v.verify s engine d).result = .ok () ↔ v.StagesPass s engine d ∧ Cleared removed) ∧
      ∀ e, (v.verify s engine d).result = .error e ↔
        (∃ stage, v.FailsAt s engine d stage e) ∨
          (v.StagesPass s engine d ∧ ∃ c, removed = .error c ∧ c ≠ .notFound ∧
            e = .io v.config.targetFile (.system c)) := by
  obtain ⟨opening, after, htrace, hafter⟩ := v.verify_trace s engine d
  obtain ⟨hs, hoff⟩ := runStages_disk (v := v) (s := s) (d := d) h
  obtain ⟨removed, hcleaned, hcases⟩ := v.cleanup_cases s (v.runStages s engine d).disk
  refine ⟨.report opening :: (v.runStages s engine d).trace ++
      [stageEvent .debug .cleanup [("path", .text v.config.targetFile)]], removed, after,
    ?_, ?_, hafter, ?_, ?_, ?_, ?_⟩
  · rw [htrace, hcleaned]; simp
  · simp [runStages_removesNothing]
  · intro hcleared
    rw [verify_disk]
    obtain ⟨-, -, hu | ⟨hu, hd⟩⟩ | ⟨c, hc, rfl, -⟩ := hcases
    · exact at?_of_unlink_ok hu
    · rw [hd]; exact at?_of_unlink_notFound hu
    · exact absurd hcleared hc
  · rw [verify_disk]
    exact hoff.trans hs (v.cleanup_unchangedOff s _)
  · obtain hp | ⟨stage, e, hf⟩ := v.stagesPass_or_failsAt s engine d
    · rw [verify_result_of_stagesPass hp]
      obtain ⟨hcleared, hok, -⟩ | ⟨c, hc, rfl, -, herror⟩ := hcases
      · simp [hok, hp, hcleared]
      · simp [herror, Cleared, hc]
    · rw [verify_result_of_failsAt hf]
      simp [not_stagesPass_of_failsAt hf]
  · intro e
    obtain hp | ⟨stage, e', hf⟩ := v.stagesPass_or_failsAt s engine d
    · have hnone : ¬ ∃ stage, v.FailsAt s engine d stage e := fun ⟨_, hf⟩ =>
        not_stagesPass_of_failsAt hf hp
      rw [verify_result_of_stagesPass hp]
      obtain ⟨hcleared, hok, -⟩ | ⟨c, hc, rfl, -, herror⟩ := hcases
      · simp only [hok, hnone, hp, true_and, false_or, reduceCtorEq, false_iff]
        rintro ⟨c, rfl, hc, -⟩
        exact hc hcleared
      · simp [herror, hnone, hp, hc, eq_comm]
    · rw [← runStages_result_eq_error_iff, runStages_result_of_failsAt hf,
        verify_result_of_failsAt hf]
      simp [not_stagesPass_of_failsAt hf]

/-- The rules are refused and so is the removal of the file: the first error is the one returned,
and only the target has changed. -/
theorem verify_leaves_no_trace_refused :
    let engine : RuleEngine := {
      check := fun d _ => ⟨.error (.commandFailed .lint (some 1)), d, []⟩
      test := fun d _ _ => ⟨.ok (), d, []⟩ }
    let v : Verifier := {
      config := .ofPaths "podman" "rules.json" "tests.yaml"
      runbook := some .default }
    let s : Surroundings := {
      cwd := ["w"]
      tempName := ".tmp1"
      refusals := { remove := some .permissionDenied } }
    let d : Disk := ⟨[(["w"], .directory), (["w", "rules.json"], .file 0o600 ByteArray.empty)]⟩
    engine.LeavesFiles ∧
      (v.verify s engine d).result = .error (.commandFailed .lint (some 1)) ∧
      d.UnchangedOff ["w"] "rules.json" (v.verify s engine d).disk := by
  intro engine v s d
  have h : engine.LeavesFiles := ⟨fun _ _ => rfl, fun _ _ _ => rfl⟩
  have hw : (v.write s d .default).result = .ok () := by
    have hok : (v.write s d .default).result.isOk = true := by decide +kernel
    cases hr : (v.write s d .default).result with
    | ok _ => rfl
    | error e => rw [hr] at hok; cases hok
  obtain ⟨_, _, _, -, -, -, -, hoff, -, herror⟩ := verify_leaves_no_trace v s engine d h
  exact ⟨h, (herror _).2 (.inl ⟨.lint, .lint rfl hw rfl⟩), hoff⟩

end Verifier

end OperatorRules
