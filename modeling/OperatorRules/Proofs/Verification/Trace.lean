import OperatorRules.Proofs.Verification

/-!
# What is read off the trace of a verification

Besides reports and removals, what happens in a verification are its calls of the engine and what
the engine does in them. So whatever is read off a trace and overlooks the former (`Overlooks`) is
read off these calls, as far as the stages come (`filterMap_runStages_of_ok`, `filterMap_runCheck`).
-/

namespace OperatorRules

/-- What is read off a trace takes no notice of reports and of removals. -/
structure Overlooks {β : Type} (f : Action → Option β) : Prop where
  report (e : Event) : f (.report e) = none
  remove (path : String) (result : Except SystemError Unit) : f (.remove path result) = none

namespace Verifier

variable {β : Type} {f : Action → Option β} {v : Verifier} {s : Surroundings}
  {engine : RuleEngine} {d : Disk}

theorem filterMap_reports (hf : Overlooks f) (l : List Event) :
    (l.map Action.report).filterMap f = [] := by
  rw [List.filterMap_map]
  exact List.filterMap_eq_nil_iff.2 fun e _ => hf.report e

theorem filterMap_stageEvent (hf : Overlooks f) (level : Level) (stage : Stage)
    (fields : List (String × FieldValue)) (t : List Action) :
    (stageEvent level stage fields :: t).filterMap f = t.filterMap f :=
  List.filterMap_cons_none (hf.report _)

theorem filterMap_runTests (hf : Overlooks f) (v : Verifier) (engine : RuleEngine) (d : Disk) :
    (v.runTests engine d).trace.filterMap f =
      (.test v.config.targetFile v.config.testsFile d ::
        (engine.test d v.config.targetFile v.config.testsFile).trace.map .engine).filterMap f := by
  simp only [runTests]
  split
  · exact filterMap_stageEvent hf ..
  · rw [List.filterMap_append, List.filterMap_cons_none (hf.report _), List.filterMap_nil,
      List.append_nil]
    exact filterMap_stageEvent hf ..

theorem filterMap_runCheck (hf : Overlooks f) (v : Verifier) (engine : RuleEngine) (d : Disk) :
    (v.runCheck engine d).trace.filterMap f =
      (.check v.config.targetFile d ::
        (engine.check d v.config.targetFile).trace.map .engine).filterMap f ++
        match (engine.check d v.config.targetFile).result with
        | .error _ => []
        | .ok () =>
          (v.runTests engine (engine.check d v.config.targetFile).disk).trace.filterMap f := by
  cases hc : (engine.check d v.config.targetFile).result with
  | error e =>
    simp only [runCheck, hc, List.append_nil]
    exact filterMap_stageEvent hf ..
  | ok _ =>
    simp only [runCheck, hc]
    rw [List.filterMap_append]
    exact congrArg (· ++ _) (filterMap_stageEvent hf ..)

theorem filterMap_runStages_of_error (hf : Overlooks f) {c : RuleError}
    (ht : v.template s = .error c) : (v.runStages s engine d).trace.filterMap f = [] := by
  simp [runStages, ht, filterMap_stageEvent hf]

theorem filterMap_runStages_of_ok (hf : Overlooks f) {t : RunbookTemplate}
    (ht : v.template s = .ok t) :
    (v.runStages s engine d).trace.filterMap f =
      match (v.write s d t).result with
      | .error _ => []
      | .ok () => (v.runCheck engine (v.write s d t).disk).trace.filterMap f := by
  cases hw : (v.write s d t).result <;>
    simp [runStages, ht, runSerialize, hw, filterMap_stageEvent hf, filterMap_reports hf]

theorem filterMap_verify (hf : Overlooks f) (v : Verifier) (s : Surroundings)
    (engine : RuleEngine) (d : Disk) :
    (v.verify s engine d).trace.filterMap f = (v.runStages s engine d).trace.filterMap f := by
  obtain ⟨opening, after, htrace, hafter⟩ := v.verify_trace s engine d
  obtain ⟨removed, hcleaned, -⟩ := v.cleanup_cases s (v.runStages s engine d).disk
  have hnone : after.filterMap f = [] := by
    obtain rfl | ⟨dropped, rfl⟩ := hafter
    · rfl
    · exact List.filterMap_cons_none (hf.report _)
  simp [htrace, hcleaned, hnone, filterMap_stageEvent hf, hf.report, hf.remove]

end Verifier

end OperatorRules
