import OperatorRules.Proofs.Disk.StaleFile
import OperatorRules.Proofs.Verification.Trace

/-!
# When a verification calls its engine

`CallsInOrder` says which calls a verification makes of its engine: none before the rule file is
complete, the check first and once, the tests only after a check that passed. Each call finds the
rule file of the template in force (`CallsInOrder.findsRuleFile`). What was at the target before
and, where a template is given, what the environment says have no part in the calls and the result
(`verify_alike`, `verify_given_template`).
-/

namespace OperatorRules

/-- No call of the engine changes what the path shows. -/
structure RuleEngine.KeepsTarget (engine : RuleEngine) (cwd : Location) (path : String) : Prop where
  check (d : Disk) (rules : String) : (engine.check d rules).disk.at? cwd path = d.at? cwd path
  test (d : Disk) (rules tests : String) :
    (engine.test d rules tests).disk.at? cwd path = d.at? cwd path

/-- Whether an action is a call of the engine. -/
def Action.isCall : Action → Bool
  | check .. | test .. => true
  | _ => false

/-- The calls of the engine, in order. -/
def calls (t : List Action) : List Action := t.filter Action.isCall

theorem calls_eq_filterMap (t : List Action) :
    calls t = t.filterMap (Option.guard Action.isCall) := by
  rw [List.filterMap_eq_filter, calls]

theorem overlooks_isCall : Overlooks (Option.guard Action.isCall) := ⟨fun _ => rfl, fun _ _ => rfl⟩

theorem filterMap_isCall_engine (l : List EngineAction) :
    (l.map Action.engine).filterMap (Option.guard Action.isCall) = [] := by
  rw [List.filterMap_map]
  exact List.filterMap_eq_nil_iff.2 fun _ _ => rfl

namespace Verifier

variable {v : Verifier} {s : Surroundings} {engine : RuleEngine} {d : Disk}

/-! ## Which calls are made -/

/-- The calls that a verification makes, by how far its stages come: the check after the rule file
was written, the tests after the check passed. -/
inductive CallsInOrder (v : Verifier) (s : Surroundings) (engine : RuleEngine) (d : Disk) :
    List Action → Prop where
  | none {stage : Stage} {e : VerifyError} (h : v.FailsAt s engine d stage e)
      (hstage : stage = .setupRules ∨ stage = .serializeToFile) : CallsInOrder v s engine d []
  | check {t : RunbookTemplate} {e : VerifyError} (ht : v.template s = .ok t)
      (hw : (v.write s d t).result = .ok ()) (hc : (v.checked s engine d t).result = .error e) :
      CallsInOrder v s engine d [.check v.config.targetFile (v.write s d t).disk]
  | both {t : RunbookTemplate} (ht : v.template s = .ok t)
      (hw : (v.write s d t).result = .ok ()) (hc : (v.checked s engine d t).result = .ok ()) :
      CallsInOrder v s engine d [.check v.config.targetFile (v.write s d t).disk,
        .test v.config.targetFile v.config.testsFile (v.checked s engine d t).disk]

theorem calls_runCheck (v : Verifier) (engine : RuleEngine) (d : Disk) :
    calls (v.runCheck engine d).trace = .check v.config.targetFile d ::
      match (engine.check d v.config.targetFile).result with
      | .error _ => []
      | .ok () => [.test v.config.targetFile v.config.testsFile
          (engine.check d v.config.targetFile).disk] := by
  have hcall {a : Action} (ha : a.isCall) (l : List EngineAction) :
      (a :: l.map .engine).filterMap (Option.guard Action.isCall) = [a] := by
    rw [List.filterMap_cons_some (b := a) (by simp [ha]), filterMap_isCall_engine]
  have h := filterMap_runCheck overlooks_isCall v engine d
  rw [filterMap_runTests overlooks_isCall, hcall rfl, hcall rfl] at h
  rw [calls_eq_filterMap]
  exact h

theorem calls_verify_of_error {c : RuleError} (ht : v.template s = .error c) :
    calls (v.verify s engine d).trace = [] := by
  rw [calls_eq_filterMap, filterMap_verify overlooks_isCall,
    filterMap_runStages_of_error overlooks_isCall ht]

theorem calls_verify_of_ok {t : RunbookTemplate} (ht : v.template s = .ok t) :
    calls (v.verify s engine d).trace =
      match (v.write s d t).result with
      | .error _ => []
      | .ok () => calls (v.runCheck engine (v.write s d t).disk).trace := by
  simp only [calls_eq_filterMap]
  exact (filterMap_verify overlooks_isCall v s engine d).trans
    (filterMap_runStages_of_ok overlooks_isCall ht)

theorem callsInOrder_verify (v : Verifier) (s : Surroundings) (engine : RuleEngine) (d : Disk) :
    v.CallsInOrder s engine d (calls (v.verify s engine d).trace) := by
  cases ht : v.template s with
  | error c =>
    rw [calls_verify_of_error ht]
    exact .none (.setupRules ht) (.inl rfl)
  | ok t =>
    rw [calls_verify_of_ok ht]
    cases hw : (v.write s d t).result with
    | error p => exact .none (.serializeToFile ht hw) (.inr rfl)
    | ok _ =>
      simp only [calls_runCheck]
      split
      · next hc => exact .check ht hw hc
      · next hc => exact .both ht hw hc

/-! ## What the calls find -/

theorem at?_of_write {t : RunbookTemplate} (hw : (v.write s d t).result = .ok ()) :
    (v.write s d t).disk.at? s.cwd v.config.targetFile =
      some (.file AtomicWrite.fileMode (v.ruleFile t).toUTF8) :=
  AtomicWrite.at?_of_ok hw

/-- A call finds at the target the rule file of the registry that setup makes of an empty one, for
the namespace of the settings and with the template in force. -/
def FindsRuleFile (v : Verifier) (s : Surroundings) (call : Action) : Prop :=
  ∃ t d', v.template s = .ok t ∧
    (let registry := ((∅ : Registry).setup v.config.ns t).registry
     let rules := (PrometheusRule.build registry v.config.ns).spec.ruleFile
     d'.at? s.cwd v.config.targetFile = some (.file 0o644 rules.toUTF8)) ∧
    (call = .check v.config.targetFile d' ∨
      call = .test v.config.targetFile v.config.testsFile d')

theorem CallsInOrder.findsRuleFile (hengine : engine.KeepsTarget s.cwd v.config.targetFile)
    {l : List Action} (h : v.CallsInOrder s engine d l) : ∀ a ∈ l, v.FindsRuleFile s a := by
  intro a ha
  cases h with
  | none => cases ha
  | check ht hw =>
    obtain rfl := List.mem_singleton.1 ha
    exact ⟨_, _, ht, at?_of_write hw, .inl rfl⟩
  | both ht hw =>
    rcases List.mem_pair.1 ha with rfl | rfl
    · exact ⟨_, _, ht, at?_of_write hw, .inl rfl⟩
    · exact ⟨_, _, ht, (hengine.check ..).trans (at?_of_write hw), .inr rfl⟩

/-! ## What has no part in a verification -/

/-- A verification that is given a template does not look at the environment. -/
theorem verify_given_template (h : v.runbook.isSome) (raw : Option ByteArray) :
    v.verify { s with rawTemplate? := raw } engine d = v.verify s engine d := by
  have htemplate : v.template { s with rawTemplate? := raw } = v.template s := by
    obtain ⟨t, ht⟩ := Option.isSome_iff_exists.1 h
    simp [template, ht]
  have hstages : v.runStages { s with rawTemplate? := raw } engine d = v.runStages s engine d := by
    unfold runStages
    rw [htemplate]
    rfl
  unfold verify
  rw [hstages]
  rfl

/-- After a write that succeeds, only the disk that it leaves matters. -/
theorem runStages_of_write (engine : RuleEngine) {t : RunbookTemplate} (ht : v.template s = .ok t)
    (hw : (v.write s d t).result = .ok ()) :
    (v.runStages s engine d).result = (v.runCheck engine (v.write s d t).disk).result ∧
      (v.runStages s engine d).disk = (v.runCheck engine (v.write s d t).disk).disk := by
  simp [runStages, ht, runSerialize, hw]

open Disk in
/-- Disks that differ at most in the file at the target see the same calls and the same result. -/
theorem verify_alike {d' : Disk} {l : Location} {slashed : Bool} (hs : s.Regular)
    (hname : s.NamesApart d v.config.targetFile) (h : AlikeOff l d d')
    (hsp : d.spot s.cwd v.config.targetFile = .ok (.named l slashed))
    (hname' : s.NamesApart d' v.config.targetFile) :
    calls (v.verify s engine d').trace = calls (v.verify s engine d).trace ∧
      (v.verify s engine d').result = (v.verify s engine d).result := by
  cases ht : v.template s with
  | error c =>
    rw [calls_verify_of_error ht, calls_verify_of_error ht,
      verify_result_of_failsAt (.setupRules ht), verify_result_of_failsAt (.setupRules ht)]
    exact ⟨rfl, rfl⟩
  | ok t =>
    rw [calls_verify_of_ok ht, calls_verify_of_ok ht]
    obtain ⟨hresult, hdisk⟩ :=
      AtomicWrite.writeAtomically_alike hs hname h hsp hname' (v.ruleFile t).toUTF8
    cases hw : (v.write s d t).result with
    | error p =>
      have hw' : (v.write s d' t).result = .error p := hresult.trans hw
      rw [hw', verify_result_of_failsAt (.serializeToFile ht hw),
        verify_result_of_failsAt (.serializeToFile ht hw')]
      exact ⟨rfl, rfl⟩
    | ok _ =>
      have hw' : (v.write s d' t).result = .ok () := hresult.trans hw
      have hdisk : (v.write s d' t).disk = (v.write s d t).disk := hdisk hw
      obtain ⟨hr, hd⟩ := runStages_of_write engine ht hw
      obtain ⟨hr', hd'⟩ := runStages_of_write engine ht hw'
      rw [hw', verify_result, verify_result, hr, hr', hd, hd', hdisk]
      exact ⟨rfl, rfl⟩

/-! ## The whole verification -/

open Disk in
/-- A verification calls its engine in order, and each call finds the rule file that the template
in force and the namespace of the settings give. A file that was at the target before, however
stale, changes neither the calls nor the result, against none before as long as the temporary file
is not called like the target; where a template is given, the environment changes nothing at all. If
no template is in force there is no call, and the result tells why. -/
theorem verify_calls (v : Verifier) (s : Surroundings) (engine : RuleEngine) (d : Disk)
    (hengine : engine.KeepsTarget s.cwd v.config.targetFile) :
    let outcome := v.verify s engine d
    v.CallsInOrder s engine d (calls outcome.trace) ∧
    (∀ a ∈ calls outcome.trace, v.FindsRuleFile s a) ∧
    (∀ l slashed mode stale, s.Regular → s.NamesApart d v.config.targetFile →
      d.spot s.cwd v.config.targetFile = .ok (.named l slashed) → d.get? l ≠ some .directory →
      calls (v.verify s engine (d.put l (.file mode stale))).trace = calls outcome.trace ∧
        (v.verify s engine (d.put l (.file mode stale))).result = outcome.result) ∧
    (v.runbook.isSome → ∀ raw, v.verify { s with rawTemplate? := raw } engine d = outcome) ∧
    (∀ c, v.template s = .error c →
      calls outcome.trace = [] ∧ outcome.result = .error (.rules c)) := by
  intro outcome
  have horder := callsInOrder_verify v s engine d
  refine ⟨horder, horder.findsRuleFile hengine, fun l slashed mode stale hs hname hsp hl => ?_,
    verify_given_template, fun c hc => ⟨?_, ?_⟩⟩
  · exact verify_alike hs hname (alikeOff_put hl mode stale) hsp
      (AtomicWrite.namesApart_put hname hsp hl mode)
  · exact calls_verify_of_error hc
  · exact verify_result_of_failsAt (.setupRules hc)

/-- The tests fail on rules that the check passed: both calls are made, and an old file at the
target makes no difference. -/
theorem verify_calls_over_stale :
    let engine : RuleEngine := {
      check := fun d _ => ⟨.ok (), d, []⟩
      test := fun d _ _ => ⟨.error (.commandFailed .unitTest (some 1)), d, []⟩ }
    let v : Verifier := {
      config := .ofPaths "podman" "rules.json" "tests.yaml"
      runbook := some .default }
    let s : Surroundings := { cwd := ["w"], tempName := ".tmp1" }
    let d : Disk := ⟨[(["w"], .directory)]⟩
    let stale : Disk := d.put ["w", "rules.json"] (.file 0o600 "[]".toUTF8)
    engine.KeepsTarget ["w"] "rules.json" ∧ s.Regular ∧ s.NamesApart d "rules.json" ∧
      d.spot ["w"] "rules.json" = .ok (.named ["w", "rules.json"] false) ∧
      d.get? ["w", "rules.json"] ≠ some .directory ∧
      (calls (v.verify s engine d).trace).length = 2 ∧
      calls (v.verify s engine stale).trace = calls (v.verify s engine d).trace ∧
      (v.verify s engine stale).result = (v.verify s engine d).result ∧
      ∀ a ∈ calls (v.verify s engine d).trace, v.FindsRuleFile s a := by
  intro engine v s d stale
  have hengine : engine.KeepsTarget ["w"] "rules.json" := ⟨fun _ _ => rfl, fun _ _ _ => rfl⟩
  have hs : s.Regular := by decide
  have hname : s.NamesApart d "rules.json" := fun _ => by decide
  have hsp : d.spot ["w"] "rules.json" = .ok (.named ["w", "rules.json"] false) := by rfl
  have hl : d.get? ["w", "rules.json"] ≠ some .directory := by decide
  obtain ⟨-, hfinds, hstale, -⟩ := verify_calls v s engine d hengine
  obtain ⟨hcalls, hresult⟩ :=
    hstale ["w", "rules.json"] false 0o600 "[]".toUTF8 hs hname hsp hl
  exact ⟨hengine, hs, hname, hsp, hl, by decide +kernel, hcalls, hresult, hfinds⟩

end Verifier

end OperatorRules
