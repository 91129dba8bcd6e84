import Mathlib.Data.Char
import Mathlib.Data.List.Nodup
import Mathlib.Data.Set.Insert
import Mathlib.Order.Interval.Set.Defs
import OperatorRules.Lint
import OperatorRules.Proofs.Roster
import OperatorRules.Proofs.Text.Quoted
import OperatorRules.Registry

/-!
# What rules are held to

Each kind of rule is held to a list of conditions, stated without the checks that test them. The
findings about a rule are the conditions that it does not meet, in their order (`findings_eq`), so a
rule conforms exactly if there is none (`report_eq_nil_iff`). The openings of the messages tell the
conditions apart (`nodup_report`), names tell the rules of a registry apart, and so a report about
a registry says nothing twice (`nodup_flatMap_report`).
-/

namespace OperatorRules.Lint

/-! ## Texts -/

def capitals : Set Char := Set.Icc 'A' 'Z'

def letters : Set Char := capitals ∪ Set.Icc 'a' 'z'

def digits : Set Char := Set.Icc '0' '9'

/-- The texts that `^[first][rest]*$` matches: a character of the first class, then characters of the
second up to the very end. -/
def Word (first rest : Set Char) (s : String) : Prop :=
  ∃ c cs, s.toList = c :: cs ∧ c ∈ first ∧ ∀ d ∈ cs, d ∈ rest

/-- The names of alerts: `^[A-Z][a-zA-Z0-9]*$`. -/
def PascalCase : String → Prop := Word capitals (letters ∪ digits)

/-- The names of metrics: `^[a-zA-Z_:][a-zA-Z0-9_:]*$`. -/
def MetricName : String → Prop := Word (letters ∪ {'_', ':'}) (letters ∪ {'_', ':'} ∪ digits)

/-- A character of the text is not white space. -/
def Visible (s : String) : Prop := ∃ c ∈ s.toList, Text.isSpace c = false

theorem isCapital_iff {c : Char} : isCapital c = true ↔ c ∈ capitals := by
  simp [isCapital, capitals]

theorem isLetter_iff {c : Char} : isLetter c = true ↔ c ∈ letters := by
  simp [isLetter, letters, isCapital_iff]

theorem isDigit_iff {c : Char} : Text.isDigit c = true ↔ c ∈ digits := by
  simp [Text.isDigit, digits]

theorem word_iff {first rest : Set Char} {test : List Char → Bool} (hnil : test [] = false)
    (hcons : ∀ c cs, test (c :: cs) = true ↔ c ∈ first ∧ ∀ d ∈ cs, d ∈ rest) {s : String} :
    test s.toList = true ↔ Word first rest s := by
  cases h : s.toList with
  | nil => simp [Word, h, hnil]
  | cons c cs => simp [Word, h, hcons]

theorem isPascalCase_iff {s : String} : isPascalCase s.toList = true ↔ PascalCase s :=
  word_iff rfl fun c cs => by simp [isPascalCase, isCapital_iff, isLetter_iff, isDigit_iff]

theorem startsMetricName_iff {c : Char} :
    startsMetricName c = true ↔ c ∈ letters ∪ {'_', ':'} := by
  simp only [startsMetricName, Bool.or_eq_true, isLetter_iff, beq_iff_eq, or_assoc]
  rfl

theorem isMetricName_iff {s : String} : isMetricName s.toList = true ↔ MetricName s :=
  word_iff rfl fun c cs => by
    simp only [isMetricName, Bool.and_eq_true, List.all_eq_true, Bool.or_eq_true,
      startsMetricName_iff, isDigit_iff]
    rfl

theorem isBlank_iff {s : String} : Text.isBlank s = true ↔ ¬ Visible s := by
  simp [Text.isBlank, Visible]

instance : DecidablePred PascalCase := fun _ => decidable_of_iff _ isPascalCase_iff
instance : DecidablePred MetricName := fun _ => decidable_of_iff _ isMetricName_iff

-- the end of a name is the end of the text, not the end of its line
example : ¬ PascalCase "SomethingDown\n" := by decide

-- by name, as all characters may be gone through instead of those of the text
instance : DecidablePred Visible := fun s =>
  List.decidableBEx (fun c => Text.isSpace c = false) s.toList

/-! ## Conditions -/

/-- What rules are held to, and what is said of a rule that does not meet it. -/
structure Condition (α : Type) where
  Meets : α → Prop
  complaint : α → String
  decidableMeets : DecidablePred Meets := by infer_instance

instance {α : Type} (c : Condition α) (rule : α) : Decidable (c.Meets rule) :=
  c.decidableMeets rule

def alertName : Condition AlertRule where
  Meets a := PascalCase a.name
  complaint a := if a.name = "" then "alert name is empty" else "alert name must be PascalCase"

def metricName : Condition RecordingRule where
  Meets r := MetricName r.name
  complaint _ := "record name is not a valid metric name"

/-- A text of the rule says something. -/
def visible {α : Type} (text : α → String) (complaint : String) : Condition α where
  Meets rule := Visible (text rule)
  complaint _ := complaint

instance (a : AlertRule) :
    Decidable (∃ summary, a.annotations.value? summaryKey = some summary ∧ Visible summary) :=
  match a.annotations.value? summaryKey with
  | none => isFalse (by simp)
  | some summary => decidable_of_iff (Visible summary) (by simp)

def summaryGiven : Condition AlertRule where
  Meets a := ∃ summary, a.annotations.value? summaryKey = some summary ∧ Visible summary
  complaint _ := "missing summary annotation"

def runbookGiven : Condition AlertRule where
  Meets a := ∃ url, a.annotations.value? runbookKey = some url
  complaint _ := "missing runbook_url annotation"
  decidableMeets _ := decidable_of_iff _ Option.isSome_iff_exists

/-- A label is there, with one of the values it may have. -/
def labelAmong (key : String) (allowed : List String) : Condition AlertRule where
  Meets a := ∃ value ∈ allowed, a.labels.value? key = some value
  complaint a :=
    match a.labels.value? key with
    | none => "missing " ++ key ++ " label"
    | some value =>
      key ++ " label must be one of " ++ ", ".intercalate allowed ++ ", got " ++ Text.quote value

def alertConditions : List (Condition AlertRule) := [
  alertName, visible AlertRule.expr "expr is empty", summaryGiven, runbookGiven,
  labelAmong "severity" ["critical", "warning", "info"],
  labelAmong "operator_health_impact" ["none", "warning", "critical"]]

def recordingRuleConditions : List (Condition RecordingRule) := [
  metricName, visible RecordingRule.expr "expr is empty",
  visible RecordingRule.help "help text is empty"]

section
variable {α : Type} [Named α] {conditions : List (Condition α)}

/-- The rule meets all it is held to. -/
def Conforms (conditions : List (Condition α)) (rule : α) : Prop := ∀ c ∈ conditions, c.Meets rule

/-- What a rule does not meet of all it is held to, in order, under its name. -/
def report (conditions : List (Condition α)) (rule : α) : List Problem :=
  (conditions.filter fun c => ¬ c.Meets rule).map fun c => ⟨nameOf rule, c.complaint rule⟩

theorem report_cons (c : Condition α) (conditions : List (Condition α)) (rule : α) :
    report (c :: conditions) rule =
      if c.Meets rule then report conditions rule
      else ⟨nameOf rule, c.complaint rule⟩ :: report conditions rule := by
  by_cases h : c.Meets rule <;> simp [report, h]

theorem mem_report {rule : α} {p : Problem} :
    p ∈ report conditions rule ↔
      ∃ c ∈ conditions, ¬ c.Meets rule ∧ p = ⟨nameOf rule, c.complaint rule⟩ := by
  simp only [report, List.mem_map, List.mem_filter, decide_eq_true_eq, and_assoc, @eq_comm _ p]

theorem report_eq_nil_iff {rule : α} : report conditions rule = [] ↔ Conforms conditions rule := by
  simp [report, Conforms]

/-! ## Checks -/

/-- The check finds nothing in a rule that meets the condition, and says what is wrong with others. -/
structure Tests (check : α → Option String) (c : Condition α) : Prop where
  pass : ∀ rule, c.Meets rule → check rule = none
  fail : ∀ rule, ¬ c.Meets rule → check rule = some (c.complaint rule)

/-- Checks that test for the conditions one by one find what is not met. -/
theorem findings_eq {checks : List (α → Option String)} (h : List.Forall₂ Tests checks conditions)
    (rule : α) : findings checks rule = report conditions rule := by
  induction h with
  | nil => rfl
  | @cons check c checks conditions hcheck _ ih =>
    rw [report_cons, ← ih]
    by_cases hmeets : c.Meets rule
    · simp [findings, hmeets, hcheck.pass rule hmeets]
    · simp [findings, hmeets, hcheck.fail rule hmeets]

end

theorem tests_alertName : Tests checkAlertName alertName where
  pass a h := by
    have hne : a.name ≠ "" := by
      intro hempty
      have hname : PascalCase "" := hempty ▸ h
      exact absurd hname (by decide)
    simp [checkAlertName, hne, isPascalCase_iff.2 h]
  fail a h := by
    have hname : ¬ PascalCase a.name := h
    simp only [checkAlertName, alertName, isPascalCase_iff, if_neg hname, String.isEmpty_iff]
    split <;> rfl

theorem tests_metricName : Tests checkMetricName metricName where
  pass _ h := if_pos (isMetricName_iff.2 h)
  fail _ h := if_neg (mt isMetricName_iff.1 h)

theorem tests_visible {α : Type} (text : α → String) (complaint : String) :
    Tests (fun rule => if Text.isBlank (text rule) then some complaint else none)
      (visible text complaint) where
  pass _ h := if_neg fun hblank => isBlank_iff.1 hblank h
  fail _ h := if_pos (isBlank_iff.2 h)

theorem tests_summaryGiven : Tests checkSummary summaryGiven where
  pass a h := by
    obtain ⟨summary, hvalue, hvisible⟩ := h
    have hblank : ¬ Text.isBlank summary = true := fun hblank => isBlank_iff.1 hblank hvisible
    simp [checkSummary, hvalue, hblank]
  fail a h := by
    cases hvalue : a.annotations.value? summaryKey with
    | none => simp [checkSummary, summaryGiven, hvalue]
    | some summary =>
      have hvisible : ¬ Visible summary := fun hvisible => h ⟨summary, hvalue, hvisible⟩
      simp [checkSummary, summaryGiven, hvalue, isBlank_iff.2 hvisible]

theorem tests_runbookGiven : Tests checkRunbook runbookGiven where
  pass a h := by
    obtain ⟨url, hvalue⟩ := h
    obtain ⟨entry, hentry, -⟩ := Option.map_eq_some_iff.1 hvalue
    simp [checkRunbook, Roster.contains, hentry]
  fail a h := by
    cases hentry : a.annotations.get? runbookKey with
    | none => simp [checkRunbook, Roster.contains, hentry, runbookGiven, missingRunbook]
    | some entry =>
      exact absurd ⟨entry.2, congrArg (Option.map Prod.snd) hentry⟩ h

theorem tests_labelAmong (key : String) (allowed : List String) :
    Tests (checkLabel key allowed) (labelAmong key allowed) where
  pass a h := by
    obtain ⟨value, hmem, hvalue⟩ := h
    simp [checkLabel, hvalue, hmem]
  fail a h := by
    cases hvalue : a.labels.value? key with
    | none => simp [checkLabel, labelAmong, hvalue]
    | some value =>
      have hmem : value ∉ allowed := fun hmem => h ⟨value, hmem, hvalue⟩
      simp [checkLabel, labelAmong, hvalue, hmem]

theorem tests_alertConditions : List.Forall₂ Tests alertChecks alertConditions :=
  .cons tests_alertName <| .cons (tests_visible ..) <| .cons tests_summaryGiven <|
  .cons tests_runbookGiven <| .cons (tests_labelAmong ..) <| .cons (tests_labelAmong ..) .nil

theorem tests_recordingRuleConditions :
    List.Forall₂ Tests recordingRuleChecks recordingRuleConditions :=
  .cons tests_metricName <| .cons (tests_visible ..) <| .cons (tests_visible ..) .nil

/-! ## Messages -/

/-- The start of a message, long enough to tell what it is about. -/
def opening (message : String) : String := String.ofList (message.toList.take 12)

theorem opening_append {s : String} (h : 12 ≤ s.length) (t : String) :
    opening (s ++ t) = opening s := by
  rw [opening, opening, String.toList_append, List.take_append_of_le_length]
  rwa [String.length_toList]

/-- What is said of a rule that does not meet the condition starts in one of these ways. -/
def Opens {α : Type} (c : Condition α) (starts : List String) : Prop :=
  ∀ rule, opening (c.complaint rule) ∈ starts

section
variable {α : Type} {conditions : List (Condition α)} {openings : List (List String)}

theorem exists_opens (h : List.Forall₂ Opens conditions openings) {c : Condition α}
    (hc : c ∈ conditions) : ∃ starts ∈ openings, Opens c starts := by
  induction h with
  | nil => cases hc
  | @cons _ starts _ openings hopens _ ih =>
    rcases List.mem_cons.1 hc with rfl | hc
    · exact ⟨starts, List.mem_cons_self .., hopens⟩
    · obtain ⟨starts', hmem, hopens'⟩ := ih hc
      exact ⟨starts', List.mem_cons_of_mem _ hmem, hopens'⟩

variable [Named α]

/-- Conditions whose messages start differently are not confused in a report. -/
theorem nodup_report (h : List.Forall₂ Opens conditions openings)
    (hapart : openings.Pairwise fun s t => ∀ o ∈ s, o ∉ t) (rule : α) :
    (report conditions rule).Nodup := by
  induction h with
  | nil => exact List.nodup_nil
  | @cons c starts conditions openings hopens hrest ih =>
    obtain ⟨hstarts, hapart⟩ := List.pairwise_cons.1 hapart
    rw [report_cons]
    split
    · exact ih hapart
    · refine List.nodup_cons.2 ⟨fun hmem => ?_, ih hapart⟩
      obtain ⟨c', hc', -, hproblem⟩ := mem_report.1 hmem
      have hmessage : c.complaint rule = c'.complaint rule := congrArg Problem.message hproblem
      obtain ⟨starts', hmem', hopens'⟩ := exists_opens hrest hc'
      exact hstarts starts' hmem' _ (hopens rule) (hmessage ▸ hopens' rule)

/-- Nor are rules with names of their own. -/
theorem nodup_flatMap_report (h : ∀ rule, (report conditions rule).Nodup) {l : List α}
    (hl : Ascending l) : (l.flatMap (report conditions)).Nodup := by
  refine List.nodup_flatMap.2 ⟨fun rule _ => h rule, hl.imp fun hlt p hp hp' => ?_⟩
  obtain ⟨c, -, -, rfl⟩ := mem_report.1 hp
  obtain ⟨c', -, -, hproblem⟩ := mem_report.1 hp'
  have hname : nameOf _ = nameOf _ := congrArg Problem.rule hproblem
  exact String.lt_irrefl _ (hname ▸ hlt)

end

theorem opens_of_constant {α : Type} {c : Condition α} {message : String} {starts : List String}
    (hconstant : ∀ rule, c.complaint rule = message) (hstart : opening message ∈ starts) :
    Opens c starts := by
  intro rule
  rwa [hconstant]

theorem opens_alertName : Opens alertName ["alert name i", "alert name m"] := by
  intro a
  by_cases h : a.name = ""
  · simp only [alertName, if_pos h]
    decide
  · simp only [alertName, if_neg h]
    decide

theorem opens_labelAmong {key : String} {allowed starts : List String}
    (hmissing : opening ("missing " ++ key ++ " label") ∈ starts)
    (hwrong : opening (key ++ " label must be one of ") ∈ starts) :
    Opens (labelAmong key allowed) starts := by
  intro a
  cases hvalue : a.labels.value? key with
  | none => simpa only [labelAmong, hvalue] using hmissing
  | some value =>
    have hlength : 12 ≤ (key ++ " label must be one of ").length := by
      rw [String.length_append, show " label must be one of ".length = 22 from rfl]
      omega
    simp only [labelAmong, hvalue]
    rw [String.append_assoc, String.append_assoc, opening_append hlength]
    exact hwrong

theorem opens_alertConditions : List.Forall₂ Opens alertConditions [
    ["alert name i", "alert name m"], ["expr is empt"], ["missing summ"], ["missing runb"],
    ["missing seve", "severity lab"], ["missing oper", "operator_hea"]] :=
  .cons opens_alertName <| .cons (opens_of_constant (fun _ => rfl) (by decide)) <|
  .cons (opens_of_constant (fun _ => rfl) (by decide)) <|
  .cons (opens_of_constant (fun _ => rfl) (by decide)) <|
  .cons (opens_labelAmong (by decide) (by decide)) <|
  .cons (opens_labelAmong (by decide) (by decide)) .nil

theorem opens_recordingRuleConditions : List.Forall₂ Opens recordingRuleConditions [
    ["record name "], ["expr is empt"], ["help text is"]] :=
  .cons (opens_of_constant (fun _ => rfl) (by decide)) <|
  .cons (opens_of_constant (fun _ => rfl) (by decide)) <|
  .cons (opens_of_constant (fun _ => rfl) (by decide)) .nil

/-- The messages of the name of an alert tell whether there is a name. -/
theorem alertName_complaint_eq_iff {a b : AlertRule} :
    alertName.complaint a = alertName.complaint b ↔ (a.name = "" ↔ b.name = "") := by
  by_cases ha : a.name = "" <;> by_cases hb : b.name = "" <;> simp [alertName, ha, hb]

/-- The messages of a label tell which value it has, if it is there. -/
theorem labelAmong_complaint_eq_iff {key : String} {allowed : List String} {a b : AlertRule} :
    (labelAmong key allowed).complaint a = (labelAmong key allowed).complaint b ↔
      a.labels.value? key = b.labels.value? key := by
  -- what is said of a wrong value is longer than what is said of none
  have hne (value : String) : "missing " ++ key ++ " label" ≠
      key ++ " label must be one of " ++ ", ".intercalate allowed ++ ", got " ++
        Text.quote value := by
    intro h
    have hlength := congrArg String.length h
    simp only [String.length_append, show "missing ".length = 8 from rfl,
      show " label".length = 6 from rfl, show " label must be one of ".length = 22 from rfl]
      at hlength
    omega
  cases ha : a.labels.value? key <;> cases hb : b.labels.value? key
  · simp [labelAmong, ha, hb]
  · simp [labelAmong, ha, hb, hne]
  · simp [labelAmong, ha, hb, (hne _).symm]
  · simp [labelAmong, ha, hb, Text.quote_inj]

/-! ## Reports -/

/-- Rule after rule, what a rule does not meet is reported and nothing else: under its name, in the
order of the conditions, and each of them once. So there is no problem exactly where all rules
conform. -/
structure ReportsUnmet {α : Type} [Named α] (conditions : List (Condition α))
    (lint : List α → List Problem) : Prop where
  eq_flatMap : ∀ l, lint l = l.flatMap (report conditions)
  once : ∀ rule, (report conditions rule).Nodup
  clean_iff : ∀ l, lint l = [] ↔ ∀ rule ∈ l, Conforms conditions rule

section
variable {α : Type} [Named α] {conditions : List (Condition α)}

theorem ReportsUnmet.of_tests {checks : List (α → Option String)} {openings : List (List String)}
    (htests : List.Forall₂ Tests checks conditions)
    (hopens : List.Forall₂ Opens conditions openings)
    (hapart : openings.Pairwise fun s t => ∀ o ∈ s, o ∉ t) :
    ReportsUnmet conditions fun l => l.flatMap (findings checks) := by
  have heq (l : List α) : l.flatMap (findings checks) = l.flatMap (report conditions) :=
    congrArg (List.flatMap · l) (funext (findings_eq htests))
  refine ⟨heq, nodup_report hopens hapart, fun l => ?_⟩
  rw [heq, List.flatMap_eq_nil_iff]
  exact forall₂_congr fun rule _ => report_eq_nil_iff

/-- A roster has no two rules of one name, so a report about it says nothing twice. -/
theorem ReportsUnmet.nodup {lint : List α → List Problem} (h : ReportsUnmet conditions lint)
    (r : Roster α) : (lint r.toList).Nodup := by
  rw [h.eq_flatMap]
  exact nodup_flatMap_report h.once r.ascending

end

theorem reportsUnmet_alerts : ReportsUnmet alertConditions alerts :=
  .of_tests tests_alertConditions opens_alertConditions (by decide)

theorem reportsUnmet_recordingRules : ReportsUnmet recordingRuleConditions recordingRules :=
  .of_tests tests_recordingRuleConditions opens_recordingRuleConditions (by decide)

/-- Linting rules of either kind reports what they do not meet. A name that is empty and one that is
otherwise wrong get different messages, and so do a label that is missing and one that has a wrong
value. About the rules of a registry, however it came about, nothing is reported twice. -/
theorem lint_reports_unmet :
    ReportsUnmet alertConditions alerts ∧ ReportsUnmet recordingRuleConditions recordingRules ∧
    (∀ a b : AlertRule,
      alertName.complaint a = alertName.complaint b ↔ (a.name = "" ↔ b.name = "")) ∧
    (∀ (key : String) (allowed : List String) (a b : AlertRule),
      (labelAmong key allowed).complaint a = (labelAmong key allowed).complaint b ↔
        a.labels.value? key = b.labels.value? key) ∧
    ∀ r : Registry, (alerts r.listAlerts).Nodup ∧ (recordingRules r.listRecordingRules).Nodup :=
  ⟨reportsUnmet_alerts, reportsUnmet_recordingRules, fun _ _ => alertName_complaint_eq_iff,
    fun _ _ _ _ => labelAmong_complaint_eq_iff,
    fun r => ⟨reportsUnmet_alerts.nodup r.alerts,
      reportsUnmet_recordingRules.nodup r.recordingRules⟩⟩

end OperatorRules.Lint
