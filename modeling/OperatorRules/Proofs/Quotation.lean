import OperatorRules.Proofs.Lint
import OperatorRules.Proofs.Runbook.Splits

/-!
# Messages that quote a text

Two messages show a text that they were given: that of a template which is none, and that of a label
with a value that it must not have. They quote it, and a quoted text has no character that would
break the line, ends where its quotes end and reads back as it was (`quotes_quote`). So the messages
tell which text they are about, also where the text looks like an escape or like the rest of the
message.
-/

namespace OperatorRules

open Text

namespace Text

/-- Control characters. -/
def Control (c : Char) : Prop := c.toNat < 0x20 ∨ 0x7f ≤ c.toNat ∧ c.toNat < 0xa0

/-- The characters that break a line, of which the last two are no control characters. -/
def lineBreaks : List Char := ['\n', '\x0b', '\x0c', '\r', '\u0085', '\u2028', '\u2029']

/-- The quoted form of a text: between its quotes every double quote is escaped, the one at its end
is not, no character is a control character or breaks a line, and it reads back as the text. -/
structure Quotes (quoted s : String) : Prop where
  between : ∃ inner, quoted.toList = '"' :: inner ++ ['"'] ∧
    (∀ before after, inner = before ++ '"' :: after → Odd (backslashes before)) ∧
    ¬ Odd (backslashes inner)
  visible : ∀ c ∈ quoted.toList, ¬ Control c ∧ c ∉ lineBreaks
  unquoted : unquoted? quoted.toList = some s.toList

theorem isUnprintable_of_lineBreak {c : Char} (hc : c ∈ lineBreaks) : isUnprintable c = true := by
  have hall : lineBreaks.all isUnprintable = true := by decide +kernel
  exact List.all_eq_true.1 hall c hc

theorem quotes_quote (s : String) : Quotes (quote s) s where
  between := by
    have hescaped := escaped_escape s.toList
    refine ⟨escape s.toList, toList_quote s, fun before after h => ?_, hescaped.not_odd_backslashes⟩
    rw [h] at hescaped
    exact hescaped.odd_backslashes
  visible c hc := by
    rw [toList_quote] at hc
    have hvisible := isUnprintable_of_mem_quoted hc
    refine ⟨fun hcontrol => ?_, fun hbreak => ?_⟩
    · rw [isUnprintable_of_control hcontrol] at hvisible
      cases hvisible
    · rw [isUnprintable_of_lineBreak hbreak] at hvisible
      cases hvisible
  unquoted := by
    rw [toList_quote]
    exact unquoted?_quoted s.toList

end Text

/-! ## Templates -/

namespace RunbookTemplate

/-- The message about a text that is no template shows the text quoted, behind words that do not
depend on it. -/
theorem message_of_parse_error {text : String} {e : RuleError} (h : parse text = .error e) :
    ∃ rest, e.message = "invalid runbook URL template " ++ (quote text ++ rest) := by
  have hmessage (found : Nat) : (RuleError.invalidRunbookTemplate text found).message =
      "invalid runbook URL template " ++ quote text ++
        ": expected exactly one %s placeholder, found " ++ String.ofList (decimal found) := rfl
  by_cases hone : Runbook.slots text.toList = 1
  · rw [parse_of_slots hone] at h
    cases h
  · rw [parse_of_slots_ne hone] at h
    cases h
    rw [hmessage, String.append_assoc, String.append_assoc]
    exact ⟨_, rfl⟩

/-- Different texts that are no templates have different messages. -/
theorem message_inj_of_parse_error {text text' : String} {e e' : RuleError}
    (h : parse text = .error e) (h' : parse text' = .error e') :
    e.message = e'.message ↔ text = text' := by
  constructor
  · intro hmessage
    obtain ⟨rest, hrest⟩ := message_of_parse_error h
    obtain ⟨rest', hrest'⟩ := message_of_parse_error h'
    rw [hrest, hrest', String.append_right_inj, quote_append_inj] at hmessage
    exact hmessage.1
  · rintro rfl
    rw [h] at h'
    cases h'
    rfl

end RunbookTemplate

/-! ## Labels -/

namespace Lint

/-- The labels of an alert that are checked, each with the values it may have. -/
def checkedLabels : List (String × List String) := [
  ("severity", ["critical", "warning", "info"]),
  ("operator_health_impact", ["none", "warning", "critical"])]

theorem checkLabel_mem_alertChecks :
    ∀ x ∈ checkedLabels, checkLabel x.1 x.2 ∈ alertChecks := by
  simp [checkedLabels, alertChecks, severityKey, severities, healthImpactKey, healthImpacts]

theorem mem_findings {α : Type} [Named α] {checks : List (α → Option String)} {rule : α}
    {p : Problem} :
    p ∈ findings checks rule ↔
      ∃ check ∈ checks, ∃ message, check rule = some message ∧ p = ⟨nameOf rule, message⟩ := by
  simp only [findings, List.mem_map, List.mem_filterMap, @eq_comm _ p]
  constructor
  · rintro ⟨message, ⟨check, hcheck, hmessage⟩, hp⟩
    exact ⟨check, hcheck, message, hmessage, hp⟩
  · rintro ⟨check, hcheck, message, hmessage, hp⟩
    exact ⟨message, ⟨check, hcheck, hmessage⟩, hp⟩

/-- The problem about a label that must not have its value. -/
def labelProblem (a : AlertRule) (key : String) (allowed : List String) (value : String) :
    Problem where
  rule := a.name
  message := key ++ " label must be one of " ++ ", ".intercalate allowed ++ ", got " ++ quote value

theorem labelProblem_inj {a a' : AlertRule} {key value value' : String} {allowed : List String} :
    labelProblem a key allowed value = labelProblem a' key allowed value' ↔
      a.name = a'.name ∧ value = value' := by
  rw [labelProblem, labelProblem, Problem.mk.injEq, String.append_right_inj, quote_inj]

section
variable {a : AlertRule} {key value : String} {allowed : List String}

theorem checkLabel_of_notMem (hvalue : a.labels.value? key = some value)
    (hallowed : value ∉ allowed) :
    checkLabel key allowed a = some (labelProblem a key allowed value).message := by
  rw [checkLabel, hvalue]
  exact if_neg hallowed

theorem findings_checkLabel (hvalue : a.labels.value? key = some value)
    (hallowed : value ∉ allowed) :
    findings [checkLabel key allowed] a = [labelProblem a key allowed value] := by
  have hcheck := checkLabel_of_notMem hvalue hallowed
  simp only [findings, List.filterMap_cons, hcheck, List.filterMap_nil, List.map_cons, List.map_nil]
  rfl

theorem labelProblem_mem_alerts (hkey : (key, allowed) ∈ checkedLabels)
    (hvalue : a.labels.value? key = some value) (hallowed : value ∉ allowed) :
    labelProblem a key allowed value ∈ alerts [a] := by
  rw [alerts, List.flatMap_singleton, mem_findings]
  exact ⟨_, checkLabel_mem_alertChecks _ hkey, _, checkLabel_of_notMem hvalue hallowed, rfl⟩

end

end Lint

open Lint

/-- The quoted form of a text shows it on one line and in full. Messages about different texts that
are no templates are different, whatever the texts look like, and so are the problems about one
label of alerts of one name with different values, neither of which it may have. -/
theorem messages_quote :
    (∀ s, Quotes (quote s) s) ∧
    (∀ text text' e e', RunbookTemplate.parse text = .error e →
      RunbookTemplate.parse text' = .error e' →
        (∃ before after, e.message = before ++ (quote text ++ after)) ∧
          (e.message = e'.message ↔ text = text')) ∧
    ∀ key allowed, (key, allowed) ∈ checkedLabels → ∀ (a a' : AlertRule) (value value' : String),
      a.labels.value? key = some value → a'.labels.value? key = some value' →
      value ∉ allowed → value' ∉ allowed →
        ∃ p p', findings [checkLabel key allowed] a = [p] ∧
          findings [checkLabel key allowed] a' = [p'] ∧ p ∈ alerts [a] ∧ p' ∈ alerts [a'] ∧
          (∃ before, p.message = before ++ quote value) ∧
          (p = p' ↔ a.name = a'.name ∧ value = value') := by
  refine ⟨quotes_quote, fun text text' e e' h h' => ⟨?_, ?_⟩, ?_⟩
  · exact ⟨_, RunbookTemplate.message_of_parse_error h⟩
  · exact RunbookTemplate.message_inj_of_parse_error h h'
  · intro key allowed hkey a a' value value' hvalue hvalue' hallowed hallowed'
    exact ⟨labelProblem a key allowed value, labelProblem a' key allowed value',
      findings_checkLabel hvalue hallowed, findings_checkLabel hvalue' hallowed',
      labelProblem_mem_alerts hkey hvalue hallowed, labelProblem_mem_alerts hkey hvalue' hallowed',
      ⟨_, rfl⟩, labelProblem_inj⟩

/-- A text without a slot and one that goes on like the message about it, and two severities of
which one looks like the escape of the other. -/
theorem messages_quote_lookalikes :
    let text := "a"
    let text' := "a\", found 0"
    let e : RuleError := .invalidRunbookTemplate text 0
    let e' : RuleError := .invalidRunbookTemplate text' 0
    let a := (AlertRule.ofExpr "A" "up").label "severity" "\n"
    let a' := (AlertRule.ofExpr "A" "up").label "severity" "\\n"
    (RunbookTemplate.parse text = .error e ∧ RunbookTemplate.parse text' = .error e' ∧
      e.message ≠ e'.message) ∧
    ∃ p p', p ∈ alerts [a] ∧ p' ∈ alerts [a'] ∧ p ≠ p' := by
  intro text text' e e' a a'
  have h : RunbookTemplate.parse text = .error e := by decide +kernel
  have h' : RunbookTemplate.parse text' = .error e' := by decide +kernel
  obtain ⟨-, hmessages, hproblems⟩ := messages_quote
  have hmessage : e.message ≠ e'.message := mt (hmessages text text' e e' h h').2.1 (by decide)
  obtain ⟨p, p', -, -, hp, hp', -, hiff⟩ :=
    hproblems "severity" ["critical", "warning", "info"] (by decide) a a' "\n" "\\n"
      (by decide +kernel) (by decide +kernel) (by decide) (by decide)
  exact ⟨⟨h, h', hmessage⟩, p, p', hp, hp', mt hiff.1 (by decide)⟩

end OperatorRules
