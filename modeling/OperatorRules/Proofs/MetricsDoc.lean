import Mathlib.Data.List.DropRight
import OperatorRules.Program
import OperatorRules.Proofs.Registry.Events
import OperatorRules.Proofs.Registry.Namespace
import OperatorRules.Proofs.Runbook.Environment

/-!
# What the documentation of the metrics depends on

The document shows of each rule its name, its type and the stem of its help text, which is what is
left of it without the dots at its end. Two lists of rules that agree on these in each place
(`ShownAlike`) have one document, whatever else is in the rules. Registering keeps such lists in
step (`forall₂_insertMany`), so neither the namespace nor the template of a setup is seen in what is
documented after it, and the program that prints the document has only one text to print.
-/

namespace OperatorRules

namespace MetricsDoc

/-! ## The stem of a text -/

/-- A text of nothing but dots. -/
def dots (n : Nat) : String := String.ofList (List.replicate n '.')

/-- `stem` is the text without the dots at its end. -/
structure IsStem (stem text : String) : Prop where
  eq_append : ∃ n, text = stem ++ dots n
  getLast?_ne : stem.toList.getLast? ≠ some '.'

/-- The texts differ in nothing but the number of dots at their ends. -/
def EqUpToDots (s t : String) : Prop := ∃ stem m n, s = stem ++ dots m ∧ t = stem ++ dots n

theorem trimDots_eq_rdropWhile (cs : List Char) : trimDots cs = cs.rdropWhile (· == '.') := rfl

theorem trimDots_append_dots (cs : List Char) (n : Nat) :
    trimDots (cs ++ List.replicate n '.') = trimDots cs := by
  induction n with
  | zero => simp
  | succ n ih =>
    rw [List.replicate_succ', ← List.append_assoc, trimDots_eq_rdropWhile,
      List.rdropWhile_concat_pos _ _ _ rfl, ← trimDots_eq_rdropWhile, ih]

theorem exists_trimDots_append (cs : List Char) :
    ∃ n, cs = trimDots cs ++ List.replicate n '.' := by
  have hdots : ∀ c ∈ cs.rtakeWhile (· == '.'), c = '.' := fun c hc => by
    simpa using List.mem_rtakeWhile_imp hc
  refine ⟨(cs.rtakeWhile (· == '.')).length, ?_⟩
  rw [← List.eq_replicate_length.2 hdots, trimDots_eq_rdropWhile,
    List.rdropWhile_append_rtakeWhile]

theorem getLast?_trimDots (cs : List Char) : (trimDots cs).getLast? ≠ some '.' := by
  intro h
  obtain ⟨l, hl⟩ := List.getLast?_eq_some_iff.1 h
  have hne : trimDots cs ≠ [] := by simp [hl]
  have hlast := List.rdropWhile_last_not (· == '.') cs hne
  simp only [← trimDots_eq_rdropWhile, hl] at hlast
  simp at hlast

/-- Every text has a stem, and a section shows it. -/
theorem isStem_trimDots (text : String) :
    IsStem (String.ofList (trimDots text.toList)) text where
  eq_append := by
    obtain ⟨n, hn⟩ := exists_trimDots_append text.toList
    refine ⟨n, String.toList_injective ?_⟩
    simpa [dots] using hn
  getLast?_ne := by
    rw [String.toList_ofList]
    exact getLast?_trimDots text.toList

theorem EqUpToDots.trimDots_eq {s t : String} (h : EqUpToDots s t) :
    trimDots s.toList = trimDots t.toList := by
  obtain ⟨stem, m, n, rfl, rfl⟩ := h
  simp only [dots, String.toList_append, String.toList_ofList, trimDots_append_dots]

theorem EqUpToDots.refl (s : String) : EqUpToDots s s := ⟨s, 0, 0, by simp [dots], by simp [dots]⟩

/-! ## Sections -/

/-- The rules agree on all that the document shows; nothing is said of their expressions. -/
structure ShownAlike (a b : RecordingRule) : Prop where
  name_eq : a.name = b.name
  metricType_eq : a.metricType = b.metricType
  help : EqUpToDots a.help b.help

theorem ShownAlike.refl (a : RecordingRule) : ShownAlike a a := ⟨rfl, rfl, .refl a.help⟩

/-- The text is the section about the rule, with one dot between the stem of the help text and the
type. -/
def IsSection (r : RecordingRule) (text : String) : Prop :=
  ∃ stem, IsStem stem r.help ∧
    text = "\n### " ++ r.name ++ "\n" ++ stem ++ "." ++ " Type: " ++ r.metricType.title ++ ".\n"

theorem isSection_entry (r : RecordingRule) : IsSection r (entry r) := by
  refine ⟨_, isStem_trimDots r.help, ?_⟩
  apply String.toList_injective
  simp [entry]

theorem ShownAlike.entry_eq {a b : RecordingRule} (h : ShownAlike a b) : entry a = entry b := by
  rw [entry, entry, h.name_eq, h.metricType_eq, h.help.trimDots_eq]

theorem exists_sections (rules : List RecordingRule) :
    ∃ sections, List.Forall₂ IsSection rules sections ∧
      render rules = header ++ String.join sections := by
  refine ⟨rules.map entry, ?_, rfl⟩
  rw [List.forall₂_map_right_iff, List.forall₂_same]
  exact fun r _ => isSection_entry r

theorem render_eq_of_shownAlike {rules rules' : List RecordingRule}
    (h : List.Forall₂ ShownAlike rules rules') : render rules = render rules' := by
  have hentries : rules.map entry = rules'.map entry := by
    induction h with
    | nil => rfl
    | cons hab _ ih => rw [List.map_cons, List.map_cons, hab.entry_eq, ih]
  rw [render, render, hentries]

end MetricsDoc

open MetricsDoc

namespace Registry

open History

/-! ## The document of a registry -/

/-- The document of what is recorded. -/
def metricsDoc (r : Registry) : String := render r.listRecordingRules

/-- What a history leaves of the recording rules. -/
theorem recordingRules_replay (h : History) :
    h.replay.recordingRules = Roster.ofList h.recordingRuleLog := by
  refine Roster.ext_get? fun name => ?_
  rw [replay_eq, get?_roster, Roster.ofList, Roster.get?_insertMany, Roster.get?_empty,
    Option.or_none, recordingRuleLog_eq]

theorem mem_names_listRecordingRules (h : History) (name : String) :
    name ∈ h.replay.listRecordingRules.map nameOf ↔ name ∈ h.recordingRuleLog.map nameOf := by
  rw [listRecordingRules, recordingRules_replay, Roster.ofList, Roster.mem_names_insertMany]
  rfl

theorem lastNamed?_of_mem_listRecordingRules (h : History) {r : RecordingRule}
    (hr : r ∈ h.replay.listRecordingRules) : lastNamed? r.name h.recordingRuleLog = some r := by
  have hget := Roster.mem_toList_iff.1 hr
  rwa [recordingRules_replay, Roster.ofList, Roster.get?_insertMany, Roster.get?_empty,
    Option.or_none] at hget

/-- Histories that gave rules that are shown alike, one by one, end in one document. -/
theorem metricsDoc_replay_eq {h h' : History}
    (hlog : List.Forall₂ ShownAlike h.recordingRuleLog h'.recordingRuleLog) :
    h.replay.metricsDoc = h'.replay.metricsDoc := by
  refine render_eq_of_shownAlike ?_
  rw [listRecordingRules, listRecordingRules, recordingRules_replay, recordingRules_replay]
  exact Roster.forall₂_insertMany (fun _ _ hab => hab.name_eq) hlog .nil

/-- The namespace is in the expressions of the shipped rules only. -/
theorem shippedRecordingRules_shownAlike (ns ns' : String) :
    List.Forall₂ ShownAlike (Catalogue.shippedRecordingRules ns)
      (Catalogue.shippedRecordingRules ns') := by
  rw [Catalogue.shippedRecordingRules_eq, Catalogue.shippedRecordingRules_eq,
    List.forall₂_map_left_iff, List.forall₂_map_right_iff, List.forall₂_same]
  exact fun s _ => ⟨rfl, rfl, .refl s.help⟩

/-- Neither the namespace nor the template of a setup is seen in the document after it. -/
theorem metricsDoc_setup (r : Registry) (ns ns' : String) (t t' : RunbookTemplate) :
    (r.setup ns t).registry.metricsDoc = (r.setup ns' t').registry.metricsDoc := by
  refine render_eq_of_shownAlike ?_
  rw [listRecordingRules, listRecordingRules, setup_recordingRules, setup_recordingRules]
  exact Roster.forall₂_insertMany (fun _ _ hab => hab.name_eq)
    (shippedRecordingRules_shownAlike ns ns') (List.forall₂_same.2 fun a _ => .refl a)

theorem metricsDocs_of_ok {raw : Option ByteArray} {t : RunbookTemplate}
    (h : RunbookTemplate.resolve raw = .ok t) :
    Program.metricsDocs raw =
      .printing ((∅ : Registry).setup Program.documentedNamespace t).registry.metricsDoc := by
  rw [Program.metricsDocs, setupFromEnvironment, h]
  rfl

theorem metricsDocs_of_error {raw : Option ByteArray} {e : RuleError}
    (h : RunbookTemplate.resolve raw = .error e) :
    Program.metricsDocs raw = .failing e.message e.cause?.toList := by
  rw [Program.metricsDocs, setupFromEnvironment, h]
  rfl

/-- The document tells nothing of a list of rules but names, types and stems of help texts, and has
one dot after each stem. Of a registry it has one section for each recorded name, in the order of
the encoded names, and of its history nothing but what these are. So there is one document for every
setup of a new registry, and the program prints that one, or nothing if the environment determines
no template. -/
theorem metricsDoc_noninterference :
    (∀ rules rules', List.Forall₂ ShownAlike rules rules' → render rules = render rules') ∧
    (∀ rules, ∃ sections, List.Forall₂ IsSection rules sections ∧
      render rules = header ++ String.join sections) ∧
    (∀ h : History,
      h.replay.metricsDoc = render h.replay.listRecordingRules ∧
      (h.replay.listRecordingRules.Pairwise fun a b =>
        Text.utf8Bytes a.name < Text.utf8Bytes b.name) ∧
      (∀ name, name ∈ h.replay.listRecordingRules.map nameOf ↔
        name ∈ h.recordingRuleLog.map nameOf) ∧
      ∀ r ∈ h.replay.listRecordingRules, lastNamed? r.name h.recordingRuleLog = some r) ∧
    (∀ h h' : History, List.Forall₂ ShownAlike h.recordingRuleLog h'.recordingRuleLog →
      h.replay.metricsDoc = h'.replay.metricsDoc) ∧
    ∃ doc, (∀ ns t, ((∅ : Registry).setup ns t).registry.metricsDoc = doc) ∧
      ∀ raw,
        (∀ t, RunbookTemplate.resolve raw = .ok t → Program.metricsDocs raw = .printing doc) ∧
        ∀ e, RunbookTemplate.resolve raw = .error e →
          (Program.metricsDocs raw).output = "" ∧ (Program.metricsDocs raw).code = 1 := by
  refine ⟨fun _ _ => render_eq_of_shownAlike, exists_sections, fun h => ⟨rfl, ?_,
    mem_names_listRecordingRules h, fun _ => lastNamed?_of_mem_listRecordingRules h⟩,
    fun _ _ => metricsDoc_replay_eq,
    ((∅ : Registry).setup Program.documentedNamespace .default).registry.metricsDoc,
    fun ns t => metricsDoc_setup ∅ ns _ t _, fun raw => ⟨fun t ht => ?_, fun e he => ?_⟩⟩
  · exact h.replay.recordingRules.ascending.imp Text.utf8Bytes_lt
  · rw [metricsDocs_of_ok ht, metricsDoc_setup ∅ _ _ t .default]
  · rw [metricsDocs_of_error he]
    exact ⟨rfl, rfl⟩

/-- A rule whose help text ends in an ellipsis and one whose help text has no dot, with different
expressions; the second is recorded over a rule of its name. -/
theorem metricsDoc_noninterference_ellipsis :
    let dotted : RecordingRule := .gauge "up" "Whether it is up..." "up == 1"
    let plain : RecordingRule := .gauge "up" "Whether it is up" "vector(1)"
    let other : RecordingRule := { plain with metricType := .counter }
    let h : History := [.recordingRules [[other]], .clean, .recordingRules [[other, dotted]]]
    let h' : History := [.recordingRules [[other], [plain]], .setup "ns" .default, .clean,
      .recordingRules [[other], [plain]]]
    List.Forall₂ ShownAlike [dotted] [plain] ∧ render [dotted] = render [plain] ∧
    List.Forall₂ ShownAlike h.recordingRuleLog h'.recordingRuleLog ∧
    h.replay.metricsDoc = h'.replay.metricsDoc ∧
    h.replay.listRecordingRules = [dotted] ∧ h'.replay.listRecordingRules = [plain] ∧
    RunbookTemplate.resolve none = .ok .default ∧ (Program.metricsDocs none).code = 0 ∧
    RunbookTemplate.resolve (some "".toUTF8) = .error (.invalidRunbookTemplate "" 0) ∧
    (Program.metricsDocs (some "".toUTF8)).output = "" := by
  intro dotted plain other h h'
  have halike : ShownAlike dotted plain := ⟨rfl, rfl, "Whether it is up", 3, 0, rfl, rfl⟩
  have hlog : List.Forall₂ ShownAlike h.recordingRuleLog h'.recordingRuleLog :=
    .cons (.refl other) (.cons halike .nil)
  have hrefused : RunbookTemplate.resolve (some "".toUTF8) =
      .error (.invalidRunbookTemplate "" 0) := by
    rw [RunbookTemplate.resolve_toUTF8]
    exact RunbookTemplate.parse_of_slots_ne (by decide)
  obtain ⟨hrules, -, -, hhistories, doc, -, hprogram⟩ := metricsDoc_noninterference
  refine ⟨.cons halike .nil, hrules _ _ (.cons halike .nil), hlog, hhistories h h' hlog,
    by decide +kernel, by decide +kernel, rfl, ?_, hrefused, ((hprogram _).2 _ hrefused).1⟩
  rw [(hprogram none).1 .default rfl]
  rfl

end Registry

end OperatorRules
