import OperatorRules.Proofs.Manifest.Scalars
import OperatorRules.Proofs.Yaml.Lines
import OperatorRules.Proofs.Yaml.Printable

/-!
# The lines of a manifest

A manifest is one document with four entries: whatever its texts hold, four lines start in the first
column, one for each entry, and every other line is empty or starts with a space
(`PrometheusRule.renderYaml_lines`).
-/

namespace OperatorRules

open Yaml

/-- Only metadata that tell nothing have no fields. -/
theorem Metadata.exists_toYaml_eq_cons {m : Metadata} (h : m ≠ {}) :
    ∃ f fs, m.toYaml = .fields (f :: fs) := by
  obtain ⟨name, scope, labels⟩ := m
  cases labels with
  | some l => exact ⟨_, _, rfl⟩
  | none =>
    cases name with
    | some s => exact ⟨_, _, rfl⟩
    | none =>
      cases scope with
      | some s => exact ⟨_, _, rfl⟩
      | none => exact absurd rfl h

namespace PrometheusRule

/-- The line on which the metadata of a manifest begin, or on which they all stand. -/
def metadataLine (p : PrometheusRule) : String :=
  if p.metadata = {} then "metadata: {}" else "metadata:"

/-- The lines on which the entries of a manifest begin. -/
def headlines (p : PrometheusRule) : List (List Char) :=
  ["apiVersion: monitoring.coreos.com/v1".toList, "kind: PrometheusRule".toList,
    p.metadataLine.toList, "spec:".toList]

/-- The entries begin with their names. -/
theorem exists_head?_headlines {p : PrometheusRule} {l : List Char} (hl : l ∈ p.headlines) :
    ∃ c, l.head? = some c ∧ c.isAlpha = true := by
  simp only [headlines, metadataLine, List.mem_cons, List.not_mem_nil, or_false] at hl
  rcases hl with rfl | rfl | rfl | rfl
  · exact ⟨'a', rfl, by decide⟩
  · exact ⟨'k', rfl, by decide⟩
  · split <;> exact ⟨'m', rfl, by decide⟩
  · exact ⟨'s', rfl, by decide⟩

theorem firstLine_metadata (p : PrometheusRule) :
    firstLine "metadata" p.metadata.toYaml = p.metadataLine.toList := by
  rw [metadataLine]
  by_cases h : p.metadata = {}
  · rw [if_pos h, h]
    decide
  · obtain ⟨f, fs, hf⟩ := Metadata.exists_toYaml_eq_cons h
    rw [if_neg h, hf]
    rfl

theorem outerLines_renderYaml (p : PrometheusRule) :
    outerLines p.renderYaml.toList = p.headlines := by
  have hmetadata : Block 1 (p.metadata.toYaml.afterColon 0) :=
    (p.metadata.plainlyNamed_toYaml.block_fields 0).mono (by omega)
  have hspec : Block 1 (p.spec.toYaml.afterColon 0) :=
    (p.spec.plainlyNamed_toYaml.block_fields 0).mono (by omega)
  have htext (s : String) : Block 1 ((Node.text s).afterColon 0) :=
    (block_afterColon_text 0 s).mono (by omega)
  have hfields : ∀ m ∈ p.yamlFields, IsPlainName m.1 ∧ Block 1 (m.2.afterColon 0) := by
    simp only [yamlFields, List.forall_mem_cons]
    exact ⟨⟨by decide, htext _⟩, ⟨by decide, htext _⟩, ⟨by decide, hmetadata⟩, ⟨by decide, hspec⟩,
      by simp⟩
  have hversion : firstLine "apiVersion" (.text qualifiedVersion) =
      "apiVersion: monitoring.coreos.com/v1".toList := by decide
  have hkind : firstLine "kind" (.text kind) = "kind: PrometheusRule".toList := by decide
  have hgroups : firstLine "spec" p.spec.toYaml = "spec:".toList := rfl
  rw [renderYaml, String.toList_ofList, outerLines_fieldLines hfields, headlines, ← hversion,
    ← hkind, ← firstLine_metadata, ← hgroups]
  rfl

theorem printable_renderYaml (p : PrometheusRule) :
    p.renderYaml.toList.all isPrintable = true := by
  obtain ⟨hk, h⟩ := p.plainFields_yamlFields
  have hshows := shows_fieldPieces hk (fun m hm => shown_of_plainlyNamed (h m hm)) 0
  rw [renderYaml, String.toList_ofList]
  exact hshows.printable

theorem complete_renderYaml (p : PrometheusRule) : endsFresh true p.renderYaml.toList = true := by
  obtain ⟨hk, h⟩ := p.plainFields_yamlFields
  rw [renderYaml, String.toList_ofList]
  exact (rows_fieldLines hk (fun m hm => hangs_of_plainlyNamed (h m hm)) 0).complete

/-- The text of a manifest holds only characters that may stand unescaped and ends in a break. Parted
at its breaks, which are newlines and the two separators of Unicode, it has four lines that start in
the first column, those of its version, its kind, its metadata and its groups, in this order. Every
other line is empty or starts with a space, so that no text in the manifest ends the document, starts
another one or adds an entry. -/
theorem renderYaml_lines (p : PrometheusRule) :
    (∀ c ∈ p.renderYaml.toList, Unescaped c) ∧
    (∃ c, p.renderYaml.toList.getLast? = some c ∧ isBreak c = true) ∧
    (∀ c ∈ p.renderYaml.toList, isBreak c = true → c = '\n' ∨ c = '\u2028' ∨ c = '\u2029') ∧
    (lines p.renderYaml.toList).filter startsInFirstColumn = p.headlines ∧
    ∀ l ∈ lines p.renderYaml.toList, (l ∉ p.headlines → l = [] ∨ l.head? = some ' ') ∧
      ¬ ['-', '-', '-'] <+: l ∧ ¬ ['.', '.', '.'] <+: l := by
  have hunescaped (c : Char) (hc : c ∈ p.renderYaml.toList) : Unescaped c :=
    isPrintable_iff.1 (List.all_eq_true.1 p.printable_renderYaml c hc)
  have hne : p.renderYaml.toList ≠ [] := by
    rw [renderYaml, String.toList_ofList]
    exact List.cons_ne_nil _ _
  have hline (l : List Char) (hl : l ∈ lines p.renderYaml.toList) :
      l ∈ p.headlines ∨ l = [] ∨ l.head? = some ' ' := by
    rw [← outerLines_renderYaml, outerLines, List.mem_filter]
    cases l with
    | nil => exact .inr (.inl rfl)
    | cons c l => by_cases hc : c = ' ' <;> simp_all [startsInFirstColumn]
  have hmark (l : List Char) (hl : l ∈ lines p.renderYaml.toList) {c : Char} {cs : List Char}
      (hc : c ≠ ' ' ∧ c.isAlpha = false) : ¬ (c :: cs) <+: l := by
    rintro ⟨t, rfl⟩
    rcases hline _ hl with hhead | hnil | hspace
    · obtain ⟨d, hd, halpha⟩ := exists_head?_headlines hhead
      obtain rfl : c = d := Option.some.inj hd
      rw [hc.2] at halpha
      cases halpha
    · cases hnil
    · exact hc.1 (Option.some.inj hspace)
  refine ⟨hunescaped, ?_, fun c hc => break_of_unescaped (hunescaped c hc),
    p.outerLines_renderYaml, fun l hl => ⟨(hline l hl).resolve_left, hmark l hl (by decide),
      hmark l hl (by decide)⟩⟩
  have hcomplete := p.complete_renderYaml
  obtain ⟨cs, c, hcs⟩ := (List.eq_nil_or_concat _).resolve_left hne
  rw [hcs, List.concat_eq_append] at hcomplete ⊢
  rw [endsFresh_append_cons] at hcomplete
  exact ⟨c, List.getLast?_concat, hcomplete⟩

end PrometheusRule

end OperatorRules
