import OperatorRules.Proofs.Runbook.Splits
import OperatorRules.Proofs.Text.Utf8

/-!
# Templates from the environment

The value of the environment variable is any sequence of bytes. Where it is the encoding of a text,
that text is unique and resolving the value is parsing the text; everything else is refused as no
text (`resolve_utf8`).
-/

namespace OperatorRules

open Text

namespace RunbookTemplate

/-- The text of a template is a template again, the same one. -/
theorem parse_text (t : RunbookTemplate) : parse t.text = .ok t := parse_of_slots t.oneSlot

/-- A text that is no template has the wrong number of slots. -/
theorem parse_cases (text : String) : (∃ t, parse text = .ok t) ∨
    ∃ found, parse text = .error (.invalidRunbookTemplate text found) := by
  by_cases hone : Runbook.slots text.toList = 1
  · exact .inl ⟨_, parse_of_slots hone⟩
  · exact .inr ⟨_, parse_of_slots_ne hone⟩

theorem parse_ne_nonUnicode (text : String) : parse text ≠ .error .nonUnicodeRunbookTemplate := by
  rcases parse_cases text with ⟨t, h⟩ | ⟨found, h⟩ <;> rw [h] <;> rintro ⟨⟩

theorem fromUTF8?_toUTF8 (text : String) : String.fromUTF8? text.toUTF8 = some text := by
  have hvalid : text.toUTF8.IsValidUTF8 := text.isValidUTF8
  rw [String.fromUTF8?, dif_pos hvalid]
  rfl

theorem fromUTF8?_of_not_isValidUTF8 {bytes : ByteArray} (h : ¬ bytes.IsValidUTF8) :
    String.fromUTF8? bytes = none := dif_neg h

theorem resolve_toUTF8 (text : String) : resolve (some text.toUTF8) = parse text := by
  rw [resolve, fromUTF8?_toUTF8]

theorem resolve_of_not_isValidUTF8 {bytes : ByteArray} (h : ¬ bytes.IsValidUTF8) :
    resolve (some bytes) = .error .nonUnicodeRunbookTemplate := by
  rw [resolve, fromUTF8?_of_not_isValidUTF8 h]

theorem exists_toUTF8_eq {bytes : ByteArray} (h : bytes.IsValidUTF8) :
    ∃ text : String, text.toUTF8 = bytes := ⟨String.fromUTF8 bytes h, rfl⟩

/-- Only bytes that are no text are refused as such. -/
theorem resolve_eq_nonUnicode_iff (bytes : ByteArray) :
    resolve (some bytes) = .error .nonUnicodeRunbookTemplate ↔ ¬ bytes.IsValidUTF8 := by
  refine ⟨fun h hvalid => ?_, resolve_of_not_isValidUTF8⟩
  obtain ⟨text, rfl⟩ := exists_toUTF8_eq hvalid
  rw [resolve_toUTF8] at h
  exact parse_ne_nonUnicode text h

/-- A value of the environment variable is refused as no text exactly if it encodes no sequence of
characters, which is to say that it is not well formed; what is malformed somewhere is refused. Any
other value is parsed as the one text that it encodes, and an unset variable gives the default. Every
template reads back from its text. -/
theorem resolve_utf8 :
    (∀ bytes : ByteArray,
      (resolve (some bytes) = .error .nonUnicodeRunbookTemplate ↔
        ¬ ∃ cs : List Char, cs.utf8Encode = bytes) ∧
      (resolve (some bytes) = .error .nonUnicodeRunbookTemplate ↔
        ¬ WellFormed bytes.data.toList) ∧
      (∀ x m, Malformed m → bytes.data.toList = x ++ m →
        resolve (some bytes) = .error .nonUnicodeRunbookTemplate) ∧
      ((∃ cs : List Char, cs.utf8Encode = bytes) → ∃! text : String, text.toUTF8 = bytes) ∧
      ∀ text : String, text.toUTF8 = bytes → resolve (some bytes) = parse text) ∧
    (∀ text, (∃ t, parse text = .ok t) ∨
      ∃ found, parse text = .error (.invalidRunbookTemplate text found)) ∧
    resolve none = .ok default ∧
    ∀ t : RunbookTemplate, parse t.text = .ok t := by
  have hencodes (bytes : ByteArray) :
      (∃ cs : List Char, cs.utf8Encode = bytes) ↔ bytes.IsValidUTF8 :=
    ⟨fun ⟨cs, hcs⟩ => ⟨cs, hcs.symm⟩, fun ⟨cs, hcs⟩ => ⟨cs, hcs.symm⟩⟩
  refine ⟨fun bytes => ⟨?_, ?_, fun x m hm hbytes => ?_, fun h => ?_, ?_⟩, parse_cases, rfl,
    parse_text⟩
  · rw [resolve_eq_nonUnicode_iff, hencodes]
  · rw [resolve_eq_nonUnicode_iff, isValidUTF8_iff]
  · rw [resolve_eq_nonUnicode_iff, isValidUTF8_iff, hbytes]
    exact not_wellFormed_of_malformed hm x
  · obtain ⟨text, rfl⟩ := exists_toUTF8_eq ((hencodes bytes).1 h)
    exact ⟨text, rfl, fun text' heq => String.toByteArray_inj.1 heq⟩
  · rintro text rfl
    exact resolve_toUTF8 text

end RunbookTemplate

end OperatorRules
