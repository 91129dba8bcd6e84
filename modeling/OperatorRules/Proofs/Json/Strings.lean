import OperatorRules.Json.Printer
import OperatorRules.Json.Reader
import OperatorRules.Proofs.Text.Digits

/-!
# Strings read back

A string in quotes reads back as its text, and a reader that only skips it ends at the same place
(`readString_escaped`): one law for each character, by induction over the text.
-/

namespace OperatorRules.Json

/-- A text and what follows it, with some characters in front of the text. -/
def prepend (found : List Char) (p : List Char × List Char) : List Char × List Char :=
  (found ++ p.1, p.2)

/-! ## Code units -/

/-- Reads the last digits of a code unit. -/
theorem scanString_unit (strict : Bool) {read value n : Nat} {ds : List Char}
    (hlen : read + ds.length = 4) (hread : read ≤ 3)
    (hds : Text.ofDigitsFrom 16 value ds = some n) (cs : List Char) :
    scanString strict (.unit none read value) (ds ++ cs) =
      match closeUnit strict none n with
      | .error f => .error f
      | .ok (state, found) => (scanString strict state cs).map (prepend found) := by
  induction ds generalizing read value with
  | nil =>
    simp only [List.length_nil] at hlen
    omega
  | cons c ds ih =>
    rw [Text.ofDigitsFrom] at hds
    obtain ⟨d, hd, hrest⟩ := Option.bind_eq_some_iff.1 hds
    split at hrest
    · rw [List.cons_append, scanString, hd]
      simp only [List.length_cons] at hlen
      by_cases hmore : read < 3
      · simp only [if_pos hmore]
        exact ih (by omega) (by omega) hrest
      · obtain rfl : ds = [] := List.length_eq_zero_iff.1 (by omega)
        cases hrest
        simp only [if_neg hmore]
        rfl
    · cases hrest

theorem closeUnit_control {c : Char} (hc : c.toNat < 0x20) (strict : Bool) :
    closeUnit strict none c.toNat = .ok (.plain, if strict then [c] else []) := by
  cases strict with
  | false => rfl
  | true =>
    have hlow : ¬ (0xdc00 ≤ c.toNat ∧ c.toNat ≤ 0xdfff) := by omega
    have hhigh : ¬ (0xd800 ≤ c.toNat ∧ c.toNat ≤ 0xdbff) := by omega
    simp only [closeUnit, Bool.not_true, Bool.false_eq_true, if_false, if_true]
    rw [if_neg hlow, if_neg hhigh, Char.ofNat_toNat]

/-! ## Characters and texts -/

/-- What a reader takes an escaped character for; one that only skips takes code units for
nothing. -/
def takenFor (strict : Bool) (c : Char) : List Char :=
  if strict || (escapeChar c).length ≤ 2 then [c] else []

theorem scanString_control (strict : Bool) {c : Char} (hc : c.toNat < 0x20) (cs : List Char) :
    scanString strict .plain ('\\' :: 'u' :: (Text.paddedDigits 16 4 c.toNat ++ cs)) =
      (scanString strict .plain cs).map (prepend (if strict then [c] else [])) := by
  have hdigits : Text.ofDigitsFrom 16 0 (Text.paddedDigits 16 4 c.toNat) = some c.toNat := by
    rw [← List.map_id (Text.paddedDigits 16 4 c.toNat)]
    exact Text.ofDigitsFrom_map_paddedDigits (by decide)
      (fun d hd => Text.digitValue?_digitChar hd) 4 c.toNat
  have hlen : (Text.paddedDigits 16 4 c.toNat).length = 4 :=
    Text.length_paddedDigits (by decide) (by decide) (by omega)
  rw [scanString, if_neg (by decide), if_pos rfl, scanString, if_pos rfl,
    scanString_unit strict (by omega) (by omega) hdigits, closeUnit_control hc]

theorem scanString_escapeChar (strict : Bool) (c : Char) (cs : List Char) :
    scanString strict .plain (escapeChar c ++ cs) =
      (scanString strict .plain cs).map (prepend (takenFor strict c)) := by
  by_cases hshort : c ∈ ['"', '\\', '\x08', '\x0c', '\n', '\r', '\t']
  · simp only [List.mem_cons, List.not_mem_nil, or_false] at hshort
    rcases hshort with rfl | rfl | rfl | rfl | rfl | rfl | rfl <;> cases strict <;> rfl
  have hchar : escapeChar c =
      if c.toNat < 0x20 then ['\\', 'u'] ++ Text.paddedDigits 16 4 c.toNat else [c] := by
    simp only [List.mem_cons, List.not_mem_nil, or_false, not_or] at hshort
    obtain ⟨h1, h2, h3, h4, h5, h6, h7⟩ := hshort
    rw [escapeChar, if_neg h1, if_neg h2, if_neg h3, if_neg h4, if_neg h5, if_neg h6, if_neg h7]
  by_cases hc : c.toNat < 0x20
  · have hlong : ¬ (escapeChar c).length ≤ 2 := by
      rw [hchar, if_pos hc, List.length_append,
        Text.length_paddedDigits (by decide) (by decide) (by omega)]
      decide
    have htaken : takenFor strict c = if strict then [c] else [] := by
      rw [takenFor]
      cases strict <;> simp [hlong]
    rw [htaken, ← scanString_control strict hc, hchar, if_pos hc]
    rfl
  · have htaken : takenFor strict c = [c] := by
      rw [takenFor, hchar, if_neg hc]
      cases strict <;> rfl
    have hquote : c ≠ '"' := fun e => hshort (by simp [e])
    have hslash : c ≠ '\\' := fun e => hshort (by simp [e])
    rw [htaken, hchar, if_neg hc, List.singleton_append, scanString, if_neg hquote, if_neg hslash,
      if_neg hc]
    rfl

theorem scanString_escaped (strict : Bool) (s rest : List Char) :
    scanString strict .plain (s.flatMap escapeChar ++ '"' :: rest) =
      .ok (s.flatMap (takenFor strict), rest) := by
  induction s with
  | nil => rfl
  | cons c s ih =>
    rw [List.flatMap_cons, List.append_assoc, scanString_escapeChar, ih]
    rfl

/-- Both readings of a string end behind its closing quote, and the strict one gives its text. -/
theorem readString_escaped (s : String) (rest : List Char) :
    readString (s.toList.flatMap escapeChar ++ '"' :: rest) = (.ok s, .ok rest) := by
  have htext : s.toList.flatMap (takenFor true) = s.toList := List.flatMap_singleton' s.toList
  rw [readString, scanString_escaped, scanString_escaped, htext]
  simp only [Except.map, String.ofList_toList]

end OperatorRules.Json
