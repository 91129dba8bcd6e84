import Mathlib.Data.Set.Card
import OperatorRules.Proofs.Runbook

/-!
# Cutting a text at its slots

A text can be cut at each of its slots, into what stands before it and what stands behind it. There
are as many ways to do so as slots are counted from the left (`encard_cuts`), since no two slots
overlap. So a template is a text that can be cut in one way only, and no name of an alert, whatever
slots it holds or completes, is taken for one (`parse_cuts`).
-/

namespace OperatorRules

namespace Runbook

/-- The ways to cut a text at a slot. -/
def cuts (cs : List Char) : Set (List Char × List Char) := {s | cs = s.1 ++ '%' :: 's' :: s.2}

/-- Puts characters in front of the first part of a cut. -/
def extend (x : List Char) (s : List Char × List Char) : List Char × List Char := (x ++ s.1, s.2)

theorem extend_injective (x : List Char) : Function.Injective (extend x) := by
  rintro ⟨p, q⟩ ⟨p', q'⟩ h
  obtain ⟨hp, hq⟩ := Prod.mk.inj h
  exact Prod.ext (List.append_cancel_left hp) hq

theorem cuts_nil : cuts [] = ∅ := by
  refine Set.eq_empty_iff_forall_notMem.2 fun s hs => ?_
  exact absurd hs (by simp [cuts])

theorem cuts_cons {c : Char} {cs : List Char} (h : ∀ t, c = '%' → cs = 's' :: t → False) :
    cuts (c :: cs) = extend [c] '' cuts cs := by
  ext ⟨p, q⟩
  constructor
  · intro hs
    cases p with
    | nil =>
      obtain ⟨hc, hcs⟩ := List.cons.inj hs
      exact (h q hc hcs).elim
    | cons d p =>
      obtain ⟨rfl, hcs⟩ := List.cons.inj hs
      exact ⟨(p, q), hcs, rfl⟩
  · rintro ⟨⟨p', q'⟩, hs, heq⟩
    cases heq
    exact congrArg (c :: ·) hs

/-- A slot in front is one more place for a cut; there is none inside of it. -/
theorem cuts_slot (cs : List Char) :
    cuts ('%' :: 's' :: cs) = insert ([], cs) (extend ['%', 's'] '' cuts cs) := by
  ext ⟨p, q⟩
  constructor
  · intro hs
    rcases p with _ | ⟨c, _ | ⟨d, p⟩⟩
    · cases hs
      exact .inl rfl
    · cases hs
    · cases hs
      exact .inr ⟨(p, q), rfl, rfl⟩
  · rintro (heq | ⟨⟨p', q'⟩, hs, heq⟩)
    · cases heq
      rfl
    · cases heq
      exact congrArg ('%' :: 's' :: ·) hs

/-- There are as many ways to cut a text as it has slots. -/
theorem encard_cuts (cs : List Char) : (cuts cs).encard = slots cs := by
  fun_induction slots cs with
  | case1 cs ih =>
    have hnew : ([], cs) ∉ extend ['%', 's'] '' cuts cs := by
      rintro ⟨s, -, heq⟩
      cases (Prod.mk.inj heq).1
    rw [cuts_slot, Set.encard_insert_of_notMem hnew, (extend_injective _).encard_image, ih]
    rfl
  | case2 c cs hslot ih =>
    rw [cuts_cons hslot, (extend_injective _).encard_image, ih]
  | case3 => rw [cuts_nil, Set.encard_empty]; rfl

end Runbook

namespace RunbookTemplate

/-- The ways to cut a text at a slot. -/
def cuts (text : String) : Set (String × String) := {s | text = s.1 ++ "%s" ++ s.2}

theorem encard_cuts_text (text : String) :
    (cuts text).encard = Runbook.slots text.toList := by
  have hinj : Function.Injective fun s : String × String => (s.1.toList, s.2.toList) := by
    rintro ⟨p, q⟩ ⟨p', q'⟩ h
    obtain ⟨hp, hq⟩ := Prod.mk.inj h
    exact Prod.ext (String.toList_injective hp) (String.toList_injective hq)
  have himage : (fun s : String × String => (s.1.toList, s.2.toList)) '' cuts text =
      Runbook.cuts text.toList := by
    ext ⟨p, q⟩
    constructor
    · rintro ⟨⟨before, after⟩, hs, heq⟩
      cases heq
      exact toList_slot hs
    · intro hs
      refine ⟨(String.ofList p, String.ofList q), ?_, by simp⟩
      apply String.toList_injective
      rw [toList_slot rfl, String.toList_ofList, String.toList_ofList]
      exact hs
  rw [← Runbook.encard_cuts, ← himage, hinj.encard_image]

theorem slots_eq_one_iff (text : String) :
    Runbook.slots text.toList = 1 ↔ ∃! s : String × String, text = s.1 ++ "%s" ++ s.2 := by
  rw [← ENat.natCast_inj, ← encard_cuts_text, Nat.cast_one, Set.encard_eq_one]
  constructor
  · rintro ⟨s, hs⟩
    have hmem (s' : String × String) : s' ∈ cuts text ↔ s' = s := by
      rw [hs, Set.mem_singleton_iff]
    exact ⟨s, (hmem s).2 rfl, fun s' hs' => (hmem s').1 hs'⟩
  · rintro ⟨s, hs, hunique⟩
    refine ⟨s, Set.ext fun s' => ⟨hunique s', ?_⟩⟩
    rintro rfl
    exact hs

theorem parse_of_slots {text : String} (h : Runbook.slots text.toList = 1) :
    parse text = .ok ⟨text, h⟩ := dif_pos h

theorem parse_of_slots_ne {text : String} (h : Runbook.slots text.toList ≠ 1) :
    parse text = .error (.invalidRunbookTemplate text (Runbook.slots text.toList)) := dif_neg h

theorem text_of_parse {text : String} {t : RunbookTemplate} (h : parse text = .ok t) :
    t.text = text := by
  by_cases hone : Runbook.slots text.toList = 1
  · rw [parse_of_slots hone] at h
    cases h
    rfl
  · rw [parse_of_slots_ne hone] at h
    cases h

/-- The address shows the name, between texts that do not depend on it. -/
theorem urlFor_injective (t : RunbookTemplate) : Function.Injective t.urlFor := by
  obtain ⟨before, after, hslot⟩ := t.exists_slotBetween
  intro alert alert' h
  rw [hslot.urlFor_eq, hslot.urlFor_eq] at h
  have hlists := congrArg String.toList h
  simp only [String.toList_append, List.append_assoc] at hlists
  exact String.toList_injective (List.append_cancel_right (List.append_cancel_left hlists))

/-- A text is a template exactly if it can be cut at a slot in one way; otherwise the error tells the
text and in how many ways it can be cut. The address of a runbook is the name of the alert between
the two parts of the template, whatever the name holds, so it determines the name. -/
theorem parse_cuts (text : String) :
    ((∃ t, parse text = .ok t) ↔ ∃! s : String × String, text = s.1 ++ "%s" ++ s.2) ∧
    ((¬ ∃! s : String × String, text = s.1 ++ "%s" ++ s.2) → ∃ found : Nat,
      parse text = .error (.invalidRunbookTemplate text found) ∧
        {s : String × String | text = s.1 ++ "%s" ++ s.2}.encard = found) ∧
    ∀ t, parse text = .ok t →
      (∀ before after, text = before ++ "%s" ++ after →
        ∀ alert, t.urlFor alert = before ++ alert ++ after) ∧
      Function.Injective t.urlFor := by
  rw [← slots_eq_one_iff]
  refine ⟨⟨?_, fun h => ⟨_, parse_of_slots h⟩⟩, fun h => ?_, fun t ht => ⟨?_, t.urlFor_injective⟩⟩
  · rintro ⟨t, ht⟩
    rw [← text_of_parse ht]
    exact t.oneSlot
  · exact ⟨_, parse_of_slots_ne h, encard_cuts_text text⟩
  · intro before after hcut alert
    obtain rfl := text_of_parse ht
    obtain ⟨before', after', hslot⟩ := t.exists_slotBetween
    obtain ⟨rfl, rfl⟩ := hslot.unique before after hcut
    exact hslot.urlFor_eq alert

end RunbookTemplate

end OperatorRules
