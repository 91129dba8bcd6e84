import OperatorRules.Runbook

/-!
# Templates and their slots

A template is a text before its slot, the slot and a text behind it, in exactly one way
(`exists_slotBetween`), and the address of a runbook has the name of the alert between the two
(`SlotBetween.urlFor_eq`). A slot does not overlap another one, so the slots of a text are those
before and those behind any one of them (`slots_append_slot`).
-/

namespace OperatorRules

namespace Runbook

theorem slots_cons {c : Char} {cs : List Char} (h : ¬ (c = '%' ∧ cs.head? = some 's')) :
    slots (c :: cs) = slots cs := by
  rw [slots.eq_2]
  intro t hc ht
  exact h ⟨hc, by rw [ht, List.head?_cons]⟩

theorem fill_cons {c : Char} {cs : List Char} (name : List Char)
    (h : ¬ (c = '%' ∧ cs.head? = some 's')) : fill name (c :: cs) = c :: fill name cs := by
  rw [fill.eq_2]
  intro t hc ht
  exact h ⟨hc, by rw [ht, List.head?_cons]⟩

/-- What stands before a slot does not end in the middle of one. -/
theorem not_slot_append {c : Char} {cs q : List Char} (h : ¬ (c = '%' ∧ cs.head? = some 's')) :
    ¬ (c = '%' ∧ (cs ++ '%' :: 's' :: q).head? = some 's') := by
  cases cs with
  | nil => simp
  | cons d cs => exact h

theorem slots_append_slot (p q : List Char) :
    slots (p ++ '%' :: 's' :: q) = slots p + 1 + slots q := by
  fun_induction slots p with
  | case1 cs ih =>
    show slots (cs ++ '%' :: 's' :: q) + 1 = _
    omega
  | case2 c cs hslot ih =>
    have hno : ¬ (c = '%' ∧ cs.head? = some 's') := by
      rintro ⟨rfl, hs⟩
      obtain ⟨t, rfl⟩ := List.head?_eq_some_iff.1 hs
      exact hslot t rfl rfl
    rw [List.cons_append, slots_cons (not_slot_append hno), ih]
  | case3 =>
    show slots q + 1 = _
    omega

theorem fill_append_slot {p : List Char} (hp : slots p = 0) (name q : List Char) :
    fill name (p ++ '%' :: 's' :: q) = p ++ name ++ q := by
  induction p with
  | nil => rfl
  | cons c p ih =>
    have hno : ¬ (c = '%' ∧ p.head? = some 's') := by
      rintro ⟨rfl, hs⟩
      obtain ⟨t, rfl⟩ := List.head?_eq_some_iff.1 hs
      rw [slots] at hp
      omega
    rw [slots_cons hno] at hp
    rw [List.cons_append, fill_cons name (not_slot_append hno), ih hp]
    rfl

theorem exists_append_slot {cs : List Char} (h : slots cs ≠ 0) :
    ∃ p q, cs = p ++ '%' :: 's' :: q := by
  fun_induction slots cs with
  | case1 cs => exact ⟨[], cs, rfl⟩
  | case2 c cs _ ih =>
    obtain ⟨p, q, rfl⟩ := ih h
    exact ⟨c :: p, q, rfl⟩
  | case3 => exact absurd rfl h

/-- Where there is one slot only, it is found in one place only. -/
theorem append_slot_inj {p q p' q' : List Char} (hp : slots p = 0) (hp' : slots p' = 0)
    (h : p ++ '%' :: 's' :: q = p' ++ '%' :: 's' :: q') : p = p' ∧ q = q' := by
  have hshort {p z q q' : List Char} (hz : slots (p ++ z) = 0)
      (h : '%' :: 's' :: q = z ++ '%' :: 's' :: q') : z = [] := by
    match z, h with
    | [], _ => rfl
    | [_], h => cases h
    | _ :: _ :: z, h =>
      cases h
      rw [slots_append_slot] at hz
      omega
  rcases List.append_eq_append_iff.1 h with ⟨z, rfl, hz⟩ | ⟨z, rfl, hz⟩
  · obtain rfl := hshort hp' hz
    cases hz
    exact ⟨(List.append_nil p).symm, rfl⟩
  · obtain rfl := hshort hp hz
    cases hz
    exact ⟨List.append_nil p', rfl⟩

end Runbook

namespace RunbookTemplate

/-- The template has its slot between the two texts, and nowhere else. -/
structure SlotBetween (t : RunbookTemplate) (before after : String) : Prop where
  text_eq : t.text = before ++ "%s" ++ after
  unique : ∀ before' after', t.text = before' ++ "%s" ++ after' → before' = before ∧ after' = after

theorem toList_slot {text before after : String} (h : text = before ++ "%s" ++ after) :
    text.toList = before.toList ++ '%' :: 's' :: after.toList := by
  rw [h, String.toList_append, String.toList_append, List.append_assoc]
  rfl

theorem slots_before {t : RunbookTemplate} {before after : String}
    (h : t.text = before ++ "%s" ++ after) : Runbook.slots before.toList = 0 := by
  have hone := t.oneSlot
  rw [toList_slot h, Runbook.slots_append_slot] at hone
  omega

theorem exists_slotBetween (t : RunbookTemplate) : ∃ before after, t.SlotBetween before after := by
  have hone : Runbook.slots t.text.toList ≠ 0 := by
    rw [t.oneSlot]
    decide
  obtain ⟨p, q, hpq⟩ := Runbook.exists_append_slot hone
  have htext : t.text = String.ofList p ++ "%s" ++ String.ofList q := by
    apply String.toList_injective
    rw [hpq, toList_slot rfl, String.toList_ofList, String.toList_ofList]
  refine ⟨String.ofList p, String.ofList q, htext, fun before after h => ?_⟩
  have hlists := (toList_slot h).symm.trans (toList_slot htext)
  obtain ⟨hbefore, hafter⟩ :=
    Runbook.append_slot_inj (slots_before h) (slots_before htext) hlists
  exact ⟨String.toList_injective hbefore, String.toList_injective hafter⟩

theorem SlotBetween.urlFor_eq {t : RunbookTemplate} {before after : String}
    (h : t.SlotBetween before after) (alert : String) : t.urlFor alert = before ++ alert ++ after := by
  apply String.toList_injective
  rw [urlFor, String.toList_ofList, toList_slot h.text_eq,
    Runbook.fill_append_slot (slots_before h.text_eq), String.toList_append, String.toList_append]

end RunbookTemplate

end OperatorRules
