import Mathlib.Data.List.Forall2
import Mathlib.Data.List.Nodup
import OperatorRules.Registry.History

/-!
# Rosters as maps

A roster is a map from names: `get?_insert` and `get?_insertMany` say what it holds under each name,
and it is determined by that (`ext_get?`). Whatever lists the things of a roster, each of them once
and in any order, sorts to the roster (`mergeSort_eq_toList`).
-/

namespace OperatorRules

variable {α : Type} [Named α]

/-! ## Lists in ascending order -/

theorem find?_nameOf_cons (name : String) (b : α) (l : List α) :
    (b :: l).find? (fun c => nameOf c == name) =
      if nameOf b = name then some b else l.find? fun c => nameOf c == name := by
  split
  · next h => simp [h]
  · next h => rw [List.find?_cons_of_neg (by simpa using h)]

theorem find?_insertNamed (a : α) (name : String) (l : List α) :
    (insertNamed a l).find? (fun b => nameOf b == name) =
      if nameOf a = name then some a else l.find? fun b => nameOf b == name := by
  induction l with
  | nil => exact find?_nameOf_cons name a []
  | cons b l ih =>
    simp only [insertNamed]
    by_cases hab : nameOf a < nameOf b
    · rw [if_pos hab, find?_nameOf_cons]
    rw [if_neg hab, find?_nameOf_cons name b l]
    by_cases hba : nameOf b < nameOf a
    · rw [if_pos hba, find?_nameOf_cons, ih]
      have hne : nameOf a ≠ nameOf b := fun e => String.lt_irrefl _ (e ▸ hba)
      by_cases h : nameOf a = name
      · subst h; simp [hne.symm]
      · simp [h]
    · have e : nameOf a = nameOf b :=
        String.le_antisymm (String.not_lt.1 hba) (String.not_lt.1 hab)
      rw [if_neg hba, find?_nameOf_cons, e]
      split <;> rfl

theorem Ascending.find?_nameOf {l : List α} (h : Ascending l) {a : α} (ha : a ∈ l) :
    l.find? (fun b => nameOf b == nameOf a) = some a := by
  induction l with
  | nil => cases ha
  | cons b l ih =>
    have hb := List.pairwise_cons.1 h
    rw [find?_nameOf_cons]
    rcases List.mem_cons.1 ha with rfl | ha
    · exact if_pos rfl
    · have hne : nameOf b ≠ nameOf a := fun e => String.lt_irrefl _ (e ▸ hb.1 a ha)
      rw [if_neg hne, ih hb.2 ha]

theorem Ascending.nodup_names {l : List α} (h : Ascending l) : (l.map nameOf).Nodup := by
  refine List.pairwise_map.2 (List.Pairwise.imp (fun hlt e => ?_) h)
  rw [e] at hlt
  exact String.lt_irrefl _ hlt

theorem Ascending.nodup {l : List α} (h : Ascending l) : l.Nodup :=
  List.Nodup.of_map nameOf h.nodup_names

namespace Roster

variable {r r' : Roster α}

/-! ## What a roster holds under a name -/

@[simp] theorem get?_empty (name : String) : (∅ : Roster α).get? name = none := rfl

theorem get?_insert (r : Roster α) (a : α) (name : String) :
    (r.insert a).get? name = if nameOf a = name then some a else r.get? name :=
  find?_insertNamed a name r.toList

theorem get?_eq_some_iff {name : String} {a : α} :
    r.get? name = some a ↔ a ∈ r.toList ∧ nameOf a = name := by
  constructor
  · intro h
    exact ⟨List.mem_of_find?_eq_some h, by simpa using List.find?_some h⟩
  · rintro ⟨ha, rfl⟩
    exact r.ascending.find?_nameOf ha

theorem mem_toList_iff {a : α} : a ∈ r.toList ↔ r.get? (nameOf a) = some a := by
  simp [get?_eq_some_iff]

/-! ## What was given last -/

theorem lastNamed?_append (name : String) (l l' : List α) :
    lastNamed? name (l ++ l') = (lastNamed? name l').or (lastNamed? name l) := by
  simp [lastNamed?, List.find?_append]

theorem lastNamed?_singleton (name : String) (a : α) :
    lastNamed? name [a] = if nameOf a = name then some a else none := by
  rw [lastNamed?, List.reverse_singleton, find?_nameOf_cons, List.find?_nil]

theorem get?_insertMany (r : Roster α) (l : List α) (name : String) :
    (r.insertMany l).get? name = (lastNamed? name l).or (r.get? name) := by
  induction l generalizing r with
  | nil => rfl
  | cons a l ih =>
    rw [insertMany, List.foldl_cons, ← insertMany, ih, get?_insert,
      show a :: l = [a] ++ l from rfl, lastNamed?_append, lastNamed?_singleton, Option.or_assoc]
    split <;> rfl

theorem mem_of_lastNamed? {name : String} {l : List α} {a : α} (h : lastNamed? name l = some a) :
    a ∈ l ∧ nameOf a = name :=
  ⟨List.mem_reverse.1 (List.mem_of_find?_eq_some h), by simpa using List.find?_some h⟩

theorem lastNamed?_eq_none_iff {name : String} {l : List α} :
    lastNamed? name l = none ↔ name ∉ l.map nameOf := by
  simp [lastNamed?]

/-- What was given last under a name, with what was given before and after it. -/
theorem lastNamed?_eq_some_iff_append {name : String} {l : List α} {a : α} :
    lastNamed? name l = some a ↔
      nameOf a = name ∧ ∃ before after, l = before ++ a :: after ∧ ∀ b ∈ after, nameOf b ≠ name := by
  rw [lastNamed?, List.find?_eq_some_iff_append]
  simp only [beq_iff_eq, Bool.not_eq_true', beq_eq_false_iff_ne]
  refine and_congr_right fun _ => ⟨?_, ?_⟩
  · rintro ⟨after, before, h, hafter⟩
    refine ⟨before.reverse, after.reverse, ?_, fun b hb => hafter b (List.mem_reverse.1 hb)⟩
    rw [← List.reverse_reverse l, h]
    simp
  · rintro ⟨before, after, rfl, hafter⟩
    refine ⟨after.reverse, before.reverse, by simp, fun b hb => hafter b (List.mem_reverse.1 hb)⟩

theorem lastNamed?_eq_some_iff {name : String} {l : List α} (hnodup : (l.map nameOf).Nodup)
    {a : α} : lastNamed? name l = some a ↔ a ∈ l ∧ nameOf a = name := by
  refine ⟨mem_of_lastNamed?, ?_⟩
  rintro ⟨ha, rfl⟩
  cases h : lastNamed? (nameOf a) l with
  | none => exact absurd (List.mem_map_of_mem ha) (lastNamed?_eq_none_iff.1 h)
  | some b =>
    obtain ⟨hb, hname⟩ := mem_of_lastNamed? h
    exact congrArg some (List.inj_on_of_nodup_map hnodup hb ha hname)

/-- What is given under distinct names is there afterwards, beside what had other names. -/
theorem mem_insertMany {l : List α} (hnodup : (l.map nameOf).Nodup) {a : α} :
    a ∈ (r.insertMany l).toList ↔ a ∈ l ∨ a ∈ r.toList ∧ nameOf a ∉ l.map nameOf := by
  rw [mem_toList_iff, get?_insertMany, Option.or_eq_some_iff, lastNamed?_eq_some_iff hnodup,
    lastNamed?_eq_none_iff, mem_toList_iff]
  simp [and_comm]

/-! ## Extensionality -/

theorem toList_inj (h : r.toList = r'.toList) : r = r' := by
  cases r
  cases r'
  cases h
  rfl

/-- Whatever lists the things of a roster, each once and in any order, sorts to the roster: names
tell its things apart, so there is only one ascending order. -/
theorem mergeSort_eq_toList {values : List α} (hnodup : values.Nodup)
    (hmem : ∀ a, a ∈ values ↔ r.get? (nameOf a) = some a) :
    values.mergeSort (fun a b => nameOf a ≤ nameOf b) = r.toList := by
  have hperm : values.Perm r.toList :=
    (List.perm_ext_iff_of_nodup hnodup r.ascending.nodup).2 fun a => by
      rw [hmem, mem_toList_iff]
  have hsorted : (values.mergeSort fun a b => nameOf a ≤ nameOf b).Pairwise
      fun a b => nameOf a ≤ nameOf b := by
    have htrans (a b c : α) (hab : decide (nameOf a ≤ nameOf b) = true)
        (hbc : decide (nameOf b ≤ nameOf c) = true) : decide (nameOf a ≤ nameOf c) = true := by
      rw [decide_eq_true_eq] at hab hbc ⊢
      exact String.le_trans hab hbc
    have htotal (a b : α) :
        (decide (nameOf a ≤ nameOf b) || decide (nameOf b ≤ nameOf a)) = true := by
      simpa using String.le_total ..
    exact (List.pairwise_mergeSort htrans htotal values).imp fun h => of_decide_eq_true h
  have hascending : r.toList.Pairwise fun a b => nameOf a ≤ nameOf b :=
    r.ascending.imp fun h => String.not_lt.1 fun h' => String.lt_irrefl _ (String.lt_trans h h')
  refine ((List.mergeSort_perm values _).trans hperm).eq_of_pairwise ?_ hsorted hascending
  intro a b ha hb hab hba
  have ha := (hmem a).1 (List.mem_mergeSort.1 ha)
  have hb := mem_toList_iff.1 hb
  rw [String.le_antisymm hab hba, hb] at ha
  exact (Option.some.inj ha).symm

theorem eq_empty (h : ¬ r.isEmpty = false) : r = ∅ := by
  have hnil : r.toList = [] := by simpa [isEmpty] using h
  exact toList_inj hnil

theorem ext_get? (h : ∀ name, r.get? name = r'.get? name) : r = r' := by
  apply toList_inj
  rw [← mergeSort_eq_toList r.ascending.nodup fun a => mem_toList_iff (r := r),
    mergeSort_eq_toList r.ascending.nodup fun a => by rw [← h, mem_toList_iff]]

/-- There is only one ascending order. -/
theorem eq_of_mem_iff {l l' : List α} (hl : Ascending l) (hl' : Ascending l')
    (h : ∀ a, a ∈ l ↔ a ∈ l') : l = l' := by
  have heq : (⟨l, hl⟩ : Roster α) = ⟨l', hl'⟩ := by
    refine ext_get? fun name => Option.ext fun a => ?_
    rw [get?_eq_some_iff, get?_eq_some_iff, h]
  exact congrArg toList heq

theorem insertMany_append (r : Roster α) (l l' : List α) :
    r.insertMany (l ++ l') = (r.insertMany l).insertMany l' :=
  List.foldl_append ..

/-- Only what is given last under each name counts. -/
theorem insertMany_congr {l l' : List α}
    (h : ∀ name, lastNamed? name l = lastNamed? name l') : r.insertMany l = r.insertMany l' := by
  refine ext_get? fun name => ?_
  rw [get?_insertMany, get?_insertMany, h]

/-- The order of things under distinct names does not count. -/
theorem insertMany_perm {l l' : List α} (hnodup : (l.map nameOf).Nodup) (hperm : l.Perm l') :
    r.insertMany l = r.insertMany l' := by
  have hnodup' := ((hperm.map nameOf).nodup_iff).1 hnodup
  refine insertMany_congr fun name => Option.ext fun a => ?_
  rw [lastNamed?_eq_some_iff hnodup, lastNamed?_eq_some_iff hnodup', hperm.mem_iff]

/-- Two lists may change places if they agree on the names that they share. -/
theorem insertMany_comm_iff {l l' : List α} :
    (r.insertMany l).insertMany l' = (r.insertMany l').insertMany l ↔
      ∀ name, name ∈ l.map nameOf → name ∈ l'.map nameOf →
        lastNamed? name l = lastNamed? name l' := by
  have hget (l l' : List α) (name : String) : ((r.insertMany l).insertMany l').get? name =
      (lastNamed? name l').or ((lastNamed? name l).or (r.get? name)) := by
    rw [get?_insertMany, get?_insertMany]
  have hsome {l : List α} {name : String} (h : name ∈ l.map nameOf) :
      ∃ a, lastNamed? name l = some a := by
    cases ha : lastNamed? name l with
    | none => exact absurd h (lastNamed?_eq_none_iff.1 ha)
    | some a => exact ⟨a, rfl⟩
  constructor
  · intro h name hl hl'
    have hname := congrArg (get? · name) h
    obtain ⟨a, ha⟩ := hsome hl
    obtain ⟨b, hb⟩ := hsome hl'
    simp only [hget, ha, hb, Option.some_or] at hname
    rw [ha, hb, hname]
  · intro h
    refine ext_get? fun name => ?_
    rw [hget, hget]
    by_cases hl : name ∈ l.map nameOf
    · by_cases hl' : name ∈ l'.map nameOf
      · obtain ⟨a, ha⟩ := hsome hl
        rw [← h name hl hl', ha, Option.some_or]
      · rw [lastNamed?_eq_none_iff.2 hl', Option.none_or, Option.none_or]
    · rw [lastNamed?_eq_none_iff.2 hl, Option.none_or, Option.none_or]

/-- What is given under names that are given again leaves no trace. -/
theorem insertMany_insertMany {l l' : List α} (h : l.map nameOf ⊆ l'.map nameOf) :
    (r.insertMany l).insertMany l' = r.insertMany l' := by
  refine ext_get? fun name => ?_
  simp only [get?_insertMany]
  cases hl' : lastNamed? name l' with
  | some a => rfl
  | none =>
    have hl : lastNamed? name l = none :=
      lastNamed?_eq_none_iff.2 fun hmem => lastNamed?_eq_none_iff.1 hl' (h hmem)
    rw [hl]
    rfl

theorem lastNamed?_toList (r : Roster α) (name : String) :
    lastNamed? name r.toList = r.get? name := by
  cases h : lastNamed? name r.toList with
  | some a => exact (get?_eq_some_iff.2 (mem_of_lastNamed? h)).symm
  | none =>
    have hnone := List.find?_eq_none.1 h
    exact (List.find?_eq_none.2 fun a ha => hnone a (List.mem_reverse.2 ha)).symm

theorem ofList_toList (r : Roster α) : ofList r.toList = r := by
  refine ext_get? fun name => ?_
  rw [ofList, get?_insertMany, lastNamed?_toList, get?_empty, Option.or_none]

/-- What is given under every name that is taken leaves nothing of what was there. -/
theorem insertMany_of_names_subset {l : List α} (h : r.toList.map nameOf ⊆ l.map nameOf) :
    r.insertMany l = ofList l := by
  have hempty : (ofList r.toList).insertMany l = ofList l := insertMany_insertMany h
  rwa [ofList_toList] at hempty

/-- A roster that is given its own things, each changed but for its name, has the changed ones. -/
theorem toList_insertMany_map (r : Roster α) {f : α → α} (hf : ∀ a, nameOf (f a) = nameOf a) :
    (r.insertMany (r.toList.map f)).toList = r.toList.map f := by
  have hnames : (r.toList.map f).map nameOf = r.toList.map nameOf := by
    rw [List.map_map]
    exact List.map_congr_left fun a _ => hf a
  have hascending : Ascending (r.toList.map f) :=
    List.pairwise_map.2 (r.ascending.imp fun h => by rwa [hf, hf])
  have hchanged : r.insertMany (r.toList.map f) = ⟨r.toList.map f, hascending⟩ := by
    rw [insertMany_of_names_subset (hnames ▸ List.Subset.refl _)]
    exact ofList_toList ⟨r.toList.map f, hascending⟩
  rw [hchanged]

/-- If things that are alike have the same name, lists that are alike stay so when such things are
put in their places. -/
theorem forall₂_insertNamed {R : α → α → Prop} (hR : ∀ a b, R a b → nameOf a = nameOf b) {a b : α}
    (hab : R a b) {l l' : List α} (h : List.Forall₂ R l l') :
    List.Forall₂ R (insertNamed a l) (insertNamed b l') := by
  induction h with
  | nil => exact .cons hab .nil
  | @cons c d l l' hcd hl ih =>
    simp only [insertNamed, hR a b hab, hR c d hcd]
    split
    · exact .cons hab (.cons hcd hl)
    · split
      · exact .cons hcd ih
      · exact .cons hab hl

theorem forall₂_insertMany {R : α → α → Prop} (hR : ∀ a b, R a b → nameOf a = nameOf b)
    {l l' : List α} (hl : List.Forall₂ R l l') (h : List.Forall₂ R r.toList r'.toList) :
    List.Forall₂ R (r.insertMany l).toList (r'.insertMany l').toList := by
  induction hl generalizing r r' with
  | nil => exact h
  | cons hab _ ih => exact ih (forall₂_insertNamed hR hab h)

theorem lastNamed?_filter (keep : String → Bool) {name : String} (hname : keep name = true)
    (l : List α) : lastNamed? name (l.filter fun a => keep (nameOf a)) = lastNamed? name l := by
  rw [lastNamed?, lastNamed?, ← List.filter_reverse, List.find?_filter]
  congr 1
  funext a
  by_cases ha : nameOf a = name
  · simp [ha, hname]
  · simp [ha]

/-- Of the things under names that are kept, the roster of a list has those of the list, if these
have distinct names. -/
theorem perm_filter_ofList (keep : String → Bool) {l : List α}
    (hnodup : ((l.filter fun a => keep (nameOf a)).map nameOf).Nodup) :
    ((ofList l).toList.filter fun a => keep (nameOf a)).Perm
      (l.filter fun a => keep (nameOf a)) := by
  refine (List.perm_ext_iff_of_nodup ((ofList l).ascending.nodup.filter _)
    (List.Nodup.of_map nameOf hnodup)).2 fun a => ?_
  rw [List.mem_filter, mem_toList_iff, ofList, get?_insertMany, get?_empty, Option.or_none]
  by_cases hkeep : keep (nameOf a) = true
  · rw [← lastNamed?_filter keep hkeep, lastNamed?_eq_some_iff hnodup]
    simp [hkeep]
  · simp [hkeep]

end Roster

/-! ## Pairs -/

theorem Entries.value?_set (e : Entries) (key value key' : String) :
    (e.set key value).value? key' = if key = key' then some value else e.value? key' := by
  rw [Entries.value?, Entries.set, Roster.get?_insert]
  show Option.map _ (if key = key' then some (key, value) else e.get? key') = _
  split <;> rfl

/-- Entries are determined by the texts under their keys. -/
theorem Entries.ext_value? {e e' : Entries} (h : ∀ key, e.value? key = e'.value? key) : e = e' := by
  have hkey {e : Entries} {key : String} {x : String × String} (hx : e.get? key = some x) :
      x = (key, x.2) := by
    obtain ⟨-, hname⟩ := Roster.get?_eq_some_iff.1 hx
    exact Prod.ext hname rfl
  have hget (e : Entries) (key : String) : e.get? key = (e.value? key).map (key, ·) := by
    rw [Entries.value?]
    cases hx : e.get? key with
    | none => rfl
    | some x => exact congrArg some (hkey hx)
  refine Roster.ext_get? fun key => ?_
  rw [hget, hget, h]

theorem lookup_cons_ite {β : Type} (k k' : String) (b : β) (l : List (String × β)) :
    ((k, b) :: l).lookup k' = if k' = k then some b else l.lookup k' := by
  by_cases h : k' = k
  · simp [h]
  · have hne : (k' == k) = false := by simpa using h
    rw [List.lookup_cons, hne, if_neg h]

theorem lookup_pair {β : Type} (k k' : String) (b : β) :
    [(k, b)].lookup k' = if k' = k then some b else none :=
  lookup_cons_ite k k' b []

/-- The order of pairs says nothing about what is found under keys that do not repeat. -/
theorem lookup_eq_of_perm {β : Type} {l l' : List (String × β)} (h : l.Perm l')
    (hkeys : (l.map Prod.fst).Nodup) (k : String) : l.lookup k = l'.lookup k := by
  induction h with
  | nil => rfl
  | @cons p l l' _ ih =>
    rw [List.map_cons, List.nodup_cons] at hkeys
    rw [lookup_cons_ite, lookup_cons_ite, ih hkeys.2]
  | swap p q l =>
    have hne : p.1 ≠ q.1 := by
      rintro heq
      simp [heq] at hkeys
    rw [lookup_cons_ite, lookup_cons_ite, lookup_cons_ite, lookup_cons_ite]
    by_cases hp : k = p.1
    · rw [if_pos hp, if_pos hp, if_neg (hp ▸ hne)]
    · rw [if_neg hp, if_neg hp]
  | trans h _ ih ih' =>
    rw [ih hkeys, ih' ((h.map Prod.fst).nodup_iff.1 hkeys)]

theorem map_fst_zip_sublist {α β : Type} :
    ∀ (l : List α) (l' : List β), ((l.zip l').map Prod.fst).Sublist l
  | [], _ => .slnil
  | _ :: _, [] => List.nil_sublist _
  | _ :: l, _ :: l' => (map_fst_zip_sublist l l').cons_cons _

end OperatorRules
