import OperatorRules.Json.Document
import OperatorRules.Proofs.Roster

/-!
# One record spelled in several ways

Where a value stands for a record, the order of its members and members of other keys say nothing:
`Respells` lets both differ, and the fields be respelled in their turn. A reader may moreover meet
the members of every object in an order of its own, such as the ascending one (`Arranges`). What
stands under the keys of a record, each key with its value (`Value.fieldsOf?`), is the same through
both, up to order and to what is allowed for the fields: `sameFields_of_upToOrder`.
-/

namespace OperatorRules.Json

/-! ## Values -/

namespace Value

/-- No object in the value repeats a key. -/
inductive Distinct : Value → Prop
  | null : Distinct .null
  | bool (b : Bool) : Distinct (.bool b)
  | number (n : Number) : Distinct (.number n)
  | string (s : String) : Distinct (.string s)
  | array {items : List Value} (h : ∀ v ∈ items, Distinct v) : Distinct (.array items)
  | object {members : List (String × Value)} (hkeys : (members.map Prod.fst).Nodup)
      (h : ∀ m ∈ members, Distinct m.2) : Distinct (.object members)

/-- What stands for the fields of a record with these keys: the members under them, or the items in
their order if there are not too many. -/
def fieldsOf? (keys : List String) : Value → Option (List (String × Value))
  | .object ms => some (ms.filter fun m => m.1 ∈ keys)
  | .array vs => if vs.length ≤ keys.length then some (keys.zip vs) else none
  | _ => none

theorem sortedItems_eq_map (vs : List Value) : sortedItems vs = vs.map sorted := by
  induction vs with
  | nil => rfl
  | cons v vs ih => rw [sortedItems, ih, List.map_cons]

theorem sortedMembers_eq_map (ms : List (String × Value)) :
    sortedMembers ms = ms.map fun m => (m.1, m.2.sorted) := by
  induction ms with
  | nil => rfl
  | cons m ms ih => rw [sortedMembers, ih, List.map_cons]

end Value

/-! ## Respellings -/

section
variable (R : Value → Value → Prop) (rel : String → Value → Value → Prop)

/-- The same keys in the same order, with values that are related key by key. -/
abbrev Memberwise : List (String × Value) → List (String × Value) → Prop :=
  List.Forall₂ fun m m' => m.1 = m'.1 ∧ rel m.1 m.2 m'.2

/-- The spellings of a record with these keys: members in any order, any members of other keys
beside them. The fields may be respelled too, as `rel` says for each key. -/
inductive Respells (keys : List String) : Value → Value → Prop
  | object {ms ms' extra ns : List (String × Value)} (h : Memberwise rel ms ms')
      (hextra : ∀ m ∈ extra, m.1 ∉ keys) (hperm : ns.Perm (ms' ++ extra)) :
      Respells keys (.object ms) (.object ns)
  | array {vs ws : List Value} (hlength : ws.length = vs.length)
      (h : Memberwise rel (keys.zip vs) (keys.zip ws)) : Respells keys (.array vs) (.array ws)
  | same {v : Value} (harray : ∀ vs, v ≠ .array vs) (hobject : ∀ ms, v ≠ .object ms) :
      Respells keys v v

/-- The spellings of an array, item by item. -/
inductive Each : Value → Value → Prop
  | array {vs ws : List Value} (h : List.Forall₂ R vs ws) : Each (.array vs) (.array ws)
  | same {v : Value} (harray : ∀ vs, v ≠ .array vs) : Each v v

end

theorem Each.refl {R : Value → Value → Prop} (hR : ∀ v, R v v) (v : Value) : Each R v v := by
  cases v with
  | array vs => exact .array (List.forall₂_same.2 fun v _ => hR v)
  | _ => exact .same nofun

theorem Respells.refl {rel : String → Value → Value → Prop} (hrel : ∀ k v, rel k v v)
    (keys : List String) (v : Value) : Respells rel keys v v := by
  have hmembers (ms : List (String × Value)) : Memberwise rel ms ms :=
    List.forall₂_same.2 fun m _ => ⟨rfl, hrel m.1 m.2⟩
  cases v with
  | object ms => exact .object (hmembers ms) (List.forall_mem_nil _) (by rw [List.append_nil])
  | array vs => exact .array rfl (hmembers _)
  | _ => exact .same nofun nofun

/-! ## Arrangements -/

/-- `g` brings the members of every object into an order of its own. Where keys repeat it may do
more; of the members whose keys are kept it may not, if they do not repeat. -/
structure Arranges (g : Value → Value) : Prop where
  array (vs : List Value) : g (.array vs) = .array (vs.map g)
  object (ms : List (String × Value)) : ∃ us, g (.object ms) = .object us ∧
    ∀ keep : String → Bool, ((ms.filter fun m => keep m.1).map Prod.fst).Nodup →
      (us.filter fun m => keep m.1).Perm ((ms.filter fun m => keep m.1).map fun m => (m.1, g m.2))
  other {v : Value} (harray : ∀ vs, v ≠ .array vs) (hobject : ∀ ms, v ≠ .object ms) : g v = v

theorem arranges_id : Arranges id where
  array vs := by rw [List.map_id]; rfl
  object ms := ⟨ms, rfl, fun _ _ => by simp⟩
  other _ _ := rfl

theorem arranges_sorted : Arranges Value.sorted where
  array vs := by rw [Value.sorted, Value.sortedItems_eq_map]
  object ms := by
    refine ⟨_, rfl, fun keep hkeys => ?_⟩
    have hfilter : (Value.sortedMembers ms).filter (fun m => keep m.1) =
        (ms.filter fun m => keep m.1).map fun m => (m.1, m.2.sorted) := by
      rw [Value.sortedMembers_eq_map, List.filter_map]
      rfl
    rw [← hfilter]
    refine Roster.perm_filter_ofList keep ?_
    show (((Value.sortedMembers ms).filter fun m => keep m.1).map Prod.fst).Nodup
    rw [hfilter, List.map_map]
    exact hkeys
  other {v} harray hobject := by
    cases v with
    | array vs => exact absurd rfl (harray vs)
    | object ms => exact absurd rfl (hobject ms)
    | _ => rfl

namespace Arranges

variable {g : Value → Value}

/-- Nothing but itself is brought into the form of something without members and items. -/
theorem eq_iff (hg : Arranges g) {v w : Value} (harray : ∀ vs, w ≠ .array vs)
    (hobject : ∀ ms, w ≠ .object ms) : g v = w ↔ v = w := by
  constructor
  · rintro rfl
    cases v with
    | array vs => exact absurd (hg.array vs) (harray _)
    | object ms =>
      obtain ⟨us, hus, -⟩ := hg.object ms
      exact absurd hus (hobject us)
    | _ => exact (hg.other (by simp) (by simp)).symm
  · rintro rfl
    exact hg.other harray hobject

theorem string_iff (hg : Arranges g) {v : Value} {s : String} : g v = .string s ↔ v = .string s :=
  hg.eq_iff (by simp) (by simp)

theorem null_iff (hg : Arranges g) {v : Value} : g v = .null ↔ v = .null :=
  hg.eq_iff (by simp) (by simp)

theorem ne_array (hg : Arranges g) {v : Value} (hv : ∀ vs, v ≠ .array vs) (ws : List Value) :
    g v ≠ .array ws := by
  cases v with
  | array vs => exact absurd rfl (hv vs)
  | object ms =>
    obtain ⟨us, hus, -⟩ := hg.object ms
    simp [hus]
  | _ => rw [hg.other (by simp) (by simp)]; exact hv ws

theorem ne_object (hg : Arranges g) {v : Value} (hv : ∀ ms, v ≠ .object ms)
    (us : List (String × Value)) : g v ≠ .object us := by
  cases v with
  | array vs => simp [hg.array]
  | object ms => exact absurd rfl (hv ms)
  | _ => rw [hg.other (by simp) (by simp)]; exact hv us

/-- The members of an object whose keys do not repeat are arranged as a whole. -/
theorem perm_members (hg : Arranges g) {ms us : List (String × Value)}
    (hkeys : (ms.map Prod.fst).Nodup) (h : g (.object ms) = .object us) :
    us.Perm (ms.map fun m => (m.1, g m.2)) := by
  obtain ⟨us', hus, hperm⟩ := hg.object ms
  obtain rfl := Value.object.inj (hus.symm.trans h)
  simpa using hperm (fun _ => true) (by simpa using hkeys)

/-- Only an object with one member is brought into the form of one. -/
theorem ne_single (hg : Arranges g) {v : Value} (hv : v.Distinct)
    (hne : ∀ k w, v ≠ .object [(k, w)]) (k : String) (w : Value) : g v ≠ .object [(k, w)] := by
  cases hv with
  | @object ms hkeys _ =>
    intro h
    have hlength := (hg.perm_members hkeys h).length_eq
    rw [List.length_map] at hlength
    obtain ⟨m, rfl⟩ := List.length_eq_one_iff.1 hlength.symm
    exact hne m.1 m.2 rfl
  | _ => exact hg.ne_object (by simp) _

end Arranges

/-- `u` is a spelling of `v` in some arrangement, where no object in `v` repeats a key. -/
def UpToOrder (R : Value → Value → Prop) (v u : Value) : Prop :=
  v.Distinct ∧ ∃ w g, R v w ∧ Arranges g ∧ u = g w

/-! ## Fields -/

section
variable {rel : String → Value → Value → Prop} {keys : List String}

theorem Memberwise.keys_eq {l l' : List (String × Value)} (h : Memberwise rel l l') :
    l'.map Prod.fst = l.map Prod.fst := by
  induction h with
  | nil => rfl
  | cons hm _ ih => rw [List.map_cons, List.map_cons, ih, hm.1]

theorem Memberwise.filter {l l' : List (String × Value)} (h : Memberwise rel l l')
    (keep : String → Bool) :
    Memberwise rel (l.filter fun m => keep m.1) (l'.filter fun m => keep m.1) :=
  List.rel_filter (fun _ _ hm => by simp only [hm.1]) h

/-- Members that are respelled one by one and then arranged. -/
theorem Memberwise.arrange {l l' : List (String × Value)} (h : Memberwise rel l l')
    (hdistinct : ∀ m ∈ l, m.2.Distinct) {g : Value → Value} (hg : Arranges g) :
    Memberwise (fun k => UpToOrder (rel k)) l (l'.map fun m => (m.1, g m.2)) := by
  induction h with
  | nil => exact .nil
  | @cons m m' l l' hm _ ih =>
    refine .cons ⟨hm.1, hdistinct m (List.mem_cons_self ..), m'.2, g, hm.2, hg, rfl⟩ (ih ?_)
    exact fun m hmem => hdistinct m (List.mem_cons_of_mem _ hmem)

/-- The same for the fields of a record: neither value stands for one, or the fields of both are
related one by one, up to their order. -/
def SameFields (rel : String → Value → Value → Prop) (keys : List String) (v u : Value) : Prop :=
  Option.Rel (fun l l' => ∃ l₁, Memberwise rel l l₁ ∧ l'.Perm l₁) (v.fieldsOf? keys)
    (u.fieldsOf? keys)

theorem sameFields_of_upToOrder {v u : Value} (h : UpToOrder (Respells rel keys) v u) :
    SameFields (fun k => UpToOrder (rel k)) keys v u := by
  obtain ⟨hv, w, g, hw, hg, rfl⟩ := h
  cases hw with
  | @object ms ms' extra ns h hextra hperm =>
    cases hv with | object hkeys hdistinct =>
    obtain ⟨us, hus, harranged⟩ := hg.object ns
    have hfields := h.filter fun k => k ∈ keys
    have hextra : extra.filter (fun m => decide (m.1 ∈ keys)) = [] :=
      List.filter_eq_nil_iff.2 fun m hm => by simpa using hextra m hm
    have hknown : (ns.filter fun m => decide (m.1 ∈ keys)).Perm
        (ms'.filter fun m => decide (m.1 ∈ keys)) := by
      have hfilter := hperm.filter fun m => decide (m.1 ∈ keys)
      rwa [List.filter_append, hextra, List.append_nil] at hfilter
    have hnodup : ((ns.filter fun m => decide (m.1 ∈ keys)).map Prod.fst).Nodup := by
      rw [(hknown.map Prod.fst).nodup_iff, hfields.keys_eq]
      exact hkeys.sublist (List.filter_sublist.map Prod.fst)
    rw [SameFields, hus]
    refine .some ⟨_, hfields.arrange (fun m hm => hdistinct m (List.mem_of_mem_filter hm)) hg, ?_⟩
    exact (harranged (fun k => k ∈ keys) hnodup).trans (hknown.map _)
  | @array vs ws hlength h =>
    cases hv with | array hdistinct =>
    have hzip : keys.zip (ws.map g) = (keys.zip ws).map fun m => (m.1, g m.2) := by
      rw [List.zip_map_right]
      rfl
    rw [SameFields, hg.array, Value.fieldsOf?, Value.fieldsOf?, List.length_map, hlength, hzip]
    split
    · refine .some ⟨_, h.arrange (fun m hm => ?_) hg, .refl _⟩
      exact hdistinct m.2 (List.of_mem_zip (a := m.1) hm).2
    · exact .none
  | same harray hobject =>
    rw [hg.other harray hobject]
    have hnone : v.fieldsOf? keys = none := by
      cases v with
      | array vs => exact absurd rfl (harray vs)
      | object ms => exact absurd rfl (hobject ms)
      | _ => rfl
    rw [SameFields, hnone]
    exact .none

end

end OperatorRules.Json
