import OperatorRules.Proofs.Json.Agreement

/-!
# Records that agree

A record opens on a value if there is something for its fields, each once and such as the field
accepts (`Opens`); whatever the source, the order of members and how numbers are read, this alone
decides whether its members are found, and what is found then. So on two spellings of one value a
record finds the same, and each of its fields decodes to the same (`members_agree`).
-/

namespace OperatorRules.Json

open Document

/-! ## Fields by their keys -/

namespace Record

variable {r : Record} {k : String}

/-- The keys of the fields in their declared order. -/
def keys (r : Record) : List String := r.fields.map Field.key

theorem field?_eq_none_iff : r.field? k = none ↔ k ∉ r.keys := by
  simp [field?, keys]

theorem field?_of_mem (hkeys : r.keys.Nodup) {f : Field} (hf : f ∈ r.fields) :
    r.field? f.key = some f := by
  have hsome : (r.field? f.key).isSome := by
    rw [Option.isSome_iff_ne_none, Ne, field?_eq_none_iff, not_not]
    exact List.mem_map_of_mem hf
  obtain ⟨f', hf'⟩ := Option.isSome_iff_exists.1 hsome
  have hkey : f'.key = f.key := by simpa using List.find?_some hf'
  rw [hf', List.inj_on_of_nodup_map hkeys (List.mem_of_find?_eq_some hf') hf hkey]

theorem takes_iff {f : Field} (hf : r.field? k = some f) {d : Document} :
    r.Takes k d ↔ f.trial d = .ok () := by
  rw [Takes, hf]

end Record

/-! ## Members of an object -/

section
variable {r : Record} {k : String} {d : Document} {f : Field} {found all : List (String × Document)}

/-- A member of a field goes through if it is the first under its key and is accepted. -/
theorem gather_eq_ok_iff (hf : r.field? k = some f) (ms : List (Except Fault String × Document))
    (ending : Ending) :
    r.gather false found ((.ok k, d) :: ms) ending = .ok all ↔
      (found.lookup k = none ∧ r.Takes k d) ∧
        r.gather false ((k, d) :: found) ms ending = .ok all := by
  rw [Record.takes_iff hf]
  cases hl : found.lookup k with
  | some d' =>
    rw [Record.gather]
    simp only [orFault, Except.ok_bind, hf, hl, Option.isSome_some, Bool.not_false, Bool.and_true,
      if_true, reduceCtorEq, false_and]
  | none =>
    cases ht : f.trial d with
    | error e =>
      rw [Record.gather]
      simp only [orFault, Except.ok_bind, hf, hl, ht, Option.isSome_none, Bool.and_false,
        Bool.false_eq_true, if_false, Except.error_bind, reduceCtorEq, and_false, false_and]
    | ok _ =>
      rw [gather_field hf hl ht]
      simp only [true_and]

variable (r) in
/-- The members of an object are gathered just if those under the keys of fields are there once and
are accepted. -/
theorem gather_laid (num : Number → Except Fault Number) (ms : List (String × Value))
    (found all : List (String × Document)) :
    r.gather false found (laidMembers num ms) .closed = .ok all ↔
      ((ms.filter fun m => m.1 ∈ r.keys).map Prod.fst).Nodup ∧
      (∀ m ∈ ms.filter fun m => m.1 ∈ r.keys,
        found.lookup m.1 = none ∧ r.Takes m.1 (laid num m.2)) ∧
      all = ((ms.filter fun m => m.1 ∈ r.keys).map fun m => (m.1, laid num m.2)).reverse ++
        found := by
  induction ms generalizing found with
  | nil =>
    show Except.ok found = Except.ok all ↔ _
    simp [eq_comm (a := all)]
  | cons m ms ih =>
    obtain ⟨k, v⟩ := m
    by_cases hk : k ∈ r.keys
    · obtain ⟨f, hf⟩ := Option.ne_none_iff_exists'.1 (mt Record.field?_eq_none_iff.1 (not_not.2 hk))
      rw [laidMembers, gather_eq_ok_iff hf, ih, List.filter_cons_of_pos (by simpa using hk)]
      generalize ms.filter (fun m => decide (m.1 ∈ r.keys)) = known
      have hlookup (m : String × Value) : ((k, laid num v) :: found).lookup m.1 = none ↔
          m.1 ≠ k ∧ found.lookup m.1 = none := by
        rw [lookup_cons_ite]
        split <;> simp [*]
      have hnew : k ∉ known.map Prod.fst ↔ ∀ m ∈ known, m.1 ≠ k := by
        rw [← List.forall_mem_ne, List.forall_mem_map]
        exact forall₂_congr fun _ _ => ne_comm
      rw [List.map_cons, List.map_cons, List.nodup_cons, List.reverse_cons, List.append_assoc,
        List.forall_mem_cons, List.singleton_append, hnew]
      simp only [hlookup]
      constructor
      · rintro ⟨hhead, hnodup, hrest, hall⟩
        exact ⟨⟨fun m hm => (hrest m hm).1.1, hnodup⟩,
          ⟨hhead, fun m hm => ⟨(hrest m hm).1.2, (hrest m hm).2⟩⟩, hall⟩
      · rintro ⟨⟨hne, hnodup⟩, ⟨hhead, hrest⟩, hall⟩
        exact ⟨hhead, hnodup, fun m hm => ⟨⟨hne m hm, (hrest m hm).1⟩, (hrest m hm).2⟩, hall⟩
    · have hnone : r.field? k = none := Record.field?_eq_none_iff.2 hk
      rw [laidMembers, gather_unknown hnone (skip_laid num v), ih,
        List.filter_cons_of_neg (by simpa using hk)]

end

/-! ## Items of an array -/

section
variable (r : Record) (s : Source) (num : Number → Except Fault Number)

/-- The items of an array are taken for the fields just if there are not too many and each is
accepted. -/
theorem align_laid (n : Nat) (fs : List Field) (vs : List Value)
    (all : List (String × Document)) :
    r.align s n fs (laidItems num vs) .closed = .ok all ↔
      vs.length ≤ fs.length ∧ (∀ p ∈ fs.zip vs, p.1.trial (laid num p.2) = .ok ()) ∧
      all = (fs.zip vs).map fun p => (p.1.key, laid num p.2) := by
  induction fs generalizing vs all with
  | nil =>
    cases vs with
    | nil =>
      show Except.ok [] = Except.ok all ↔ _
      simp
    | cons v vs => cases s <;> simp [laidItems, Record.align]
  | cons f fs ih =>
    cases vs with
    | nil =>
      show Except.ok [] = Except.ok all ↔ _
      simp
    | cons v vs =>
      rw [laidItems, Record.align, List.zip_cons_cons, List.forall_mem_cons, List.map_cons,
        List.length_cons, List.length_cons, Nat.succ_le_succ_iff, Except.bind_eq_ok_iff]
      constructor
      · rintro ⟨_, htrial, hrest⟩
        obtain ⟨rest, hrest, hall⟩ := Except.bind_eq_ok_iff.1 hrest
        obtain ⟨hlength, htrials, rfl⟩ := (ih vs rest).1 hrest
        exact ⟨hlength, ⟨htrial, htrials⟩, (Except.ok.inj hall).symm⟩
      · rintro ⟨hlength, ⟨htrial, htrials⟩, rfl⟩
        exact ⟨(), htrial, Except.bind_eq_ok_iff.2 ⟨_, (ih vs _).2 ⟨hlength, htrials, rfl⟩, rfl⟩⟩

end

/-! ## Records that open -/

/-- What a value has for the fields of a record is there once each, and accepted by its field. -/
structure Record.Opens (r : Record) (num : Number → Except Fault Number)
    (fields : List (String × Value)) : Prop where
  keys : (fields.map Prod.fst).Nodup
  takes : ∀ m ∈ fields, r.Takes m.1 (laid num m.2)

section
variable {r : Record} {num : Number → Except Fault Number} {v : Value}

theorem Record.takes_zip_iff (hkeys : r.keys.Nodup) (vs : List Value) :
    (∀ m ∈ r.keys.zip vs, r.Takes m.1 (laid num m.2)) ↔
      ∀ p ∈ r.fields.zip vs, p.1.trial (laid num p.2) = .ok () := by
  rw [Record.keys, List.zip_map_left, List.forall_mem_map]
  refine forall₂_congr fun p hp => ?_
  exact Record.takes_iff (Record.field?_of_mem hkeys (List.of_mem_zip (a := p.1) hp).1)

theorem map_zip_keys (r : Record) (num : Number → Except Fault Number) (vs : List Value) :
    ((r.keys.zip vs).map fun m => (m.1, laid num m.2)) =
      (r.fields.zip vs).map fun p => (p.1.key, laid num p.2) := by
  rw [Record.keys, List.zip_map_left, List.map_map]
  rfl

/-- What a record finds, if it opens. -/
theorem members_of_opens (hkeys : r.keys.Nodup) (s : Source) {fields : List (String × Value)}
    (hfields : v.fieldsOf? r.keys = some fields) (h : r.Opens num fields) :
    ∃ m, r.members s (laid num v) = .ok m ∧
      m.found.Perm (fields.map fun m => (m.1, laid num m.2)) := by
  obtain ⟨hnodup, htakes⟩ := h
  cases v with
  | object ms =>
    obtain rfl := Option.some.inj hfields
    have hgather := (gather_laid r num ms [] _).2 ⟨hnodup, fun m hm => ⟨rfl, htakes m hm⟩, rfl⟩
    rw [laid, Record.members, hgather, List.append_nil]
    exact ⟨_, rfl, List.reverse_perm _⟩
  | array vs =>
    obtain ⟨hlength, hzip⟩ := Option.ite_none_right_eq_some.1 hfields
    obtain rfl := Option.some.inj hzip
    rw [Record.keys, List.length_map] at hlength
    have halign := (align_laid r s num (laidItems num vs).length r.fields vs _).2
      ⟨hlength, (Record.takes_zip_iff hkeys vs).1 htakes, rfl⟩
    rw [laid, Record.members, halign, map_zip_keys]
    exact ⟨_, rfl, .refl _⟩
  | _ => cases hfields

theorem members_eq_mismatch {s : Source} (harray : ∀ vs, v ≠ .array vs)
    (hobject : ∀ ms, v ≠ .object ms) :
    r.members s (laid num v) = (laid num v).mismatch r.title := by
  cases v with
  | array vs => exact absurd rfl (harray vs)
  | object ms => exact absurd rfl (hobject ms)
  | _ => rfl

/-- A record that does not open finds nothing. -/
theorem exists_members_error (hkeys : r.keys.Nodup) (s : Source)
    (hclosed : ∀ fields ∈ v.fieldsOf? r.keys, ¬ r.Opens num fields) :
    ∃ e, r.members s (laid num v) = .error e := by
  cases hm : r.members s (laid num v) with
  | error e => exact ⟨e, rfl⟩
  | ok m =>
    cases v with
    | object ms =>
      rw [laid, Record.members] at hm
      obtain ⟨all, hgather, -⟩ := Except.bind_eq_ok_iff.1 hm
      obtain ⟨hnodup, htakes, -⟩ := (gather_laid r num ms [] all).1 hgather
      exact absurd ⟨hnodup, fun m hm => (htakes m hm).2⟩ (hclosed _ rfl)
    | array vs =>
      rw [laid, Record.members] at hm
      obtain ⟨all, halign, -⟩ := Except.bind_eq_ok_iff.1 hm
      obtain ⟨hlength, htrials, -⟩ := (align_laid r s num _ r.fields vs all).1 halign
      rw [← List.length_map Field.key] at hlength
      have htakes := (Record.takes_zip_iff hkeys vs).2 htrials
      exact absurd ⟨hkeys.sublist (map_fst_zip_sublist r.keys vs), htakes⟩
        (hclosed _ (if_pos hlength))
    | _ =>
      rw [members_eq_mismatch (by simp) (by simp)] at hm
      obtain ⟨e, he⟩ := exists_mismatch_eq _ Members r.title
      rw [he] at hm
      cases hm

end

/-! ## Fields that agree -/

/-- Fields under the same keys in the same order, each of which accepts related values alike. -/
def FieldsAgree (rel : String → Value → Value → Prop) : List Field → List Field → Prop :=
  List.Forall₂ fun f f' => f.key = f'.key ∧
    ∀ {num num' : Number → Except Fault Number} {v u : Value}, rel f.key v u →
      (f.trial (laid num v) = .ok () ↔ f'.trial (laid num' u) = .ok ())

/-- The fields have the same keys for all sources, and what they decode respects what is related
under its key. -/
def FieldsRespect (rel : String → Value → Value → Prop) (fs : Source → List Field) : Prop :=
  ∀ s s', FieldsAgree rel (fs s) (fs s')

namespace FieldsRespect

variable {rel : String → Value → Value → Prop}

theorem nil : FieldsRespect rel fun _ => [] := fun _ _ => .nil

theorem cons {α : Type} {k : String} {read : Decoder α} {fs : Source → List Field}
    (h : Respects (rel k) read) (hfs : FieldsRespect rel fs) :
    FieldsRespect rel fun s => .of k (read s) :: fs s := fun s s' =>
  .cons ⟨rfl, fun hv => ((h.agree hv).map fun _ _ _ => rfl).ok_iff ()⟩ (hfs s s')

end FieldsRespect

section
variable {rel : String → Value → Value → Prop} {r r' : Record}
  {num num' : Number → Except Fault Number} {v u : Value}

theorem FieldsAgree.keys_eq (h : FieldsAgree rel r.fields r'.fields) : r'.keys = r.keys := by
  rw [Record.keys, Record.keys]
  generalize r.fields = fs, r'.fields = fs' at h
  induction h with
  | nil => rfl
  | cons hf _ ih => rw [List.map_cons, List.map_cons, hf.1, ih]

theorem FieldsAgree.takes_iff (h : FieldsAgree rel r.fields r'.fields) {k : String}
    (hv : rel k v u) : r.Takes k (laid num v) ↔ r'.Takes k (laid num' u) := by
  rw [Record.Takes, Record.Takes, Record.field?, Record.field?]
  generalize r.fields = fs, r'.fields = fs' at h
  induction h with
  | nil => simp only [List.find?_nil, skip_laid]
  | @cons f f' fs fs' hf _ ih =>
    rw [List.find?_cons, List.find?_cons, ← hf.1]
    by_cases hk : f.key = k
    · simp only [hk, BEq.rfl]
      exact hf.2 (hk ▸ hv)
    · simp only [beq_eq_false_iff_ne.2 hk]
      exact ih

theorem Memberwise.forall_iff {l l' : List (String × Value)} (h : Memberwise rel l l')
    {p q : String → Value → Prop} (hpq : ∀ {k v u}, rel k v u → (p k v ↔ q k u)) :
    (∀ m ∈ l, p m.1 m.2) ↔ ∀ m ∈ l', q m.1 m.2 := by
  induction h with
  | nil => simp
  | @cons m m' l l' hm _ ih =>
    rw [List.forall_mem_cons, List.forall_mem_cons, ih, hpq hm.2, hm.1]

/-- Records open alike on what is related up to order. -/
theorem opens_iff (hr : FieldsAgree rel r.fields r'.fields) {l l₁ l' : List (String × Value)}
    (hrel : Memberwise rel l l₁) (hperm : l'.Perm l₁) : r.Opens num l ↔ r'.Opens num' l' := by
  have hnodup : (l.map Prod.fst).Nodup ↔ (l'.map Prod.fst).Nodup := by
    rw [(hperm.map Prod.fst).nodup_iff, hrel.keys_eq]
  have htakes : (∀ m ∈ l, r.Takes m.1 (laid num m.2)) ↔
      ∀ m ∈ l', r'.Takes m.1 (laid num' m.2) := by
    rw [hrel.forall_iff (p := fun k v => r.Takes k (laid num v))
      (q := fun k u => r'.Takes k (laid num' u)) hr.takes_iff]
    exact forall_congr' fun m => by rw [hperm.mem_iff]
  exact ⟨fun ⟨h, h'⟩ => ⟨hnodup.1 h, htakes.1 h'⟩, fun ⟨h, h'⟩ => ⟨hnodup.2 h, htakes.2 h'⟩⟩

/-! ## Members that agree -/

/-- Two documents are related values laid out. -/
def LaidOut (R : Value → Value → Prop) (num num' : Number → Except Fault Number)
    (d d' : Document) : Prop :=
  ∃ v u, R v u ∧ d = laid num v ∧ d' = laid num' u

/-- Under each key there is nothing in both, or related values laid out. -/
def Alike (rel : String → Value → Value → Prop) (num num' : Number → Except Fault Number)
    (m m' : Members) : Prop :=
  ∀ k, Option.Rel (LaidOut (rel k) num num') (m.found.lookup k) (m'.found.lookup k)

theorem Memberwise.lookup {l l' : List (String × Value)} (h : Memberwise rel l l') (k : String) :
    Option.Rel (LaidOut (rel k) num num') ((l.map fun m => (m.1, laid num m.2)).lookup k)
      ((l'.map fun m => (m.1, laid num' m.2)).lookup k) := by
  induction h with
  | nil => exact .none
  | @cons m m' l l' hm _ ih =>
    rw [List.map_cons, List.map_cons, lookup_cons_ite, lookup_cons_ite, ← hm.1]
    by_cases hk : k = m.1
    · rw [if_pos hk, if_pos hk]
      exact .some ⟨m.2, m'.2, hk ▸ hm.2, rfl, rfl⟩
    · rw [if_neg hk, if_neg hk]
      exact ih

theorem lookup_found {m : Members} {l : List (String × Value)} (hkeys : (l.map Prod.fst).Nodup)
    (h : m.found.Perm (l.map fun m => (m.1, laid num m.2))) (k : String) :
    m.found.lookup k = (l.map fun m => (m.1, laid num m.2)).lookup k := by
  refine (lookup_eq_of_perm h.symm ?_ k).symm
  rw [List.map_map]
  exact hkeys

/-- Records that do not open agree in that they find nothing. -/
theorem agree_of_closed {R : Members → Members → Prop} (hkeys : r.keys.Nodup)
    (hkeys' : r'.keys.Nodup) (s s' : Source)
    (hclosed : ∀ fields ∈ v.fieldsOf? r.keys, ¬ r.Opens num fields)
    (hclosed' : ∀ fields ∈ u.fieldsOf? r'.keys, ¬ r'.Opens num' fields) :
    Agree R (r.members s (laid num v)) (r'.members s' (laid num' u)) := by
  obtain ⟨e, he⟩ := exists_members_error hkeys s hclosed
  obtain ⟨e', he'⟩ := exists_members_error hkeys' s' hclosed'
  rw [he, he']
  exact .error e e'

/-- On values with the same for its fields a record finds the same. -/
theorem members_agree (hr : FieldsAgree rel r.fields r'.fields) (hkeys : r.keys.Nodup)
    (h : SameFields rel r.keys v u) (s s' : Source) :
    Agree (Alike rel num num') (r.members s (laid num v)) (r'.members s' (laid num' u)) := by
  have hkeys' : r'.keys.Nodup := hr.keys_eq ▸ hkeys
  rw [SameFields] at h
  generalize hl : v.fieldsOf? r.keys = l?, hl' : u.fieldsOf? r.keys = l?' at h
  rw [← hr.keys_eq] at hl'
  cases h with
  | none =>
    exact agree_of_closed hkeys hkeys' s s' (by simp [hl]) (by simp [hl'])
  | @some l l' h =>
    obtain ⟨l₁, hrel, hperm⟩ := h
    have hopens : r.Opens num l ↔ r'.Opens num' l' := opens_iff hr hrel hperm
    by_cases ho : r.Opens num l
    · obtain ⟨m, hm, hfound⟩ := members_of_opens hkeys s hl ho
      obtain ⟨m', hm', hfound'⟩ := members_of_opens hkeys' s' hl' (hopens.1 ho)
      have hkeys₁ : (l₁.map Prod.fst).Nodup := hrel.keys_eq ▸ ho.keys
      rw [hm, hm']
      refine .ok fun k => ?_
      rw [lookup_found ho.keys hfound, lookup_found hkeys₁ (hfound'.trans (hperm.map _))]
      exact hrel.lookup k
    · have hclosed : ∀ fields ∈ v.fieldsOf? r.keys, ¬ r.Opens num fields := by simpa [hl] using ho
      have hclosed' : ∀ fields ∈ u.fieldsOf? r'.keys, ¬ r'.Opens num' fields := by
        simpa [hl'] using mt hopens.2 ho
      exact agree_of_closed hkeys hkeys' s s' hclosed hclosed'

/-- On two spellings of one value a record finds the same. -/
theorem members_respect {r : Source → Record} {keys : List String}
    (hr : FieldsRespect (fun k => UpToOrder (rel k)) fun s => (r s).fields)
    (hkeys : ∀ s, (r s).keys = keys) (hnodup : keys.Nodup)
    (h : UpToOrder (Respells rel keys) v u) (s s' : Source) :
    Agree (Alike (fun k => UpToOrder (rel k)) num num') ((r s).members s (laid num v))
      ((r s').members s' (laid num' u)) := by
  obtain rfl := hkeys s
  exact members_agree (hr s s') hnodup (sameFields_of_upToOrder h) s s'

end

section
variable {α : Type} {rel : String → Value → Value → Prop} {num num' : Number → Except Fault Number}
  {m m' : Members} {k : String} {read : Decoder α}

theorem Alike.required (h : Alike rel num num' m m') (s s' : Source)
    (hread : Respects (rel k) read) :
    Agree Eq (m.required k (read s)) (m'.required k (read s')) := by
  have hk := h k
  rw [Members.required, Members.required]
  generalize m.found.lookup k = d?, m'.found.lookup k = d?' at hk
  cases hk with
  | none => exact .error ..
  | some hd =>
    obtain ⟨v, u, hv, rfl, rfl⟩ := hd
    exact hread.agree hv

theorem Alike.optional (h : Alike rel num num' m m') (s s' : Source)
    (hread : Respects (rel k) read) (default : α) :
    Agree Eq (m.optional k (read s) default) (m'.optional k (read s') default) := by
  have hk := h k
  rw [Members.optional, Members.optional]
  generalize m.found.lookup k = d?, m'.found.lookup k = d?' at hk
  cases hk with
  | none => exact .ok rfl
  | some hd =>
    obtain ⟨v, u, hv, rfl, rfl⟩ := hd
    exact hread.agree hv

end

end OperatorRules.Json
