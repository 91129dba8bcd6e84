import OperatorRules.Json.Decoder
import OperatorRules.Manifest.Data
import OperatorRules.Proofs.Disk
import OperatorRules.Proofs.Json.Layout
import OperatorRules.Proofs.Roster

/-!
# Decoding what was laid out

One law for each reader, on a value laid out as a document: entries come back as the roster they
were listed from (`entries_ofEntries`), a list as what its items decode to (`list_ofValue`), and
the members of a record are found under their keys where every one of them is taken
(`members_ofValue`).
-/

namespace OperatorRules.Json

open Document

/-! ## Texts, entries and lists -/

theorem eachEntry_ofMembers (e : Entries) (l : List (String × String)) :
    eachEntry e (ofMembers (l.map fun (k, v) => (k, .string v))) .closed =
      .ok (e.insertMany l) := by
  induction l generalizing e with
  | nil => rfl
  | cons kv l ih => exact ih (e.set kv.1 kv.2)

theorem entries_ofEntries (e : Entries) : entries (ofValue (.ofEntries e)) = .ok e := by
  rw [Value.ofEntries, ofValue, entries, eachEntry_ofMembers]
  exact congrArg Except.ok (Roster.ofList_toList e)

theorem text?_ofString (s : String) : text? (ofValue (.string s)) = .ok (some s) := rfl

theorem list_ofValue {α : Type} {read : Document → Decoded α} {toJson : α → Value}
    (h : ∀ a, read (ofValue (toJson a)) = .ok a) (l : List α) :
    list read (ofValue (.array (l.map toJson))) = .ok l := by
  show each read (ofItems (l.map toJson)) .closed = .ok l
  induction l with
  | nil => rfl
  | cons a l ih =>
    rw [List.map_cons, ofItems, each, h a, ih]
    rfl

/-! ## Members of a record -/

/-- The members of an object. -/
def Value.members : Value → List (String × Value)
  | .object ms => ms
  | _ => []

/-- What a record takes under a key: what the field of the key accepts, or anything without a fault
under another key. -/
def Record.Takes (r : Record) (k : String) (d : Document) : Prop :=
  match r.field? k with
  | none => d.skip = .ok ()
  | some f => f.trial d = .ok ()

/-- Members whose keys are among the given ones in their order, each of which the record takes. -/
inductive Conforms (r : Record) : List String → List (String × Value) → Prop where
  | nil : Conforms r [] []
  | member {k : String} {v : Value} {ks : List String} {ms : List (String × Value)}
      (hv : r.Takes k (ofValue v)) (h : Conforms r ks ms) : Conforms r (k :: ks) ((k, v) :: ms)
  | absent {k : String} {ks : List String} {ms : List (String × Value)} (h : Conforms r ks ms) :
      Conforms r (k :: ks) ms

theorem Conforms.keys {r : Record} {ks : List String} {ms : List (String × Value)}
    (h : Conforms r ks ms) : (ms.map Prod.fst).Sublist ks := by
  induction h with
  | nil => exact List.Sublist.refl _
  | member _ _ ih => exact ih.cons_cons _
  | absent _ ih => exact ih.cons _

theorem Conforms.takes {r : Record} {ks : List String} {ms : List (String × Value)}
    (h : Conforms r ks ms) : ∀ m ∈ ms, r.Takes m.1 (ofValue m.2) := by
  induction h with
  | nil => rintro m ⟨⟩
  | member hv _ ih =>
    intro m hm
    rcases List.mem_cons.1 hm with rfl | hm
    · exact hv
    · exact ih m hm
  | absent _ ih => exact ih

section
variable {r : Record} {repeats : Bool} {found : List (String × Document)} {k : String}
  {d : Document}

theorem gather_unknown (hfield : r.field? k = none) (hskip : d.skip = .ok ())
    (ms : List (Except Fault String × Document)) (ending : Ending) :
    r.gather repeats found ((.ok k, d) :: ms) ending = r.gather repeats found ms ending := by
  rw [Record.gather]
  simp only [orFault, Except.ok_bind, hfield, hskip]

theorem gather_field {f : Field} (hfield : r.field? k = some f) (hnew : found.lookup k = none)
    (htrial : f.trial d = .ok ()) (ms : List (Except Fault String × Document)) (ending : Ending) :
    r.gather repeats found ((.ok k, d) :: ms) ending =
      r.gather repeats ((k, d) :: found) ms ending := by
  rw [Record.gather]
  simp only [orFault, Except.ok_bind, hfield, hnew, htrial, Option.isSome_none, Bool.and_false,
    Bool.false_eq_true, if_false]

end

theorem gather_ofMembers (r : Record) (repeats : Bool) {ms : List (String × Value)}
    (hkeys : (ms.map Prod.fst).Nodup) (htakes : ∀ m ∈ ms, r.Takes m.1 (ofValue m.2))
    {found : List (String × Document)} (hfound : ∀ m ∈ ms, found.lookup m.1 = none) :
    ∃ all, r.gather repeats found (ofMembers ms) .closed = .ok all ∧
      ∀ k, (r.field? k).isSome = true →
        all.lookup k = ((ms.lookup k).map ofValue).or (found.lookup k) := by
  induction ms generalizing found with
  | nil => exact ⟨found, rfl, fun k _ => rfl⟩
  | cons m ms ih =>
    obtain ⟨k, v⟩ := m
    rw [List.map_cons, List.nodup_cons] at hkeys
    have htail : ∀ m ∈ ms, r.Takes m.1 (ofValue m.2) := fun m hm =>
      htakes m (List.mem_cons_of_mem _ hm)
    have hhead : r.Takes k (ofValue v) := htakes (k, v) (List.mem_cons_self ..)
    have hother {m : String × Value} (hm : m ∈ ms) : m.1 ≠ k := fun e =>
      hkeys.1 (List.mem_map.2 ⟨m, hm, e⟩)
    rw [Record.Takes] at hhead
    rw [ofMembers]
    cases hfield : r.field? k with
    | none =>
      rw [hfield] at hhead
      obtain ⟨all, hall, hk⟩ := ih hkeys.2 htail fun m hm => hfound m (List.mem_cons_of_mem _ hm)
      refine ⟨all, ?_, fun k' hk' => ?_⟩
      · rw [gather_unknown hfield hhead]
        exact hall
      · have hne : k' ≠ k := by
          rintro rfl
          rw [hfield] at hk'
          cases hk'
        rw [hk k' hk', lookup_cons_ite, if_neg hne]
    | some f =>
      rw [hfield] at hhead
      have hrest (m : String × Value) (hm : m ∈ ms) :
          ((k, ofValue v) :: found).lookup m.1 = none := by
        rw [lookup_cons_ite, if_neg (hother hm)]
        exact hfound m (List.mem_cons_of_mem _ hm)
      obtain ⟨all, hall, hk⟩ := ih hkeys.2 htail hrest
      refine ⟨all, ?_, fun k' hk' => ?_⟩
      · rw [gather_field hfield (hfound (k, v) (List.mem_cons_self ..)) hhead]
        exact hall
      · rw [hk k' hk', lookup_cons_ite, lookup_cons_ite]
        by_cases he : k' = k
        · have hlast : ms.lookup k = none :=
            List.lookup_eq_none_iff.2 fun m hm => by simpa using (hother hm).symm
          rw [if_pos he, if_pos he, he, hlast]
          rfl
        · rw [if_neg he, if_neg he]

/-- What a record finds under the keys of its fields in an object. -/
def Finds (r : Record) (m : Members) (ms : List (String × Value)) : Prop :=
  ∀ k, (r.field? k).isSome = true → m.found.lookup k = (ms.lookup k).map ofValue

theorem members_ofValue (r : Record) (source : Source) {ms : List (String × Value)}
    {ks : List String} (hks : ks.Nodup) (h : Conforms r ks ms) :
    ∃ m, r.members source (ofValue (.object ms)) = .ok m ∧ Finds r m ms := by
  have hnew : ∀ m ∈ ms, ([] : List (String × Document)).lookup m.1 = none := fun _ _ => rfl
  obtain ⟨all, hall, hk⟩ := gather_ofMembers r false (h.keys.nodup hks) h.takes hnew
  refine ⟨⟨all, .missingField⟩, ?_, fun k hfield => ?_⟩
  · rw [ofValue, Record.members, hall]
    rfl
  · rw [hk k hfield, List.lookup_nil, Option.or_none]

theorem looseMembers_ofValue (r : Record) {ms : List (String × Value)}
    {ks : List String} (hks : ks.Nodup) (h : Conforms r ks ms) :
    ∃ m, r.looseMembers (ofValue (.object ms)) = .ok m ∧ Finds r m ms := by
  have hnew : ∀ m ∈ ms, ([] : List (String × Document)).lookup m.1 = none := fun _ _ => rfl
  obtain ⟨all, hall, hk⟩ := gather_ofMembers r true (h.keys.nodup hks) h.takes hnew
  refine ⟨⟨all, .missingField⟩, ?_, fun k hfield => ?_⟩
  · rw [ofValue, Record.looseMembers, hall]
    rfl
  · rw [hk k hfield, List.lookup_nil, Option.or_none]

/-! ## Fields of a record -/

section
variable {r : Record} {k : String}

theorem takes_field {α : Type} {read : Document → Decoded α} {d : Document} {a : α}
    (hfield : r.field? k = some (.of k read)) (h : read d = .ok a) : r.Takes k d := by
  rw [Record.Takes, hfield]
  show (read d).map _ = .ok ()
  rw [h]
  rfl

variable {ks : List String} {ms : List (String × Value)}

theorem Conforms.optionalMember (hfield : r.field? k = some (.of k text?)) (v : Option String)
    (h : Conforms r ks ms) : Conforms r (k :: ks) (Json.optionalMember k v ++ ms) := by
  cases v with
  | none => exact h.absent
  | some s => exact h.member (takes_field hfield (text?_ofString s))

theorem Conforms.entriesMember (hfield : r.field? k = some (.of k entries)) (e : Entries)
    (h : Conforms r ks ms) : Conforms r (k :: ks) (Json.entriesMember k e ++ ms) := by
  rw [Json.entriesMember]
  split
  · exact h.absent
  · exact h.member (takes_field hfield (entries_ofEntries e))

theorem lookup_optionalMember (k k' : String) (v : Option String) :
    (optionalMember k v).lookup k' = if k' = k then v.map .string else none := by
  cases v with
  | none => simp [optionalMember]
  | some s => exact lookup_pair k k' (Value.string s)

theorem lookup_entriesMember (k k' : String) (e : Entries) :
    (entriesMember k e).lookup k' =
      if k' = k ∧ e.isEmpty = false then some (.ofEntries e) else none := by
  rw [entriesMember]
  cases e.isEmpty <;> simp [lookup_pair]

variable {m : Members} {α : Type} {read : Document → Decoded α}
  {v : Value} {a : α}

theorem Finds.required (h : Finds r m ms) (hfield : (r.field? k).isSome = true)
    (hms : ms.lookup k = some v) (hread : read (ofValue v) = .ok a) :
    m.required k read = .ok a := by
  rw [Members.required, h k hfield, hms]
  exact hread

theorem Finds.optional (h : Finds r m ms) (hfield : (r.field? k).isSome = true)
    (hms : ms.lookup k = some v) (hread : read (ofValue v) = .ok a) (default : α) :
    m.optional k read default = .ok a := by
  rw [Members.optional, h k hfield, hms]
  exact hread

theorem Finds.optional_text? (h : Finds r m ms) (hfield : (r.field? k).isSome = true)
    {s? : Option String} (hms : ms.lookup k = s?.map .string) :
    m.optional k text? none = .ok s? := by
  rw [Members.optional, h k hfield, hms]
  cases s? <;> rfl

theorem Finds.optional_entries (h : Finds r m ms) (hfield : (r.field? k).isSome = true)
    {e : Entries} (hms : ms.lookup k = if e.isEmpty = false then some (.ofEntries e) else none) :
    m.optional k entries ∅ = .ok e := by
  rw [Members.optional, h k hfield, hms]
  split
  · next d hd =>
    split at hd
    · cases hd
      exact entries_ofEntries e
    · cases hd
  · next hnone =>
    split at hnone
    · cases hnone
    · next hempty => rw [Roster.eq_empty hempty]

end

end OperatorRules.Json
