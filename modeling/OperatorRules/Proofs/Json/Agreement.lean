import Mathlib.Data.List.Perm.Basic
import OperatorRules.Proofs.Json.Decoder
import OperatorRules.Proofs.Json.Respelling

/-!
# Decoders that agree

A decoder meets the same value differently from a text and from a value: the members come in
different orders, numbers are read differently, and what is wrong is reported differently. Two runs
agree if both fail or both succeed with related results (`Agree`); a decoder respects a relation if
its runs on related values agree whatever the sources and however numbers are read (`Respects`).
There is one law for each reader of something else than a record.
-/

namespace OperatorRules.Json

open Document

/-! ## Agreement -/

/-- Two runs agree: both fail, with whatever errors, or the results of both are related. -/
inductive Agree {α β : Type} (R : α → β → Prop) : Decoded α → Decoded β → Prop
  | ok {a : α} {b : β} (h : R a b) : Agree R (.ok a) (.ok b)
  | error (e e' : DecodeError) : Agree R (.error e) (.error e')

theorem Document.exists_mismatch_eq (d : Document) (α : Type) (expected : String) :
    ∃ e, (d.mismatch expected : Decoded α) = .error e := by
  rw [Document.mismatch]
  cases d.shape with
  | ok found => exact ⟨_, rfl⟩
  | error f => exact ⟨_, rfl⟩

namespace Agree

variable {α β γ δ : Type} {R : α → β → Prop} {S : γ → δ → Prop} {x : Decoded α} {y : Decoded β}

theorem bind {f : α → Decoded γ} {g : β → Decoded δ} (h : Agree R x y)
    (hf : ∀ a b, R a b → Agree S (f a) (g b)) : Agree S (x >>= f) (y >>= g) := by
  cases h with
  | ok h => exact hf _ _ h
  | error e e' => exact .error e e'

theorem bind_eq {x y : Decoded α} {f : α → Decoded γ} {g : α → Decoded δ} (h : Agree Eq x y)
    (hf : ∀ a, Agree S (f a) (g a)) : Agree S (x >>= f) (y >>= g) := by
  refine h.bind ?_
  rintro a _ rfl
  exact hf a

theorem map {f : α → γ} {g : β → δ} (h : Agree R x y) (hf : ∀ a b, R a b → S (f a) (g b)) :
    Agree S (x.map f) (y.map g) := by
  cases h with
  | ok h => exact .ok (hf _ _ h)
  | error e e' => exact .error e e'

theorem ok_iff {x y : Decoded α} (h : Agree Eq x y) (a : α) : x = .ok a ↔ y = .ok a := by
  cases h with
  | ok h => rw [h]
  | error e e' => exact ⟨nofun, nofun⟩

theorem mismatch (d d' : Document) (expected expected' : String) :
    Agree R (d.mismatch expected) (d'.mismatch expected') := by
  obtain ⟨e, he⟩ := d.exists_mismatch_eq α expected
  obtain ⟨e', he'⟩ := d'.exists_mismatch_eq β expected'
  rw [he, he']
  exact .error e e'

end Agree

/-- Values that are related are decoded alike, whatever the sources and however numbers are read. -/
structure Respects {α : Type} (R : Value → Value → Prop) (read : Decoder α) : Prop where
  agree {s s' : Source} {num num' : Number → Except Fault Number} {v u : Value} (h : R v u) :
    Agree Eq (read s (laid num v)) (read s' (laid num' u))

/-! ## Documents of values -/

section
variable (num : Number → Except Fault Number)

mutual

/-- There is no fault in a value that is laid out. -/
theorem skipFault?_laid : ∀ v : Value, (laid num v).skipFault? = none
  | .null | .bool _ | .number _ | .string _ => by rw [laid, skipFault?]
  | .array items => by rw [laid, skipFault?, skipItems_laid items]
  | .object members => by rw [laid, skipFault?, skipMembers_laid members]

theorem skipItems_laid : ∀ vs : List Value, skipItems (laidItems num vs) .closed = none
  | [] => rfl
  | v :: vs => by rw [laidItems, skipItems, skipFault?_laid v, skipItems_laid vs]; rfl

theorem skipMembers_laid : ∀ ms : List (String × Value),
    skipMembers (laidMembers num ms) .closed = none
  | [] => rfl
  | (_, v) :: ms => by rw [laidMembers, skipMembers, skipFault?_laid v, skipMembers_laid ms]; rfl

end

theorem skip_laid (v : Value) : (laid num v).skip = .ok () := by
  rw [skip, skipFault?_laid]

end

/-! ## Texts and nothing -/

section
variable {num : Number → Except Fault Number} {v : Value}

theorem text_of_ne_string (hv : ∀ s, v ≠ .string s) :
    text (laid num v) = (laid num v).mismatch "a string" := by
  cases v with
  | string s => exact absurd rfl (hv s)
  | _ => rfl

theorem text?_of_ne_null (hv : v ≠ .null) : text? (laid num v) = (text (laid num v)).map some := by
  cases v with
  | null => exact absurd rfl hv
  | _ => rfl

theorem unit_of_ne_null (hv : v ≠ .null) : unit (laid num v) = (laid num v).mismatch "unit" := by
  cases v with
  | null => exact absurd rfl hv
  | _ => rfl

theorem list_of_ne_array {α : Type} (read : Document → Decoded α) (hv : ∀ vs, v ≠ .array vs) :
    list read (laid num v) = (laid num v).mismatch "a sequence" := by
  cases v with
  | array vs => exact absurd rfl (hv vs)
  | _ => rfl

theorem entries_of_ne_object (hv : ∀ ms, v ≠ .object ms) :
    entries (laid num v) = (laid num v).mismatch "a map" := by
  cases v with
  | object ms => exact absurd rfl (hv ms)
  | _ => rfl

end

section
variable {num num' : Number → Except Fault Number} {g : Value → Value}

theorem agree_text (hg : Arranges g) (v : Value) :
    Agree Eq (text (laid num v)) (text (laid num' (g v))) := by
  by_cases hv : ∃ t, v = .string t
  · obtain ⟨t, rfl⟩ := hv
    rw [hg.string_iff.2 rfl]
    exact .ok rfl
  · have hne (t : String) : v ≠ .string t := fun h => hv ⟨t, h⟩
    rw [text_of_ne_string hne, text_of_ne_string fun t => mt hg.string_iff.1 (hne t)]
    exact .mismatch ..

theorem agree_text? (hg : Arranges g) (v : Value) :
    Agree Eq (text? (laid num v)) (text? (laid num' (g v))) := by
  by_cases hnull : v = .null
  · rw [hnull, hg.null_iff.2 rfl]
    exact .ok rfl
  · rw [text?_of_ne_null hnull, text?_of_ne_null (mt hg.null_iff.1 hnull)]
    exact (agree_text hg v).map fun _ _ => congrArg some

theorem agree_unit (hg : Arranges g) (v : Value) :
    Agree Eq (unit (laid num v)) (unit (laid num' (g v))) := by
  by_cases hnull : v = .null
  · rw [hnull, hg.null_iff.2 rfl]
    exact .ok rfl
  · rw [unit_of_ne_null hnull, unit_of_ne_null (mt hg.null_iff.1 hnull)]
    exact .mismatch ..

end

theorem respects_text : Respects (UpToOrder Eq) fun _ => text := by
  refine ⟨?_⟩
  rintro s s' num num' v _ ⟨-, _, g, rfl, hg, rfl⟩
  exact agree_text hg v

theorem respects_text? : Respects (UpToOrder Eq) fun _ => text? := by
  refine ⟨?_⟩
  rintro s s' num num' v _ ⟨-, _, g, rfl, hg, rfl⟩
  exact agree_text? hg v

/-! ## Entries -/

/-- Members are decoded to entries if all of them are texts, and not at all otherwise. -/
theorem eachEntry_laid (num : Number → Except Fault Number) (e : Entries)
    (ms : List (String × Value)) :
    (∃ l : List (String × String), ms = l.map (fun p => (p.1, .string p.2)) ∧
        eachEntry e (laidMembers num ms) .closed = .ok (e.insertMany l)) ∨
      (∃ m ∈ ms, ∀ t, m.2 ≠ .string t) ∧
        ∃ err, eachEntry e (laidMembers num ms) .closed = .error err := by
  induction ms generalizing e with
  | nil => exact .inl ⟨[], rfl, rfl⟩
  | cons m ms ih =>
    obtain ⟨k, v⟩ := m
    by_cases hv : ∃ t, v = .string t
    · obtain ⟨t, rfl⟩ := hv
      obtain ⟨l, rfl, hok⟩ | ⟨⟨m, hm, hne⟩, hfails⟩ := ih (e.set k t)
      · exact .inl ⟨(k, t) :: l, rfl, hok⟩
      · exact .inr ⟨⟨m, List.mem_cons_of_mem _ hm, hne⟩, hfails⟩
    · have hne (t : String) : v ≠ .string t := fun h => hv ⟨t, h⟩
      refine .inr ⟨⟨(k, v), List.mem_cons_self .., hne⟩, ?_⟩
      obtain ⟨err, herr⟩ := (laid num v).exists_mismatch_eq String "a string"
      refine ⟨err, ?_⟩
      rw [laidMembers, eachEntry, text_of_ne_string hne, herr]
      rfl

theorem respects_entries : Respects (UpToOrder Eq) fun _ => entries := by
  refine ⟨?_⟩
  rintro s s' num num' v _ ⟨hv, _, g, rfl, hg, rfl⟩
  show Agree Eq (entries (laid num v)) (entries (laid num' (g v)))
  by_cases hobject : ∃ ms, v = .object ms
  · obtain ⟨ms, rfl⟩ := hobject
    obtain ⟨us, hus, -⟩ := hg.object ms
    cases hv with | object hkeys hdistinct =>
    have hperm := hg.perm_members hkeys hus
    rw [hus]
    show Agree Eq (eachEntry ∅ (laidMembers num ms) .closed)
      (eachEntry ∅ (laidMembers num' us) .closed)
    obtain ⟨l, rfl, hok⟩ | ⟨⟨m, hm, hne⟩, e, he⟩ := eachEntry_laid num ∅ ms
    · obtain ⟨l', rfl, hok'⟩ | ⟨⟨m, hm, hne⟩, -⟩ := eachEntry_laid num' ∅ us
      · have hsame : (l'.map fun p => (p.1, Value.string p.2)).Perm
            (l.map fun p => (p.1, Value.string p.2)) := by
          simpa [Function.comp_def, hg.string_iff.2 rfl] using hperm
        have hinj : Function.Injective fun p : String × String => (p.1, Value.string p.2) := by
          intro p q h
          simpa [Prod.ext_iff] using h
        have hl : l.Perm l' := ((List.map_perm_map_iff hinj).1 hsame).symm
        have hnames : (l.map nameOf).Nodup := by
          rw [List.map_map] at hkeys
          exact hkeys
        rw [hok, hok']
        exact .ok (Roster.insertMany_perm hnames hl)
      · obtain ⟨p, hp, rfl⟩ := List.mem_map.1 (hperm.mem_iff.1 hm)
        obtain ⟨q, -, rfl⟩ := List.mem_map.1 hp
        exact absurd (hg.string_iff.2 rfl) (hne q.2)
    · have hmem := hperm.mem_iff.2 (List.mem_map_of_mem hm)
      obtain ⟨l', rfl, -⟩ | ⟨-, e', he'⟩ := eachEntry_laid num' ∅ us
      · obtain ⟨p, -, hp⟩ := List.mem_map.1 hmem
        exact absurd (hg.string_iff.1 (congrArg Prod.snd hp).symm) (hne p.2)
      · rw [he, he']
        exact .error e e'
  · have hne (ms : List (String × Value)) : v ≠ .object ms := fun h => hobject ⟨ms, h⟩
    rw [entries_of_ne_object hne, entries_of_ne_object (hg.ne_object hne)]
    exact .mismatch ..

/-! ## Lists -/

theorem agree_each {α : Type} {R : Value → Value → Prop} {read : Decoder α} (h : Respects R read)
    {s s' : Source} {num num' : Number → Except Fault Number} {vs us : List Value}
    (hitems : List.Forall₂ R vs us) :
    Agree Eq (list (read s) (laid num (.array vs))) (list (read s') (laid num' (.array us))) := by
  show Agree Eq (each (read s) (laidItems num vs) .closed)
    (each (read s') (laidItems num' us) .closed)
  induction hitems with
  | nil => exact .ok rfl
  | cons hv _ ih =>
    refine (h.agree hv).bind_eq fun a => ?_
    refine ih.bind_eq fun l => ?_
    exact .ok rfl

theorem UpToOrder.items {R : Value → Value → Prop} {vs ws : List Value} {g : Value → Value}
    (hdistinct : ∀ v ∈ vs, v.Distinct) (hg : Arranges g) (h : List.Forall₂ R vs ws) :
    List.Forall₂ (UpToOrder R) vs (ws.map g) := by
  induction h with
  | nil => exact .nil
  | @cons v w vs ws hv _ ih =>
    refine .cons ⟨hdistinct v (List.mem_cons_self ..), w, g, hv, hg, rfl⟩ (ih ?_)
    exact fun v hmem => hdistinct v (List.mem_cons_of_mem _ hmem)

theorem respects_list {α : Type} {R : Value → Value → Prop} {read : Decoder α}
    (h : Respects (UpToOrder R) read) :
    Respects (UpToOrder (Each R)) fun s => list (read s) := by
  refine ⟨?_⟩
  rintro s s' num num' v _ ⟨hv, w, g, hw, hg, rfl⟩
  show Agree Eq (list (read s) (laid num v)) (list (read s') (laid num' (g w)))
  cases hw with
  | array hitems =>
    cases hv with | array hdistinct =>
    rw [hg.array]
    exact agree_each h (UpToOrder.items hdistinct hg hitems)
  | same harray =>
    rw [list_of_ne_array _ harray, list_of_ne_array _ (hg.ne_array harray)]
    exact .mismatch ..

/-! ## Choices -/

section
variable {α : Type} (choices : List (String × α)) (s : Source)
  (num : Number → Except Fault Number)

theorem choice_single (k : String) (v : Value) :
    choice choices s (laid num (.object [(k, v)])) =
      taggedVariant choices (.ok k) (laid num v) := by
  cases s with
  | text => exact bind_pure _
  | value => rfl

/-- Nothing but a string and an object with one member stands for a choice. -/
theorem exists_choice_error {v : Value} (hstring : ∀ t, v ≠ .string t)
    (hsingle : ∀ k w, v ≠ .object [(k, w)]) :
    ∃ e, choice choices s (laid num v) = .error e := by
  cases v with
  | string t => exact absurd rfl (hstring t)
  | object ms =>
    cases ms with
    | nil => cases s <;> exact ⟨_, rfl⟩
    | cons m ms =>
      cases ms with
      | nil => exact absurd rfl (hsingle m.1 m.2)
      | cons m' ms =>
        cases s with
        | text =>
          cases htagged : taggedVariant choices (.ok m.1) (laid num m.2) with
          | error e => exact ⟨e, congrArg (· >>= _) htagged⟩
          | ok a => exact ⟨.fault .malformed, congrArg (· >>= _) htagged⟩
        | value => exact ⟨_, rfl⟩
  | _ =>
    cases s with
    | text => exact ⟨_, rfl⟩
    | value =>
      simp only [laid, choice]
      exact exists_mismatch_eq _ α _

end

theorem agree_variant {α : Type} (choices : List (String × α)) (k : String) :
    Agree Eq (variant choices k) (variant choices k) := by
  cases variant choices k with
  | ok a => exact .ok rfl
  | error e => exact .error e e

theorem respects_choice {α : Type} (choices : List (String × α)) :
    Respects (UpToOrder Eq) (choice choices) := by
  refine ⟨?_⟩
  rintro s s' num num' v _ ⟨hv, _, g, rfl, hg, rfl⟩
  by_cases hstring : ∃ t, v = .string t
  · obtain ⟨t, rfl⟩ := hstring
    have hname (s : Source) : choice choices s (.string (.ok t) none) = variant choices t := by
      rw [choice]
      rfl
    rw [hg.string_iff.2 rfl]
    show Agree Eq (choice choices s (.string _ _)) (choice choices s' (.string _ _))
    rw [hname, hname]
    exact agree_variant choices t
  have hne (t : String) : v ≠ .string t := fun h => hstring ⟨t, h⟩
  by_cases hsingle : ∃ k w, v = .object [(k, w)]
  · obtain ⟨k, w, rfl⟩ := hsingle
    obtain ⟨us, hus, -⟩ := hg.object [(k, w)]
    obtain rfl := List.perm_singleton.1 (hg.perm_members (by simp) hus)
    rw [hus, choice_single, choice_single]
    refine (agree_variant choices k).bind_eq fun a => ?_
    refine (agree_unit hg w).bind_eq fun _ => ?_
    exact .ok rfl
  · have hne' (k : String) (w : Value) : v ≠ .object [(k, w)] := fun h => hsingle ⟨k, w, h⟩
    obtain ⟨e, he⟩ := exists_choice_error choices s num hne hne'
    obtain ⟨e', he'⟩ := exists_choice_error choices s' num'
      (fun t => mt hg.string_iff.1 (hne t)) (hg.ne_single hv hne')
    rw [he, he']
    exact .error e e'

end OperatorRules.Json
