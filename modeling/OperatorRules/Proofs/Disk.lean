import OperatorRules.Disk.AtomicWrite

/-!
# The disk under its operations

What a location holds after `put` and `erase`, and what `unlink`, `rename` and `writeAtomically`
leave where they succeed and where they fail. None of them makes or removes a directory
(`SameDirectories`), and where a path ends depends on the directories only
(`spot_of_sameDirectories`), so a path that was followed before a change leads to the same place
after it.
-/

namespace OperatorRules

@[simp] theorem Except.ok_bind {ε α β : Type} (a : α) (f : α → Except ε β) :
    (Except.ok a >>= f) = f a := rfl

@[simp] theorem Except.error_bind {ε α β : Type} (e : ε) (f : α → Except ε β) :
    (Except.error e >>= f) = Except.error e := rfl

theorem Except.bind_eq_ok_iff {ε α β : Type} {x : Except ε α} {next : α → Except ε β} {b : β} :
    (x >>= next) = .ok b ↔ ∃ a, x = .ok a ∧ next a = .ok b := by
  cases x <;> simp

namespace Disk

/-! ## Locations -/

theorem lookup_filter_ne (entries : List (Location × Entry)) (l l' : Location) :
    (entries.filter fun p => p.1 != l).lookup l' = if l' = l then none else entries.lookup l' := by
  induction entries with
  | nil => simp
  | cons p entries ih =>
    obtain ⟨k, e⟩ := p
    by_cases hk : k = l
    · subst hk
      simp only [List.filter_cons, bne_self_eq_false, Bool.false_eq_true, ↓reduceIte, ih]
      split
      · rfl
      · next h => rw [List.lookup_cons, beq_eq_false_iff_ne.2 h]
    · simp only [List.filter_cons, bne_iff_ne, ne_eq, hk, not_false_eq_true, ↓reduceIte,
        List.lookup_cons, ih]
      by_cases h : l' = k
      · subst h; simp [hk]
      · rw [beq_eq_false_iff_ne.2 h]

@[simp] theorem get?_nil (d : Disk) : d.get? [] = some .directory := rfl

theorem get?_of_ne_nil (d : Disk) {l : Location} (hl : l ≠ []) :
    d.get? l = d.entries.lookup l := by
  simp [get?, hl]

theorem get?_erase (d : Disk) {l : Location} (hl : l ≠ []) (l' : Location) :
    (d.erase l).get? l' = if l' = l then none else d.get? l' := by
  by_cases h : l' = []
  · subst h; simp [Ne.symm hl]
  · rw [get?_of_ne_nil _ h, get?_of_ne_nil _ h, erase, lookup_filter_ne]

theorem get?_put (d : Disk) {l : Location} (hl : l ≠ []) (e : Entry) (l' : Location) :
    (d.put l e).get? l' = if l' = l then some e else d.get? l' := by
  by_cases h : l' = []
  · subst h; simp [Ne.symm hl]
  · rw [get?_of_ne_nil _ h, get?_of_ne_nil _ h, put, List.lookup_cons]
    by_cases h' : l' = l
    · simp [h']
    · rw [beq_eq_false_iff_ne.2 h', if_neg h', erase, lookup_filter_ne, if_neg h']

theorem erase_put (d : Disk) (l : Location) (e : Entry) : (d.put l e).erase l = d.erase l := by
  simp [put, erase]

theorem put_put (d : Disk) (l : Location) (e e' : Entry) : (d.put l e).put l e' = d.put l e' := by
  rw [put, erase_put, put]

theorem erase_erase_comm (d : Disk) (l l' : Location) :
    (d.erase l).erase l' = (d.erase l').erase l := by
  simp [erase, Bool.and_comm]

/-- `d'` shows `o` at `l`, and at every other location what `d` shows. -/
def Updated (d : Disk) (l : Location) (o : Option Entry) (d' : Disk) : Prop :=
  ∀ l', d'.get? l' = if l' = l then o else d.get? l'

theorem updated_put (d : Disk) {l : Location} (hl : l ≠ []) (e : Entry) :
    d.Updated l (some e) (d.put l e) := get?_put d hl e

theorem updated_erase (d : Disk) {l : Location} (hl : l ≠ []) : d.Updated l none (d.erase l) :=
  get?_erase d hl

namespace Updated

variable {d d' d'' : Disk} {l : Location} {o o' : Option Entry}

theorem get?_self (h : d.Updated l o d') : d'.get? l = o := by rw [h l, if_pos rfl]

theorem get?_other (h : d.Updated l o d') {l' : Location} (hl : l' ≠ l) :
    d'.get? l' = d.get? l' := by
  rw [h l', if_neg hl]

theorem trans (h : d.Updated l o d') (h' : d'.Updated l o' d'') : d.Updated l o' d'' := by
  intro l'
  rw [h' l']
  split
  · rfl
  · next hl => exact h.get?_other hl

/-- An update that is taken back leaves the disk as it was. -/
theorem get?_of_undone (h : d.Updated l o d') (hl : d.get? l = o) (l' : Location) :
    d'.get? l' = d.get? l' := by
  rw [h l']
  split
  · next e => rw [e, hl]
  · rfl

end Updated

/-! ## Directories -/

/-- Both disks have directories at the same locations. -/
def SameDirectories (d d' : Disk) : Prop :=
  ∀ l, d.get? l = some .directory ↔ d'.get? l = some .directory

theorem SameDirectories.symm {d d' : Disk} (h : d.SameDirectories d') : d'.SameDirectories d :=
  fun l => (h l).symm

theorem SameDirectories.of_get? {d d' : Disk} (h : ∀ l, d'.get? l = d.get? l) :
    d.SameDirectories d' := fun l => by rw [h l]

/-- An update between a file and another file or nothing keeps the directories. -/
theorem Updated.sameDirectories {d d' : Disk} {l : Location} {o : Option Entry}
    (h : d.Updated l o d') (hl : d.get? l ≠ some .directory) (ho : o ≠ some .directory) :
    d.SameDirectories d' := by
  intro l'
  rw [h l']
  split
  · next e => subst e; simp [hl, ho]
  · exact .rfl

variable {d d' : Disk}

/-! ## Following a path -/

theorem directory_of_step {here there : Location} {segment : String}
    (h : d.step here segment = .ok there) : d.get? here = some .directory := by
  unfold step at h
  split at h
  · cases h
  · next hd => simpa using hd

theorem follow_cons (d : Disk) (here : Location) (s : String) (segments : List String) :
    d.follow here (s :: segments) = d.step here s >>= fun there => d.follow there segments := by
  simp [follow]

theorem follow_concat (d : Disk) (here : Location) (segments : List String) (s : String) :
    d.follow here (segments ++ [s]) = d.follow here segments >>= fun there => d.step there s := by
  simp [follow]

theorem follow_concat_error {here : Location} {segments : List String} {s : String}
    {e : SystemError} (h : d.follow here segments = .error e) :
    d.follow here (segments ++ [s]) = .error e := by
  rw [follow_concat, h, Except.error_bind]

theorem directory_of_follow {here there : Location} {segments : List String}
    (h : d.follow here segments = .ok there) (hd : d.get? there = some .directory) :
    d.get? here = some .directory := by
  cases segments with
  | nil => cases h; exact hd
  | cons s segments =>
    obtain ⟨_, hs, -⟩ := Except.bind_eq_ok_iff.1 (follow_cons .. ▸ h)
    exact directory_of_step hs

theorem step_of_sameDirectories (hs : d.SameDirectories d') {here there : Location}
    {segment : String} (h : d.step here segment = .ok there)
    (hd : d.get? there = some .directory) : d'.step here segment = .ok there := by
  have hh := (hs here).1 (directory_of_step h)
  have ht := (hs there).1 hd
  unfold step at h ⊢
  rw [directory_of_step h] at h
  rw [hh]
  split at h
  · next e => simp at e
  · split at h
    · next e => simpa [e] using h
    · split at h
      · next e1 e2 => simpa [e1, e2] using h
      · split at h
        · cases h
        · next e1 e2 e3 =>
          split at h
          · cases h; simp [e1, e2, e3, ht]
          · cases h

theorem follow_of_sameDirectories (hs : d.SameDirectories d') {segments : List String} :
    ∀ {here there : Location}, d.follow here segments = .ok there →
      d.get? there = some .directory → d'.follow here segments = .ok there := by
  induction segments with
  | nil => intro here there h _; exact h
  | cons s segments ih =>
    intro here there h hd
    obtain ⟨mid, h1, h2⟩ := Except.bind_eq_ok_iff.1 (follow_cons .. ▸ h)
    have hmid := directory_of_follow h2 hd
    rw [follow_cons, step_of_sameDirectories hs h1 hmid]
    exact ih h2 hd

theorem spot_of_sameDirectories (hs : d.SameDirectories d') {cwd : Location} {path : String}
    {sp : Spot} (h : d.spot cwd path = .ok sp) : d'.spot cwd path = .ok sp := by
  unfold spot at h ⊢
  split at h
  · cases h
  split at h
  · cases h
  split at h
  · cases h
  next h1 h2 h3 =>
    rw [if_neg h1, if_neg h2, if_neg h3]
    cases hr : Route.ofPath? cwd path.toList with
    | none => simpa [hr] using h
    | some r =>
      simp only [hr] at h ⊢
      obtain ⟨here, hf, h⟩ := Except.bind_eq_ok_iff.1 h
      by_cases hd : d.get? here = some .directory
      · rw [follow_of_sameDirectories hs hf hd]
        simpa [hd, (hs here).1 hd] using h
      · simp [hd] at h

/-- A spot that has a name lies in a directory that the path leads to. -/
theorem spot_eq_named {cwd : Location} {path : String} {l : Location} {slashed : Bool}
    (h : d.spot cwd path = .ok (.named l slashed)) :
    ∃ r here, Route.ofPath? cwd path.toList = some r ∧ d.follow r.start r.inner = .ok here ∧
      d.get? here = some .directory ∧ r.last ≠ "." ∧ r.last ≠ ".." ∧
      r.last.utf8ByteSize ≤ longestName ∧ l = here ++ [r.last] ∧ slashed = r.slashed := by
  unfold spot at h
  split at h
  · cases h
  split at h
  · cases h
  split at h
  · cases h
  cases hr : Route.ofPath? cwd path.toList with
  | none => simp [hr] at h
  | some r =>
    simp only [hr] at h
    obtain ⟨here, hf, h⟩ := Except.bind_eq_ok_iff.1 h
    refine ⟨r, here, rfl, hf, ?_⟩
    split at h
    · cases h
    · next hd =>
      split at h
      · cases h
      · next hdots =>
        split at h
        · cases h
        · next hlen =>
          cases h
          exact ⟨by simpa using hd, fun e => hdots (.inl e), fun e => hdots (.inr e), by omega,
            rfl, rfl⟩

theorem ne_nil_of_spot {cwd : Location} {path : String} {l : Location} {slashed : Bool}
    (h : d.spot cwd path = .ok (.named l slashed)) : l ≠ [] := by
  obtain ⟨r, here, -, -, -, -, -, -, rfl, -⟩ := spot_eq_named h
  simp

/-! ## Removing and moving -/

theorem unlink_eq_ok {cwd : Location} {path : String} (h : d.unlink cwd path = .ok d') :
    ∃ l mode content, d.spot cwd path = .ok (.named l false) ∧
      d.get? l = some (.file mode content) ∧ d' = d.erase l := by
  obtain ⟨sp, hsp, h⟩ := Except.bind_eq_ok_iff.1 h
  cases sp with
  | unnamed => cases h
  | named l slashed =>
    simp only at h
    split at h
    · cases h
    · cases h
    · next mode content hl =>
      cases slashed with
      | true => cases h
      | false => cases h; exact ⟨l, mode, content, hsp, hl, rfl⟩

theorem rename_eq_ok {cwd old : Location} {path : String} (h : d.rename cwd old path = .ok d') :
    ∃ l e, d.spot cwd path = .ok (.named l false) ∧ d.get? l ≠ some .directory ∧
      d.get? old = some e ∧ d' = if l = old then d else (d.erase old).put l e := by
  unfold rename at h
  split at h
  · cases h
  obtain ⟨sp, hsp, h⟩ := Except.bind_eq_ok_iff.1 h
  cases sp with
  | unnamed => cases h
  | named l slashed =>
    cases slashed with
    | true => cases h
    | false =>
      simp only [Bool.false_eq_true, ↓reduceIte] at h
      split at h
      · cases h
      · cases h
      · next e hl hnd =>
        cases h
        exact ⟨l, e, hsp, hnd, hl, rfl⟩

/-- At every location that the path does not lead to, `d'` shows what `d` shows. -/
def UnchangedOff (d : Disk) (cwd : Location) (path : String) (d' : Disk) : Prop :=
  ∀ l, (∀ slashed, d.spot cwd path ≠ .ok (.named l slashed)) → d'.get? l = d.get? l

theorem UnchangedOff.of_updated {cwd : Location} {path : String} {l : Location} {slashed : Bool}
    {o : Option Entry} (hsp : d.spot cwd path = .ok (.named l slashed)) (h : d.Updated l o d') :
    d.UnchangedOff cwd path d' := by
  intro l' hl'
  exact h.get?_other fun e => hl' slashed (e ▸ hsp)

theorem UnchangedOff.trans {d'' : Disk} {cwd : Location} {path : String}
    (h : d.UnchangedOff cwd path d') (hs : d.SameDirectories d')
    (h' : d'.UnchangedOff cwd path d'') : d.UnchangedOff cwd path d'' := by
  intro l hl
  have hl' : ∀ slashed, d'.spot cwd path ≠ .ok (.named l slashed) := fun slashed hsp =>
    hl slashed (spot_of_sameDirectories hs.symm hsp)
  rw [h' l hl', h l hl]

theorem unchangedOff_of_unlink {cwd : Location} {path : String}
    (h : d.unlink cwd path = .ok d') : d.UnchangedOff cwd path d' := by
  obtain ⟨l, mode, content, hsp, -, rfl⟩ := unlink_eq_ok h
  exact .of_updated hsp (updated_erase d (ne_nil_of_spot hsp))

/-! ## What a path shows -/

theorem at?_eq_none_of_locate {cwd : Location} {path : String} {e : SystemError}
    (h : d.locate cwd path = .error e) : d.at? cwd path = none := by
  rw [at?, h]

theorem at?_eq_none_of_follow {cwd : Location} {path : String} {r : Route} {e : SystemError}
    (hr : Route.ofPath? cwd path.toList = some r)
    (hf : d.follow r.start (r.inner ++ [r.last]) = .error e) : d.at? cwd path = none := by
  obtain ⟨e', h⟩ : ∃ e', d.locate cwd path = .error e' := by
    unfold locate
    rw [hr]
    simp only [hf, Except.error_bind]
    split
    · exact ⟨_, rfl⟩
    split
    · exact ⟨_, rfl⟩
    split <;> exact ⟨_, rfl⟩
  exact at?_eq_none_of_locate h

/-- A path shows nothing where its spot is empty. -/
theorem at?_eq_none_of_spot {cwd : Location} {path : String} {l : Location} {slashed : Bool}
    (h : d.spot cwd path = .ok (.named l slashed)) (hl : d.get? l = none) :
    d.at? cwd path = none := by
  obtain ⟨r, here, hr, hf, hd, hdot, hdots, hlen, rfl, rfl⟩ := spot_eq_named h
  refine at?_eq_none_of_follow hr (e := .notFound) ?_
  rw [follow_concat, hf, Except.ok_bind]
  simp [step, hd, hdot, hdots, hl, Nat.not_lt.2 hlen]

/-- A path whose spot is not found shows nothing. -/
theorem at?_eq_none_of_spot_notFound {cwd : Location} {path : String}
    (h : d.spot cwd path = .error .notFound) : d.at? cwd path = none := by
  by_cases hempty : path.isEmpty
  · exact at?_eq_none_of_locate (by rw [locate, if_pos hempty])
  cases hr : Route.ofPath? cwd path.toList with
  | none =>
    simp only [spot, hempty, hr, Bool.false_eq_true, ↓reduceIte] at h
    split at h
    · cases h
    · split at h <;> cases h
  | some r =>
    simp only [spot, hempty, hr, Bool.false_eq_true, ↓reduceIte] at h
    split at h
    · cases h
    split at h
    · cases h
    cases hf : d.follow r.start r.inner with
    | error e => exact at?_eq_none_of_follow hr (follow_concat_error hf)
    | ok here =>
      rw [hf, Except.ok_bind] at h
      split at h
      · next hd =>
        refine at?_eq_none_of_follow hr (e := .notFound) ?_
        rw [follow_concat, hf, Except.ok_bind, step, if_pos hd, Except.error.inj h]
      · split at h
        · cases h
        · split at h <;> cases h

theorem at?_of_unlink_ok {cwd : Location} {path : String} (h : d.unlink cwd path = .ok d') :
    d'.at? cwd path = none := by
  obtain ⟨l, mode, content, hsp, hl, rfl⟩ := unlink_eq_ok h
  have hne : l ≠ [] := ne_nil_of_spot hsp
  have hs := (updated_erase d hne).sameDirectories (by simp [hl]) (by simp)
  exact at?_eq_none_of_spot (spot_of_sameDirectories hs hsp) (updated_erase d hne).get?_self

theorem at?_of_unlink_notFound {cwd : Location} {path : String}
    (h : d.unlink cwd path = .error .notFound) : d.at? cwd path = none := by
  unfold unlink at h
  cases hsp : d.spot cwd path with
  | error e =>
    rw [hsp, Except.error_bind] at h
    cases h
    exact at?_eq_none_of_spot_notFound hsp
  | ok sp =>
    rw [hsp, Except.ok_bind] at h
    cases sp with
    | unnamed => cases h
    | named l slashed =>
      simp only at h
      split at h
      · next hl => exact at?_eq_none_of_spot hsp hl
      · cases h
      · split at h <;> cases h

end Disk

end OperatorRules
