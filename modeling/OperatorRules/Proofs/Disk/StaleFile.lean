import OperatorRules.Proofs.AtomicWrite

/-!
# A stale file leaves no trace in a write

Two disks are `AlikeOff` a location if they differ at most in the file there. A write to a path that
leads to this location fails on both with the same error, or leaves the same disk
(`writeAtomically_alike`): what the write replaces has no part in it.
-/

namespace OperatorRules

open OperatorRules.Path Disk.Route

namespace Disk

/-- The disks differ at most at `l`, and neither has a directory there. -/
structure AlikeOff (l : Location) (d d' : Disk) : Prop where
  erase_eq : d.erase l = d'.erase l
  left : d.get? l ≠ some .directory
  right : d'.get? l ≠ some .directory

variable {d d' : Disk} {l : Location}

/-- A file put in the place of a file or of nothing. -/
theorem alikeOff_put (hl : d.get? l ≠ some .directory) (mode : Nat) (content : ByteArray) :
    AlikeOff l d (d.put l (.file mode content)) := by
  have hne : l ≠ [] := fun e => hl (e ▸ get?_nil d)
  exact ⟨(erase_put ..).symm, hl, by simp [get?_put d hne]⟩

theorem AlikeOff.get?_eq (h : AlikeOff l d d') {l' : Location} (hl : l' ≠ l) :
    d'.get? l' = d.get? l' := by
  have hne : l ≠ [] := fun e => h.left (e ▸ get?_nil d)
  have hd := get?_erase d hne l'
  have hd' := get?_erase d' hne l'
  rw [← h.erase_eq, hd, if_neg hl, if_neg hl] at hd'
  exact hd'.symm

theorem AlikeOff.sameDirectories (h : AlikeOff l d d') : d.SameDirectories d' := by
  intro l'
  by_cases hl : l' = l
  · subst hl
    simp [h.left, h.right]
  · rw [h.get?_eq hl]

/-! ## Following names past the file -/

theorem follow_congr {names : List String} (hnames : ∀ s ∈ names, IsName s) {here : Location}
    (h : ∀ l, l <+: here ++ names → d'.get? l = d.get? l) :
    d'.follow here names = d.follow here names := by
  induction names generalizing here with
  | nil => rfl
  | cons s names ih =>
    have hhere : d'.get? here = d.get? here := h _ (List.prefix_append ..)
    have hnext : d'.get? (here ++ [s]) = d.get? (here ++ [s]) := h _ ⟨names, by simp⟩
    have hstep : d'.step here s = d.step here s := by rw [step, step, hhere, hnext]
    rw [follow_cons, follow_cons, hstep]
    cases hmid : d.step here s with
    | error e => rfl
    | ok mid =>
      have hs := hnames s (List.mem_cons_self ..)
      obtain rfl := step_name_eq_ok hmid hs.ne_dot hs.ne_dots
      exact ih (fun s hs => hnames s (List.mem_cons_of_mem _ hs)) (by simpa using h)

/-- No way leads out from under what is not a directory. -/
theorem isPrefix_of_follow (hl : d.get? l ≠ some .directory) {segments : List String} :
    ∀ {here there : Location}, d.follow here segments = .ok there → l <+: here → l <+: there := by
  induction segments with
  | nil => intro here there h hp; cases h; exact hp
  | cons s segments ih =>
    intro here there h hp
    rw [follow_cons] at h
    obtain ⟨mid, hstep, hrest⟩ := Except.bind_eq_ok_iff.1 h
    refine ih hrest ?_
    obtain ⟨hd, ⟨-, rfl⟩ | ⟨-, rfl⟩ | ⟨-, -, -, rfl, -⟩⟩ := step_eq_ok_iff.1 hstep
    · exact hp
    · have hne : l ≠ here := fun e => hl (e ▸ hd)
      rcases List.eq_nil_or_concat' here with rfl | ⟨above, name, rfl⟩
      · exact absurd (List.prefix_nil.1 hp) hne
      · rw [List.dropLast_concat]
        exact (List.prefix_concat_iff.1 hp).resolve_left hne
    · exact hp.trans (List.prefix_append ..)

theorem spot_congr {cwd : Location} {path : String} {r : Route}
    (hr : Route.ofPath? cwd path.toList = some r)
    (hf : d'.follow r.start r.inner = d.follow r.start r.inner)
    (hd : ∀ here, d.follow r.start r.inner = .ok here → d'.get? here = d.get? here) :
    d'.spot cwd path = d.spot cwd path := by
  unfold spot
  rw [hr]
  simp only [hf]
  cases hhere : d.follow r.start r.inner with
  | error e => rfl
  | ok here => simp only [Except.ok_bind, hd here hhere]

/-- Whether there is a stale file at the target has no part in where the temporary file goes. -/
theorem spot_tempPath_alike {s : Site} (hs : s.Regular) {path : String} {slashed : Bool}
    (h : AlikeOff l d d') (hsp : d.spot s.cwd path = .ok (.named l slashed)) :
    d'.spot s.cwd (s.tempPath path) = d.spot s.cwd (s.tempPath path) := by
  obtain ⟨here, name, rfl, hd, hdir⟩ := spot_eq_beside hsp
  have hdir' := follow_of_sameDirectories h.sameDirectories hdir hd
  -- the way to where the path starts does not pass the file, which is no directory
  have hbase : d'.follow [] (startOf s.cwd (directory path.toList)) =
      d.follow [] (startOf s.cwd (directory path.toList)) := by
    refine follow_congr (hs.startOf _) fun l' hl' => h.get?_eq ?_
    rintro rfl
    have hlength := (isPrefix_of_follow h.left hdir hl').length_le
    rw [List.length_append, List.length_singleton] at hlength
    omega
  refine spot_congr (ofPath?_of_names (names_tempPath hs)) ?_ fun there hthere => ?_
  · simp only [startOf, isAbsolute_tempPath, ↓reduceIte]
    rw [← startOf, follow_append, follow_append, hbase]
    cases hmid : d.follow [] (startOf s.cwd (directory path.toList)) with
    | error e => rfl
    | ok mid =>
      obtain rfl := follow_names (hs.startOf _) hmid
      exact hdir'.trans hdir.symm
  · simp only [startOf, isAbsolute_tempPath, ↓reduceIte] at hthere
    rw [← startOf, follow_append] at hthere
    obtain ⟨mid, hmid, hthere⟩ := Except.bind_eq_ok_iff.1 hthere
    obtain rfl := follow_names (hs.startOf _) hmid
    obtain rfl : here = there := Except.ok.inj (hdir.symm.trans hthere)
    exact h.get?_eq fun e => by simpa using congrArg List.length e

theorem rename_of_spot {cwd temp : Location} {path : String} {slashed : Bool} {mode : Nat}
    {content : ByteArray} (hsp : d.spot cwd path = .ok (.named l slashed))
    (hl : d.get? l ≠ some .directory) (hne : temp ≠ []) (hnone : d.get? temp = none)
    (hlt : l ≠ temp) :
    (d.put temp (.file mode content)).rename cwd temp path =
      if slashed then .error .notDirectory
      else .ok ((d.erase temp).put l (.file mode content)) := by
  have hs : d.SameDirectories (d.put temp (.file mode content)) :=
    (updated_put d hne _).sameDirectories (by simp [hnone]) (by simp)
  have hput := updated_put d hne (.file mode content)
  rw [rename, (admissible_of_spot hsp).noNull, spot_of_sameDirectories hs hsp]
  simp only [Bool.false_eq_true, ↓reduceIte, Except.ok_bind, hput.get?_other hlt, hput.get?_self,
    erase_put, hlt]

end Disk

namespace AtomicWrite

open Disk

variable {s : Site} {d d' : Disk} {path : String} {content : ByteArray} {l : Location}
  {slashed : Bool}

theorem ne_of_namesApart (hname : s.NamesApart d path)
    (hsp : d.spot s.cwd path = .ok (.named l slashed)) {dir : Location}
    (hnone : d.get? (dir ++ [s.tempName]) = none) : l ≠ dir ++ [s.tempName] := by
  rintro rfl
  exact ne_of_fileName? hsp (hname (at?_eq_none_of_spot hsp hnone)) dir rfl

/-- Where a file was put there is something, so nothing more is asked of the name. -/
theorem namesApart_put (hname : s.NamesApart d path)
    (hsp : d.spot s.cwd path = .ok (.named l slashed)) (hl : d.get? l ≠ some .directory)
    (mode : Nat) : s.NamesApart (d.put l (.file mode content)) path := by
  intro hnone
  refine hname (Option.eq_none_iff_forall_ne_some.2 fun e he => ?_)
  obtain ⟨hget, hslash⟩ := get?_of_at?_of_spot hsp he
  cases slashed with
  | true => exact hl (hget.trans (congrArg some (hslash rfl)))
  | false =>
    have hsp' := spot_of_sameDirectories (alikeOff_put hl mode content).sameDirectories hsp
    rw [at?_of_spot hsp' (updated_put d (ne_nil_of_spot hsp) _).get?_self] at hnone
    cases hnone

-- the path leads to `l`, where the disks differ
variable (hs : s.Regular) (hname : s.NamesApart d path) (h : AlikeOff l d d')
  (hsp : d.spot s.cwd path = .ok (.named l slashed))

include hs hname h hsp

/-- Moving the complete file into place ends in the same way on both disks. -/
theorem rename_alike {p : Location × Disk} (hc : create d s (s.tempPath path) = .ok p) :
    (d'.put p.1 (.file fileMode content)).rename s.cwd p.1 path =
      (d.put p.1 (.file fileMode content)).rename s.cwd p.1 path := by
  obtain ⟨temp, created⟩ := p
  obtain ⟨⟨_, htemp⟩, hnone, -⟩ := create_eq_ok_iff.1 hc
  obtain ⟨dir, -, -, rfl⟩ := spot_tempPath hs htemp
  have hne := ne_of_namesApart hname hsp hnone
  have hsp' := spot_of_sameDirectories h.sameDirectories hsp
  have hnone' : d'.get? (dir ++ [s.tempName]) = none := by rw [h.get?_eq hne.symm, hnone]
  rw [rename_of_spot hsp' h.right (by simp) hnone' hne,
    rename_of_spot hsp h.left (by simp) hnone hne]
  have hput : (d'.erase (dir ++ [s.tempName])).put l (.file fileMode content) =
      (d.erase (dir ++ [s.tempName])).put l (.file fileMode content) := by
    rw [put, put, erase_erase_comm d', erase_erase_comm d, h.erase_eq]
  rw [hput]

variable (hname' : s.NamesApart d' path)

include hname'

/-- The temporary file is created on both disks at the same place, or refused for the same
reason. -/
theorem create_alike :
    (create d' s (s.tempPath path)).map Prod.fst = (create d s (s.tempPath path)).map Prod.fst := by
  rw [create, create, spot_tempPath_alike hs h hsp]
  cases htemp : d.spot s.cwd (s.tempPath path) with
  | error e => rfl
  | ok sp =>
    cases sp with
    | unnamed => rfl
    | named temp tempSlashed =>
      obtain ⟨dir, -, -, rfl⟩ := spot_tempPath hs htemp
      have hsp' := spot_of_sameDirectories h.sameDirectories hsp
      have htaken : (d'.get? (dir ++ [s.tempName])).isSome =
          (d.get? (dir ++ [s.tempName])).isSome := by
        by_cases hl : dir ++ [s.tempName] = l
        · -- the name is in use on both disks
          have hsome := mt (ne_of_namesApart hname hsp) (not_not.2 hl.symm)
          have hsome' := mt (ne_of_namesApart hname' hsp') (not_not.2 hl.symm)
          rw [Option.isSome_iff_ne_none.2 hsome, Option.isSome_iff_ne_none.2 hsome']
        · rw [h.get?_eq hl]
      simp only [Except.ok_bind, htaken]
      split
      · rfl
      · split <;> rfl

theorem create_alike_ok {p : Location × Disk} (hc : create d s (s.tempPath path) = .ok p) :
    ∃ created, create d' s (s.tempPath path) = .ok (p.1, created) := by
  have heq := create_alike hs hname h hsp hname'
  rw [hc] at heq
  cases hc' : create d' s (s.tempPath path) with
  | error e => rw [hc'] at heq; cases heq
  | ok p' =>
    rw [hc'] at heq
    exact ⟨p'.2, by rw [← Except.ok.inj heq]⟩

theorem FailsAt.alike {step : Step} {e : IoError} (hf : FailsAt s d path content step e) :
    FailsAt s d' path content step e := by
  cases hf with
  | create hc =>
    have heq := create_alike hs hname h hsp hname'
    rw [hc] at heq
    cases hc' : AtomicWrite.create d' s (s.tempPath path) with
    | error e' => rw [hc'] at heq; cases heq; exact .create hc'
    | ok p => rw [hc'] at heq; cases heq
  | write hc hw =>
    obtain ⟨_, hc'⟩ := create_alike_ok hs hname h hsp hname' hc
    exact .write hc' hw
  | sync hc hw hsync =>
    obtain ⟨_, hc'⟩ := create_alike_ok hs hname h hsp hname' hc
    exact .sync hc' hw hsync
  | setMode hc hw hsync hm =>
    obtain ⟨_, hc'⟩ := create_alike_ok hs hname h hsp hname' hc
    exact .setMode hc' hw hsync hm
  | renameRefused hc hw hsync hm hr =>
    obtain ⟨_, hc'⟩ := create_alike_ok hs hname h hsp hname' hc
    exact .renameRefused hc' hw hsync hm hr
  | rename hc hw hsync hm hr hd =>
    obtain ⟨_, hc'⟩ := create_alike_ok hs hname h hsp hname' hc
    exact .rename hc' hw hsync hm hr (by rw [rename_alike hs hname h hsp hc, hd])

theorem Completes.alike {moved : Disk} (hm : Completes s d path content moved) :
    Completes s d' path content moved := by
  obtain ⟨p, hc, hd⟩ := hm.moves
  obtain ⟨created, hc'⟩ := create_alike_ok hs hname h hsp hname' hc
  exact { hm with moves := ⟨_, hc', by rw [rename_alike hs hname h hsp hc, hd]⟩ }

/-- A write that finds a stale file, or another one, where its path leads to ends in the same way:
with the same error, or with the very same disk. -/
theorem writeAtomically_alike (content : ByteArray) :
    (writeAtomically s d' path content).result = (writeAtomically s d path content).result ∧
      ((writeAtomically s d path content).result = .ok () →
        (writeAtomically s d' path content).disk = (writeAtomically s d path content).disk) := by
  obtain ⟨moved, hm⟩ | ⟨step, e, hf⟩ := completes_or_failsAt s d path content
  · obtain ⟨hok, hdisk⟩ := writeAtomically_of_completes hm
    obtain ⟨hok', hdisk'⟩ := writeAtomically_of_completes (hm.alike hs hname h hsp hname')
    exact ⟨by rw [hok, hok'], fun _ => by rw [hdisk, hdisk']⟩
  · have herror := result_of_failsAt hf
    have herror' := result_of_failsAt (hf.alike hs hname h hsp hname')
    exact ⟨by rw [herror, herror'], fun hok => by rw [herror] at hok; cases hok⟩

end AtomicWrite

end OperatorRules
