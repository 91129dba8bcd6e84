import OperatorRules.Proofs.Disk.TemporaryFile

/-!
# Atomic writes

`writeAtomically` either fails and leaves every location as it was, or puts the complete file at the
location that its path leads to and leaves every other location as it was
(`writeAtomically_cases`). `FailsAt` says which step of a write fails first; the error names the
path that this step works on. Up to the last moment of a write the disk has only gained the
temporary file (`moments_eq`), so that the path shows the old file until it shows the complete new
one.
-/

namespace OperatorRules

namespace AtomicWrite

open Disk

theorem create_eq_ok {d created : Disk} {s : Site} {path : String} {temp : Location}
    (h : create d s path = .ok (temp, created)) :
    temp ≠ [] ∧ d.get? temp = none ∧
      d.Updated temp (some (.file temporaryMode ByteArray.empty)) created := by
  obtain ⟨sp, hsp, h⟩ := Except.bind_eq_ok_iff.1 h
  cases sp with
  | unnamed => cases h
  | named l slashed =>
    simp only at h
    split at h
    · cases h
    · next hnone =>
      split at h
      · cases h
      · cases h
        have hl : temp ≠ [] := ne_nil_of_spot hsp
        exact ⟨hl, by simpa using hnone, updated_put d hl _⟩

/-- Abandoning takes the temporary file back. -/
theorem get?_abandon {d full : Disk} {temp : Location} {o : Option Entry} (hne : temp ≠ [])
    (hnone : d.get? temp = none) (hfull : d.Updated temp o full) (path : String) (e : IoError)
    (moments : List Disk) (l : Location) :
    (abandon full temp path e moments).disk.get? l = d.get? l :=
  (hfull.trans (updated_erase full hne)).get?_of_undone hnone l

/-- The file that was moved is where the path leads, and nothing else has changed. -/
theorem updated_rename {d readable moved : Disk} {cwd temp : Location} {path : String} {e : Entry}
    (hne : temp ≠ []) (hnone : d.get? temp = none) (he : e ≠ .directory)
    (hr : d.Updated temp (some e) readable) (h : readable.rename cwd temp path = .ok moved) :
    ∃ l, d.spot cwd path = .ok (.named l false) ∧ d.get? l ≠ some .directory ∧
      d.Updated l (some e) moved := by
  obtain ⟨l, e', hsp, hnd, he', rfl⟩ := rename_eq_ok h
  have hs : d.SameDirectories readable := hr.sameDirectories (by simp [hnone]) (by simp [he])
  have hl : l ≠ [] := ne_nil_of_spot hsp
  obtain rfl : e = e' := by rw [hr.get?_self] at he'; exact Option.some.inj he'
  refine ⟨l, spot_of_sameDirectories hs.symm hsp, fun hd => hnd ((hs l).1 hd), ?_⟩
  split
  · next heq => exact heq ▸ hr
  · intro l'
    rw [updated_put _ hl e l']
    split
    · rfl
    · exact (hr.trans (updated_erase readable hne)).get?_of_undone hnone l'

end AtomicWrite

open AtomicWrite Disk in
/-- A write that fails leaves every location as it was; a write that succeeds changes only the
location that its path leads to, which holds the complete file then. -/
theorem writeAtomically_cases {s : Site} {d : Disk} {path : String} {content : ByteArray}
    {w : Written} (hw : writeAtomically s d path content = w) :
    ((∃ e, w.result = .error e) ∧ ∀ l, w.disk.get? l = d.get? l) ∨
      (w.result = .ok () ∧ ∃ l, d.spot s.cwd path = .ok (.named l false) ∧
        d.get? l ≠ some .directory ∧ d.Updated l (some (.file fileMode content)) w.disk) := by
  simp only [writeAtomically] at hw
  cases hc : create d s (s.tempPath path) with
  | error e =>
    simp only [hc] at hw; subst hw
    exact .inl ⟨⟨_, rfl⟩, fun _ => rfl⟩
  | ok p =>
    obtain ⟨temp, created⟩ := p
    obtain ⟨hne, hnone, hcreated⟩ := create_eq_ok hc
    have hfull := hcreated.trans (updated_put created hne (.file temporaryMode content))
    have hreadable := hfull.trans (updated_put _ hne (.file fileMode content))
    simp only [hc] at hw
    split at hw
    · subst hw; exact .inl ⟨⟨_, rfl⟩, get?_abandon hne hnone hcreated _ _ _⟩
    split at hw
    · subst hw; exact .inl ⟨⟨_, rfl⟩, get?_abandon hne hnone hfull _ _ _⟩
    split at hw
    · subst hw; exact .inl ⟨⟨_, rfl⟩, get?_abandon hne hnone hfull _ _ _⟩
    split at hw
    · subst hw; exact .inl ⟨⟨_, rfl⟩, get?_abandon hne hnone hreadable _ _ _⟩
    split at hw
    · subst hw; exact .inl ⟨⟨_, rfl⟩, get?_abandon hne hnone hreadable _ _ _⟩
    · next moved hm =>
      subst hw
      exact .inr ⟨rfl, updated_rename hne hnone (by simp) hreadable hm⟩

namespace AtomicWrite

open Disk OperatorRules.Path

/-! ## Failures -/

inductive Step where
  | create
  | write
  | sync
  | setMode
  | rename
  deriving DecidableEq, Repr

def Step.named (s : Site) (path : String) : Step → String
  | create => String.ofList (directory path.toList)
  | write | sync | setMode => s.tempPath path
  | rename => path

/-- The step that fails, and why: all steps before it succeed. -/
inductive FailsAt (s : Site) (d : Disk) (path : String) (content : ByteArray) :
    Step → IoError → Prop where
  | create {e : SystemError} (hc : create d s (s.tempPath path) = .error e) :
      FailsAt s d path content .create (.located e (s.tempPath path))
  | write {p : Location × Disk} {e : SystemError} (hc : create d s (s.tempPath path) = .ok p)
      (hw : s.refusals.write = some e) :
      FailsAt s d path content .write (.located e (s.tempPath path))
  | sync {p : Location × Disk} {e : SystemError} (hc : create d s (s.tempPath path) = .ok p)
      (hw : s.refusals.write = none) (hs : s.refusals.sync = some e) :
      FailsAt s d path content .sync (.system e)
  | setMode {p : Location × Disk} {e : SystemError} (hc : create d s (s.tempPath path) = .ok p)
      (hw : s.refusals.write = none) (hs : s.refusals.sync = none)
      (hm : s.refusals.setMode = some e) : FailsAt s d path content .setMode (.system e)
  | renameRefused {p : Location × Disk} {e : SystemError}
      (hc : create d s (s.tempPath path) = .ok p) (hw : s.refusals.write = none)
      (hs : s.refusals.sync = none) (hm : s.refusals.setMode = none)
      (hr : s.refusals.rename = some e) : FailsAt s d path content .rename (.system e)
  | rename {p : Location × Disk} {e : SystemError} (hc : create d s (s.tempPath path) = .ok p)
      (hw : s.refusals.write = none) (hs : s.refusals.sync = none)
      (hm : s.refusals.setMode = none) (hr : s.refusals.rename = none)
      (hd : (d.put p.1 (.file fileMode content)).rename s.cwd p.1 path = .error e) :
      FailsAt s d path content .rename (.system e)

/-- Every step succeeds, and `moved` is the disk after the last. -/
structure Completes (s : Site) (d : Disk) (path : String) (content : ByteArray) (moved : Disk) :
    Prop where
  write : s.refusals.write = none
  sync : s.refusals.sync = none
  setMode : s.refusals.setMode = none
  rename : s.refusals.rename = none
  moves : ∃ p, create d s (s.tempPath path) = .ok p ∧
    (d.put p.1 (.file fileMode content)).rename s.cwd p.1 path = .ok moved

variable {s : Site} {d : Disk} {path : String} {content : ByteArray}

theorem create_eq_ok_iff {temp : Location} {created : Disk} {tempPath : String} :
    create d s tempPath = .ok (temp, created) ↔
      (∃ slashed, d.spot s.cwd tempPath = .ok (.named temp slashed)) ∧ d.get? temp = none ∧
        s.refusals.create = none ∧ created = d.put temp (.file temporaryMode ByteArray.empty) := by
  rw [create, Except.bind_eq_ok_iff]
  constructor
  · rintro ⟨sp, hsp, h⟩
    cases sp with
    | unnamed => cases h
    | named l slashed =>
      simp only at h
      split at h
      · cases h
      next hnone =>
        split at h
        · cases h
        next hr =>
          cases h
          exact ⟨⟨slashed, hsp⟩, by simpa using hnone, hr, rfl⟩
  · rintro ⟨⟨slashed, hsp⟩, hnone, hr, rfl⟩
    exact ⟨_, hsp, by simp [hnone, hr]⟩

theorem result_of_failsAt {step : Step} {e : IoError} (h : FailsAt s d path content step e) :
    (writeAtomically s d path content).result = .error (step.named s path, e) := by
  cases h with
  | create hc => simp [writeAtomically, hc, Step.named]
  | write hc hw => simp [writeAtomically, hc, hw, abandon, Step.named]
  | sync hc hw hs => simp [writeAtomically, hc, hw, hs, abandon, Step.named]
  | setMode hc hw hs hm => simp [writeAtomically, hc, hw, hs, hm, abandon, Step.named]
  | renameRefused hc hw hs hm hr =>
    simp [writeAtomically, hc, hw, hs, hm, hr, abandon, Step.named]
  | @rename p e hc hw hs hm hr hd =>
    obtain ⟨temp, created⟩ := p
    obtain ⟨-, -, -, rfl⟩ := create_eq_ok_iff.1 hc
    simp [writeAtomically, hc, hw, hs, hm, hr, put_put, hd, abandon, Step.named]

theorem writeAtomically_of_completes {moved : Disk} (h : Completes s d path content moved) :
    (writeAtomically s d path content).result = .ok () ∧
      (writeAtomically s d path content).disk = moved := by
  obtain ⟨hw, hs, hm, hr, ⟨temp, created⟩, hc, hd⟩ := h
  obtain ⟨-, -, -, rfl⟩ := create_eq_ok_iff.1 hc
  simp [writeAtomically, hc, hw, hs, hm, hr, put_put, hd]

/-- Either all steps succeed or one is the first to fail. -/
theorem completes_or_failsAt (s : Site) (d : Disk) (path : String) (content : ByteArray) :
    (∃ moved, Completes s d path content moved) ∨ ∃ step e, FailsAt s d path content step e := by
  cases hc : create d s (s.tempPath path) with
  | error e => exact .inr ⟨_, _, .create hc⟩
  | ok p =>
    cases hw : s.refusals.write with
    | some e => exact .inr ⟨_, _, .write hc hw⟩
    | none =>
      cases hs : s.refusals.sync with
      | some e => exact .inr ⟨_, _, .sync hc hw hs⟩
      | none =>
        cases hm : s.refusals.setMode with
        | some e => exact .inr ⟨_, _, .setMode hc hw hs hm⟩
        | none =>
          cases hr : s.refusals.rename with
          | some e => exact .inr ⟨_, _, .renameRefused hc hw hs hm hr⟩
          | none =>
            cases hd : (d.put p.1 (.file fileMode content)).rename s.cwd p.1 path with
            | error e => exact .inr ⟨_, _, .rename hc hw hs hm hr hd⟩
            | ok moved => exact .inl ⟨moved, hw, hs, hm, hr, p, hc, hd⟩

theorem result_eq_error_iff {named : String} {e : IoError} :
    (writeAtomically s d path content).result = .error (named, e) ↔
      ∃ step, FailsAt s d path content step e ∧ named = step.named s path := by
  constructor
  · intro h
    obtain ⟨moved, hok⟩ | ⟨step, e', hf⟩ := completes_or_failsAt s d path content
    · rw [(writeAtomically_of_completes hok).1] at h
      cases h
    · rw [result_of_failsAt hf] at h
      cases h
      exact ⟨step, hf, rfl⟩
  · rintro ⟨step, hf, rfl⟩
    exact result_of_failsAt hf

/-! ## Moments -/

theorem gained_put {temp : Location} (hne : temp ≠ []) (hnone : d.get? temp = none) (mode : Nat)
    (content : ByteArray) : d.Gained temp (d.put temp (.file mode content)) :=
  ⟨hnone, mode, content, updated_put d hne _⟩

/-- Unless the temporary file could not be created, the moments of a write are some at which the
disk has only gained that file, and then the end. -/
theorem moments_eq (s : Site) (d : Disk) (path : String) (content : ByteArray) {w : Written}
    (hw : writeAtomically s d path content = w) :
    (w.moments = [] ∧ w.disk = d) ∨ ∃ p before, create d s (s.tempPath path) = .ok p ∧
      w.moments = p.2 :: before ++ [w.disk] ∧ ∀ d' ∈ p.2 :: before, d.Gained p.1 d' := by
  simp only [writeAtomically] at hw
  cases hc : create d s (s.tempPath path) with
  | error e =>
    simp only [hc] at hw
    subst hw
    exact .inl ⟨rfl, rfl⟩
  | ok p =>
    obtain ⟨temp, created⟩ := p
    obtain ⟨⟨slashed, hsp⟩, hnone, -, rfl⟩ := create_eq_ok_iff.1 hc
    have hgained (mode : Nat) (content : ByteArray) :
        d.Gained temp (d.put temp (.file mode content)) :=
      gained_put (ne_nil_of_spot hsp) hnone mode content
    have hturns : ∀ d' ∈ d.put temp (.file temporaryMode ByteArray.empty) ::
        turnMoments (d.put temp (.file temporaryMode ByteArray.empty)) temp content
          s.refusals.turns, d.Gained temp d' := by
      intro d' hd'
      rcases List.mem_cons.1 hd' with rfl | hd'
      · exact hgained ..
      · obtain ⟨n, -, rfl⟩ := List.mem_map.1 hd'
        rw [put_put]
        exact hgained ..
    -- a step adds at most one moment, at which the temporary file has changed
    have hadd {l : List Disk} (hl : ∀ d' ∈ l, d.Gained temp d') (mode : Nat) :
        ∀ d' ∈ l ++ [d.put temp (.file mode content)], d.Gained temp d' := by
      simpa [or_imp, forall_and, hgained] using hl
    have hfull := hadd hturns temporaryMode
    have hreadable := hadd hfull fileMode
    simp only [hc, put_put] at hw
    refine .inr ⟨(temp, d.put temp (.file temporaryMode ByteArray.empty)), ?_⟩
    split at hw
    · subst hw; exact ⟨_, rfl, rfl, hturns⟩
    split at hw
    · subst hw; exact ⟨_, rfl, rfl, hfull⟩
    split at hw
    · subst hw; exact ⟨_, rfl, rfl, hfull⟩
    split at hw
    · subst hw; exact ⟨_, rfl, rfl, hreadable⟩
    split at hw
    · subst hw; exact ⟨_, rfl, rfl, hreadable⟩
    · subst hw; exact ⟨_, rfl, rfl, hreadable⟩

/-! ## The whole write -/

/-- After a write that succeeds, its path shows the complete file. -/
theorem at?_of_ok (hok : (writeAtomically s d path content).result = .ok ()) :
    (writeAtomically s d path content).disk.at? s.cwd path = some (.file fileMode content) := by
  obtain ⟨⟨e, herror⟩, -⟩ | ⟨-, l, hsp, hnd, hl⟩ :=
    writeAtomically_cases (w := writeAtomically s d path content) rfl
  · rw [herror] at hok
    cases hok
  · have hs := hl.sameDirectories hnd (by simp)
    exact at?_of_spot (spot_of_sameDirectories hs hsp) hl.get?_self

/-- The temporary file for a path lies in the directory that the path tells. -/
theorem create_beside (hs : s.Regular) {temp : Location} {created : Disk}
    (h : create d s (s.tempPath path) = .ok (temp, created)) :
    ∃ dir, temp = dir ++ [s.tempName] ∧ d.get? dir = some .directory ∧
      d.follow (Route.startOf s.cwd (directory path.toList)) (names (directory path.toList)) =
        .ok dir ∧
      d.locate s.cwd (String.ofList (directory path.toList)) = .ok dir := by
  obtain ⟨⟨slashed, hsp⟩, -, -, -⟩ := create_eq_ok_iff.1 h
  obtain ⟨dir, hf, hd, rfl⟩ := spot_tempPath hs hsp
  exact ⟨dir, rfl, hd, hf, locate_directory hs hsp hf hd⟩

/-- At every moment the path shows what it showed before, or that is the last moment. -/
theorem at?_of_mem_moments (hs : s.Regular) (hname : s.NamesApart d path) {d' : Disk}
    (hd' : d' ∈ (writeAtomically s d path content).moments) :
    d'.at? s.cwd path = d.at? s.cwd path ∨ d' = (writeAtomically s d path content).disk := by
  obtain ⟨hnil, -⟩ | ⟨⟨temp, created⟩, before, hc, hmoments, hgained⟩ :=
    moments_eq s d path content rfl
  · rw [hnil] at hd'
    cases hd'
  · rw [hmoments] at hd'
    rcases List.mem_append.1 hd' with hd' | hd'
    · obtain ⟨dir, rfl, -, hfollow, -⟩ := create_beside hs hc
      exact .inl ((hgained d' hd').at?_eq_of_namesApart hfollow hname)
    · exact .inr (List.mem_singleton.1 hd')

theorem getLast?_moments : (writeAtomically s d path content).moments.getLast?.getD d =
    (writeAtomically s d path content).disk := by
  obtain ⟨hnil, hdisk⟩ | ⟨_, before, -, hmoments, -⟩ := moments_eq s d path content rfl
  · rw [hnil, hdisk]
    rfl
  · rw [hmoments, List.getLast?_concat]
    rfl

/-- Up to the last moment there is only the temporary file, beside what the path leads to. -/
theorem gained_of_mem_dropLast (hs : s.Regular) {d' : Disk}
    (hd' : d' ∈ (writeAtomically s d path content).moments.dropLast) :
    ∃ dir, d.locate s.cwd (String.ofList (directory path.toList)) = .ok dir ∧
      d.Gained (dir ++ [s.tempName]) d' ∧
      ∀ l slashed, d.spot s.cwd path = .ok (.named l slashed) → l.dropLast = dir := by
  obtain ⟨hnil, -⟩ | ⟨⟨temp, created⟩, before, hc, hmoments, hgained⟩ :=
    moments_eq s d path content rfl
  · rw [hnil] at hd'
    cases hd'
  · obtain ⟨dir, rfl, hd, hfollow, hlocate⟩ := create_beside hs hc
    rw [hmoments, List.dropLast_concat] at hd'
    refine ⟨dir, hlocate, hgained d' hd', fun l slashed hsp => ?_⟩
    obtain ⟨here, name, rfl, -, hbeside⟩ := spot_eq_beside hsp
    rw [hfollow] at hbeside
    rw [List.dropLast_concat, Except.ok.inj hbeside]

theorem get?_of_error {failure : String × IoError}
    (hf : (writeAtomically s d path content).result = .error failure) (l : Location) :
    (writeAtomically s d path content).disk.get? l = d.get? l := by
  obtain ⟨-, hsame⟩ | ⟨hok, -⟩ :=
    writeAtomically_cases (w := writeAtomically s d path content) rfl
  · exact hsame l
  · rw [hok] at hf
    cases hf

theorem unchangedOff_of_ok (hok : (writeAtomically s d path content).result = .ok ()) :
    d.UnchangedOff s.cwd path (writeAtomically s d path content).disk := by
  obtain ⟨⟨e, herror⟩, -⟩ | ⟨-, l, hsp, -, hl⟩ :=
    writeAtomically_cases (w := writeAtomically s d path content) rfl
  · rw [herror] at hok
    cases hok
  · exact .of_updated hsp hl

end AtomicWrite

open AtomicWrite Disk OperatorRules.Path in
/-- At every moment of a write its path shows what it showed before, or the complete file with
mode 644; where there was nothing before, this takes that the temporary file is not called like the
target. A write that fails leaves every location as it was, and names the path on which a step
failed; one that succeeds leaves the complete file, and nothing else has changed. Up to the last
moment the only change is the temporary file, in the directory that the path tells: the one that
holds what the path leads to, or the current one if the path tells none. -/
theorem writeAtomically_atomic (s : Site) (d : Disk) (path : String) (content : ByteArray)
    (hs : s.Regular) :
    let w := writeAtomically s d path content
    let dirPath := directory path.toList
    (s.NamesApart d path → ∀ d' ∈ w.moments,
      d'.at? s.cwd path = d.at? s.cwd path ∨
        d'.at? s.cwd path = some (.file 0o644 content)) ∧
    w.moments.getLast?.getD d = w.disk ∧
    (∀ named e, w.result = .error (named, e) ↔
      ∃ step, FailsAt s d path content step e ∧ named = step.named s path) ∧
    (∀ failure, w.result = .error failure → ∀ l, w.disk.get? l = d.get? l) ∧
    (w.result = .ok () → w.disk.at? s.cwd path = some (.file 0o644 content) ∧
      d.UnchangedOff s.cwd path w.disk) ∧
    (∀ d' ∈ w.moments.dropLast, ∃ dir, d.locate s.cwd (String.ofList dirPath) = .ok dir ∧
      d.Gained (dir ++ [s.tempName]) d' ∧
      ∀ l slashed, d.spot s.cwd path = .ok (.named l slashed) → l.dropLast = dir) ∧
    ((∀ parent, parent? path.toList = some parent → parent = []) → dirPath = ['.']) := by
  intro w dirPath
  refine ⟨fun hname d' hd' => ?_, getLast?_moments, fun _ _ => result_eq_error_iff,
    fun _ => get?_of_error, fun hok => ⟨at?_of_ok hok, unchangedOff_of_ok hok⟩,
    fun _ => gained_of_mem_dropLast hs, directory_eq_dot⟩
  obtain hsame | rfl := at?_of_mem_moments hs hname hd'
  · exact .inl hsame
  cases hr : w.result with
  | error failure => exact .inl (at?_congr (get?_of_error hr) ..)
  | ok _ => exact .inr (at?_of_ok hr)

/-- The mode is refused when the file is complete: the error names the temporary file, and the
path shows the old file throughout. -/
theorem writeAtomically_atomic_setMode_refused :
    let s : Site := {
      cwd := ["w"]
      tempName := ".tmp1"
      refusals := { turns := [1], setMode := some .permissionDenied } }
    let old : Entry := .file 0o600 "[]".toUTF8
    let d : Disk := ⟨[(["w"], .directory), (["w", "rules.json"], old)]⟩
    let w := writeAtomically s d "rules.json" "{}".toUTF8
    s.Regular ∧ s.NamesApart d "rules.json" ∧
      w.result = .error ("/w/./.tmp1", .system .permissionDenied) ∧ w.moments.length = 4 ∧
      (∀ d' ∈ w.moments, d'.at? ["w"] "rules.json" = some old ∨
        d'.at? ["w"] "rules.json" = some (.file 0o644 "{}".toUTF8)) ∧
      w.disk.at? ["w"] "rules.json" = some old := by
  intro s old d w
  have hs : s.Regular := by decide
  have hname : s.NamesApart d "rules.json" := fun _ => by decide
  have hold : d.at? ["w"] "rules.json" = some old := by decide +kernel
  have hresult : w.result = .error ("/w/./.tmp1", .system .permissionDenied) := by
    decide +kernel
  obtain ⟨hmoments, -, -, hrestored, -⟩ := writeAtomically_atomic s d "rules.json" "{}".toUTF8 hs
  refine ⟨hs, hname, hresult, by decide +kernel, fun d' hd' => ?_, ?_⟩
  · rw [← hold]
    exact hmoments hname d' hd'
  · rw [← hold]
    exact Disk.at?_congr (hrestored _ hresult) ..

/-- Where there is nothing, a temporary file that is called like the target shows through the path
while it is written. -/
example :
    let s : Site := { cwd := ["w"], tempName := "rules.json", refusals := { turns := [1] } }
    let w := writeAtomically s ⟨[(["w"], .directory)]⟩ "rules.json" "{}".toUTF8
    ∃ d' ∈ w.moments, d'.at? ["w"] "rules.json" = some (.file 0o600 "\x7b".toUTF8) := by
  decide +kernel

end OperatorRules
