import OperatorRules.Proofs.Disk
import OperatorRules.Proofs.Disk.Path

/-!
# Where the temporary file is

The temporary file for a path lies in the directory that the path tells (`spot_tempPath`), hence
beside what the path leads to (`follow_directory`). While it is there, every path that does not end
at it shows what it showed before (`Gained.at?_eq`), and only a path that ends in its name can end
at it (`Gained.locate_ne`). So the path that it is for is not disturbed by it, unless the path leads
to nothing and the file is called like it (`Gained.at?_eq_of_namesApart`).
-/

namespace OperatorRules

open OperatorRules.Path

/-- What an entry of a directory can be called. -/
structure IsName (s : String) : Prop where
  noSlash : '/' ∉ s.toList
  ne_empty : s ≠ ""
  ne_dot : s ≠ "."
  ne_dots : s ≠ ".."

instance (s : String) : Decidable (IsName s) :=
  decidable_of_iff ('/' ∉ s.toList ∧ s ≠ "" ∧ s ≠ "." ∧ s ≠ "..")
    ⟨fun h => ⟨h.1, h.2.1, h.2.2.1, h.2.2.2⟩, fun h => ⟨h.noSlash, h.ne_empty, h.ne_dot, h.ne_dots⟩⟩

/-- The current directory is told by names, and the name of the temporary file is one. -/
structure Site.Regular (s : Site) : Prop where
  cwd : ∀ name ∈ s.cwd, IsName name
  tempName : IsName s.tempName

instance (s : Site) : Decidable s.Regular :=
  decidable_of_iff ((∀ name ∈ s.cwd, IsName name) ∧ IsName s.tempName)
    ⟨fun h => ⟨h.1, h.2⟩, fun h => ⟨h.cwd, h.tempName⟩⟩

/-- The temporary file for a path is not called like the target. This is asked only where the path
leads to nothing: a name that is in use is not given to a new file. -/
def Site.NamesApart (s : Site) (d : Disk) (path : String) : Prop :=
  d.at? s.cwd path = none → fileName? path.toList ≠ some s.tempName.toList

/-! ## Routes -/

namespace Disk.Route

/-- Where a path starts from. -/
def startOf (cwd : Location) (path : List Char) : Location := if isAbsolute path then [] else cwd

theorem ofPath?_of_names {cwd : Location} {path : List Char} {inner : List String} {last : String}
    (h : names path = inner ++ [last]) :
    ofPath? cwd path = some ⟨startOf cwd path, inner, last, path.getLast? == some '/'⟩ := by
  have hnames : ((splitSlash path).map String.ofList).filter (· ≠ "") = inner ++ [last] := h
  rw [ofPath?, hnames]
  simp [startOf]

theorem ofPath?_eq_none {cwd : Location} {path : List Char} (h : names path = []) :
    ofPath? cwd path = none := by
  have hnames : ((splitSlash path).map String.ofList).filter (· ≠ "") = [] := h
  rw [ofPath?, hnames]
  rfl

theorem ofPath?_eq_some {cwd : Location} {path : List Char} {r : Route}
    (h : ofPath? cwd path = some r) :
    names path = r.inner ++ [r.last] ∧ r.start = startOf cwd path := by
  rcases List.eq_nil_or_concat' (names path) with hnil | ⟨inner, last, hnames⟩
  · rw [ofPath?_eq_none hnil] at h
    cases h
  · rw [ofPath?_of_names hnames] at h
    cases h
    exact ⟨hnames, rfl⟩

end Disk.Route

open Disk.Route

theorem names_locationPath {l : Location} (h : ∀ name ∈ l, IsName name) :
    names (Location.path l) = l := by
  have hnoSlash : ∀ cs ∈ l.map String.toList, '/' ∉ cs := by
    intro cs hcs
    obtain ⟨name, hname, rfl⟩ := List.mem_map.1 hcs
    exact (h name hname).noSlash
  rw [Location.path, names_slash, names_joinSlash hnoSlash,
    namesOf_map_toList fun name hname => (h name hname).ne_empty]

theorem isAbsolute_join {base : List Char} (h : isAbsolute base) (path : List Char) :
    isAbsolute (join base path) := by
  unfold join
  split
  · assumption
  · cases base with
    | nil => cases h
    | cons c base => split <;> exact h

theorem IsName.isAbsolute {s : String} (h : IsName s) : isAbsolute s.toList = false := by
  have hnoSlash := h.noSlash
  cases hs : s.toList with
  | nil => rfl
  | cons c cs =>
    rw [hs] at hnoSlash
    have hc : c ≠ '/' := fun e => hnoSlash (e ▸ List.mem_cons_self ..)
    simpa [Path.isAbsolute] using hc

theorem IsName.names {s : String} (h : IsName s) : names s.toList = [s] := by
  have hne : s.toList ≠ [] := fun e => h.ne_empty (String.toList_inj.1 e)
  rw [Path.names, splitSlash_of_noSlash h.noSlash, namesOf_singleton hne, String.ofList_toList]

section
variable {s : Site} {path : String}

theorem Site.Regular.startOf (hs : s.Regular) (cs : List Char) :
    ∀ name ∈ startOf s.cwd cs, IsName name := by
  unfold Disk.Route.startOf
  split
  · simp
  · exact hs.cwd

theorem isAbsolute_tempPath (s : Site) (path : String) : isAbsolute (s.tempPath path).toList := by
  rw [Site.tempPath, String.toList_ofList]
  exact isAbsolute_join (isAbsolute_join rfl _) _

/-- The temporary path names the directory of the path, from the root, and the temporary file. -/
theorem names_tempPath (hs : s.Regular) :
    names (s.tempPath path).toList =
      startOf s.cwd (directory path.toList) ++ names (directory path.toList) ++ [s.tempName] := by
  rw [Site.tempPath, String.toList_ofList, names_join, hs.tempName.isAbsolute, hs.tempName.names,
    names_join, names_locationPath hs.cwd]
  rfl

end

namespace Disk

variable {d d' : Disk}

/-! ## Following names -/

/-- What one step can do. -/
theorem step_eq_ok_iff {here there : Location} {s : String} :
    d.step here s = .ok there ↔ d.get? here = some .directory ∧
      ((s = "." ∧ there = here) ∨ (s = ".." ∧ there = here.dropLast) ∨
        (s ≠ "." ∧ s ≠ ".." ∧ s.utf8ByteSize ≤ longestName ∧ there = here ++ [s] ∧
          (d.get? there).isSome)) := by
  unfold step
  by_cases hd : d.get? here = some .directory
  · rw [hd, if_neg (by simp)]
    by_cases hdot : s = "."
    · simp [hdot, eq_comm (a := here)]
    by_cases hdots : s = ".."
    · simp [hdots, eq_comm (a := here.dropLast)]
    rw [if_neg hdot, if_neg hdots]
    by_cases hlen : longestName < s.utf8ByteSize
    · simp [hlen, hdot, hdots, Nat.not_le.2 hlen]
    · rw [if_neg hlen]
      split
      · next hs =>
        simp only [Except.ok.injEq, hdot, hdots, Nat.not_lt.1 hlen, false_and, not_false_eq_true,
          ne_eq, true_and, false_or]
        exact ⟨fun e => e ▸ ⟨rfl, hs⟩, fun e => e.1.symm⟩
      · next hs =>
        simp only [reduceCtorEq, hdot, hdots, Nat.not_lt.1 hlen, false_and, not_false_eq_true,
          ne_eq, true_and, false_or, false_iff]
        rintro ⟨rfl, h⟩
        exact hs h
  · rw [if_pos (by simpa using hd)]
    simp [hd]

theorem follow_append (d : Disk) (here : Location) (ss ts : List String) :
    d.follow here (ss ++ ts) = d.follow here ss >>= fun there => d.follow there ts := by
  simp [follow]

theorem step_dot {here : Location} (h : d.get? here = some .directory) :
    d.step here "." = .ok here := step_eq_ok_iff.2 ⟨h, .inl ⟨rfl, rfl⟩⟩

theorem step_dot_eq_ok {here there : Location} (h : d.step here "." = .ok there) :
    there = here := by
  rw [step_dot (directory_of_step h)] at h
  cases h
  rfl

theorem step_name_eq_ok {here there : Location} {s : String} (h : d.step here s = .ok there)
    (hdot : s ≠ ".") (hdots : s ≠ "..") : there = here ++ [s] := by
  obtain ⟨-, ⟨hs, -⟩ | ⟨hs, -⟩ | ⟨-, -, -, hthere, -⟩⟩ := step_eq_ok_iff.1 h
  · exact absurd hs hdot
  · exact absurd hs hdots
  · exact hthere

theorem follow_names {l : List String} (hl : ∀ s ∈ l, IsName s) {here there : Location}
    (h : d.follow here l = .ok there) : there = here ++ l := by
  induction l generalizing here with
  | nil => cases h; simp
  | cons s l ih =>
    rw [follow_cons] at h
    obtain ⟨mid, hstep, hrest⟩ := Except.bind_eq_ok_iff.1 h
    have hs := hl s (List.mem_cons_self ..)
    obtain rfl := step_name_eq_ok hstep hs.ne_dot hs.ne_dots
    rw [ih (fun s hs => hl s (List.mem_cons_of_mem _ hs)) hrest, List.append_assoc]
    rfl

theorem follow_dots {k : Nat} {here there : Location}
    (h : d.follow here (List.replicate k ".") = .ok there) : there = here := by
  induction k with
  | zero => cases h; rfl
  | succ k ih =>
    rw [List.replicate_succ, follow_cons] at h
    obtain ⟨mid, hstep, hrest⟩ := Except.bind_eq_ok_iff.1 h
    obtain rfl := step_dot_eq_ok hstep
    exact ih hrest

/-- What leads to a name leads to the directory of the path that ends in it. -/
theorem follow_directory {cwd here : Location} {cs : List Char} {inner : List String}
    {last : String} (h : names cs = inner ++ [last]) (hlast : last ≠ ".")
    (hf : d.follow (startOf cwd cs) inner = .ok here) (hd : d.get? here = some .directory) :
    d.follow (startOf cwd (directory cs)) (names (directory cs)) = .ok here := by
  obtain ⟨habs, k, rfl | ⟨hcurrent, rfl⟩⟩ := names_directory h hlast
  · rw [startOf, habs, ← startOf]
    rw [follow_append] at hf
    obtain ⟨mid, hmid, hdots⟩ := Except.bind_eq_ok_iff.1 hf
    obtain rfl := follow_dots hdots
    exact hmid
  · obtain rfl := follow_dots hf
    have hnames : names (directory cs) = ["."] := by rw [hcurrent]; rfl
    rw [startOf, habs, ← startOf, hnames, follow_cons, step_dot hd]
    rfl

/-- What a path leads to lies in the directory of the path. -/
theorem spot_eq_beside {cwd l : Location} {path : String} {slashed : Bool}
    (h : d.spot cwd path = .ok (.named l slashed)) :
    ∃ here name, l = here ++ [name] ∧ d.get? here = some .directory ∧
      d.follow (startOf cwd (directory path.toList)) (names (directory path.toList)) =
        .ok here := by
  obtain ⟨r, here, hr, hf, hd, hdot, -, -, rfl, -⟩ := spot_eq_named h
  obtain ⟨hnames, hstart⟩ := ofPath?_eq_some hr
  rw [hstart] at hf
  exact ⟨here, r.last, rfl, hd, follow_directory hnames hdot hf hd⟩

/-- A temporary path leads to the temporary file in the directory of the path. -/
theorem spot_tempPath {s : Site} (hs : s.Regular) {path : String} {temp : Location}
    {slashed : Bool} (h : d.spot s.cwd (s.tempPath path) = .ok (.named temp slashed)) :
    ∃ dir, d.follow (startOf s.cwd (directory path.toList)) (names (directory path.toList)) =
        .ok dir ∧ d.get? dir = some .directory ∧ temp = dir ++ [s.tempName] := by
  obtain ⟨r, dir, hr, hf, hd, -, -, -, rfl, -⟩ := spot_eq_named h
  rw [ofPath?_of_names (names_tempPath hs)] at hr
  cases hr
  refine ⟨dir, ?_, hd, rfl⟩
  simp only [startOf, isAbsolute_tempPath, ↓reduceIte] at hf
  rw [follow_append] at hf
  obtain ⟨mid, hmid, hdir⟩ := Except.bind_eq_ok_iff.1 hf
  obtain rfl := follow_names (hs.startOf _) hmid
  exact hdir

/-! ## Locating -/

/-- A path that the system takes at all. -/
structure Admissible (path : String) : Prop where
  nonempty : path.isEmpty = false
  noNull : hasNull path = false
  short : path.utf8ByteSize < pathLimit

theorem admissible_of_spot {cwd : Location} {path : String} {sp : Spot}
    (h : d.spot cwd path = .ok sp) : Admissible path := by
  unfold spot at h
  split at h
  · cases h
  split at h
  · cases h
  split at h
  · cases h
  next hempty hnull hlen =>
    exact ⟨by simpa using hempty, by simpa using hnull, Nat.not_le.1 hlen⟩

theorem locate_eq_ok_iff {cwd : Location} {path : String} {l : Location} :
    d.locate cwd path = .ok l ↔ Admissible path ∧
      ((ofPath? cwd path.toList = none ∧ l = []) ∨
        ∃ r, ofPath? cwd path.toList = some r ∧ d.follow r.start (r.inner ++ [r.last]) = .ok l ∧
          (r.slashed → d.get? l = some .directory)) := by
  unfold locate
  by_cases hempty : path.isEmpty = true
  · rw [if_pos hempty]
    exact ⟨nofun, fun h => absurd hempty (by simp [h.1.nonempty])⟩
  by_cases hnull : hasNull path = true
  · rw [if_neg hempty, if_pos hnull]
    exact ⟨nofun, fun h => absurd hnull (by simp [h.1.noNull])⟩
  by_cases hlen : pathLimit ≤ path.utf8ByteSize
  · rw [if_neg hempty, if_neg hnull, if_pos hlen]
    exact ⟨nofun, fun h => absurd h.1.short (Nat.not_lt.2 hlen)⟩
  have hpath : Admissible path :=
    ⟨by simpa using hempty, by simpa using hnull, Nat.not_le.1 hlen⟩
  rw [if_neg hempty, if_neg hnull, if_neg hlen]
  cases hr : ofPath? cwd path.toList with
  | none => simp [hpath, eq_comm (a := ([] : Location))]
  | some r =>
    simp only [Except.bind_eq_ok_iff, hpath, true_and, reduceCtorEq, false_and, false_or,
      Option.some.injEq, exists_eq_left']
    constructor
    · rintro ⟨found, hf, h⟩
      split at h
      · cases h
      · next hslash =>
        cases h
        exact ⟨hf, fun hs => by simpa [hs] using hslash⟩
    · rintro ⟨hf, hslash⟩
      refine ⟨l, hf, ?_⟩
      by_cases hs : r.slashed <;> simp [hs, hslash]

theorem locate_of_follow {cwd here : Location} {cs : List Char}
    (hcs : Admissible (String.ofList cs)) (hf : d.follow (startOf cwd cs) (names cs) = .ok here)
    (hd : d.get? here = some .directory) : d.locate cwd (String.ofList cs) = .ok here := by
  have hne : cs ≠ [] := by simpa using hcs.nonempty
  refine locate_eq_ok_iff.2 ⟨hcs, ?_⟩
  rw [String.toList_ofList]
  rcases List.eq_nil_or_concat' (names cs) with hnil | ⟨inner, last, hnames⟩
  · rw [hnil, startOf, isAbsolute_of_names_eq_nil hne hnil] at hf
    exact .inl ⟨ofPath?_eq_none hnil, (Except.ok.inj hf).symm⟩
  · exact .inr ⟨_, ofPath?_of_names hnames, hnames ▸ hf, fun _ => hd⟩

/-! ## What a path shows -/

theorem at?_eq_some_iff {cwd : Location} {path : String} {e : Entry} :
    d.at? cwd path = some e ↔ ∃ l, d.locate cwd path = .ok l ∧ d.get? l = some e := by
  unfold at?
  split
  · next l hl => simp [hl]
  · next hl => simp [hl]

theorem at?_of_spot {cwd l : Location} {path : String} {e : Entry}
    (h : d.spot cwd path = .ok (.named l false)) (hl : d.get? l = some e) :
    d.at? cwd path = some e := by
  obtain ⟨r, here, hr, hf, hd, hdot, hdots, hlen, rfl, hslashed⟩ := spot_eq_named h
  have hstep : d.step here r.last = .ok (here ++ [r.last]) :=
    step_eq_ok_iff.2 ⟨hd, .inr (.inr ⟨hdot, hdots, hlen, rfl, by simp [hl]⟩)⟩
  have hfollow : d.follow r.start (r.inner ++ [r.last]) = .ok (here ++ [r.last]) := by
    rw [follow_concat, hf]
    exact hstep
  exact at?_eq_some_iff.2 ⟨_, locate_eq_ok_iff.2
    ⟨admissible_of_spot h, .inr ⟨r, hr, hfollow, by simp [← hslashed]⟩⟩, hl⟩

/-- What a path with a name of its own shows is at its spot, and a directory if a slash follows. -/
theorem get?_of_at?_of_spot {cwd l : Location} {path : String} {slashed : Bool} {e : Entry}
    (h : d.spot cwd path = .ok (.named l slashed)) (he : d.at? cwd path = some e) :
    d.get? l = some e ∧ (slashed → e = .directory) := by
  obtain ⟨there, hthere, he⟩ := at?_eq_some_iff.1 he
  obtain ⟨r, here, hr, hf, -, hdot, hdots, -, rfl, rfl⟩ := spot_eq_named h
  obtain ⟨-, ⟨hnone, -⟩ | ⟨r', hr', hf', hslash⟩⟩ := locate_eq_ok_iff.1 hthere
  · rw [hr] at hnone
    cases hnone
  · obtain rfl : r = r' := Option.some.inj (hr.symm.trans hr')
    rw [follow_concat, hf] at hf'
    obtain rfl := step_name_eq_ok hf' hdot hdots
    exact ⟨he, fun hs => Option.some.inj (he.symm.trans (hslash hs))⟩

theorem at?_congr (h : ∀ l, d'.get? l = d.get? l) (cwd : Location) (path : String) :
    d'.at? cwd path = d.at? cwd path := by
  have hstep : d'.step = d.step := by
    funext here s
    rw [step, step, h, h]
  ext e
  rw [at?_eq_some_iff, at?_eq_some_iff]
  refine exists_congr fun l => ?_
  rw [locate_eq_ok_iff, locate_eq_ok_iff, h]
  simp only [follow, hstep]

/-! ## The directory of the temporary file -/

/-- The temporary path holds the directory of the path. -/
theorem exists_tempPath_eq {s : Site} (hs : s.Regular) (path : String) :
    ∃ before after,
      s.tempPath path = String.ofList (before ++ directory path.toList ++ after) := by
  obtain ⟨before, hbefore⟩ := exists_join_eq_append (Location.path s.cwd) (directory path.toList)
  obtain ⟨after, hafter⟩ := exists_join_eq_of_relative
    (join (Location.path s.cwd) (directory path.toList)) hs.tempName.isAbsolute
  exact ⟨before, after, by rw [Site.tempPath, hafter, hbefore]⟩

theorem locate_directory {s : Site} (hs : s.Regular) {path : String} {temp dir : Location}
    {slashed : Bool} (h : d.spot s.cwd (s.tempPath path) = .ok (.named temp slashed))
    (hf : d.follow (startOf s.cwd (directory path.toList)) (names (directory path.toList)) =
      .ok dir) (hd : d.get? dir = some .directory) :
    d.locate s.cwd (String.ofList (directory path.toList)) = .ok dir := by
  obtain ⟨before, after, htemp⟩ := exists_tempPath_eq hs path
  obtain ⟨-, hnull, hlen⟩ := admissible_of_spot h
  rw [htemp] at hnull hlen
  refine locate_of_follow ⟨?_, ?_, ?_⟩ hf hd
  · simpa using directory_ne_nil path.toList
  · simp only [hasNull, String.toList_ofList, List.contains_eq_mem, List.mem_append,
      decide_eq_false_iff_not, not_or] at hnull ⊢
    exact hnull.1.2
  · rw [String.ofList_append, String.ofList_append, String.utf8ByteSize_append,
      String.utf8ByteSize_append] at hlen
    omega

/-- A path leads elsewhere than to a file that its last name is not the name of. -/
theorem ne_of_fileName? {cwd l : Location} {path name : String} {slashed : Bool}
    (hsp : d.spot cwd path = .ok (.named l slashed))
    (hname : fileName? path.toList ≠ some name.toList) (dir : Location) : l ≠ dir ++ [name] := by
  obtain ⟨r, here, hr, -, -, hdot, hdots, -, rfl, -⟩ := spot_eq_named hsp
  intro heq
  obtain ⟨-, hlast⟩ := List.append_inj' heq rfl
  rw [fileName?_eq_some (ofPath?_eq_some hr).1 hdot hdots, (List.cons.inj hlast).1] at hname
  exact hname rfl

/-! ## While the temporary file is there -/

theorem eq_of_follow {here there : Location} {segments : List String}
    (h : d.follow here segments = .ok there) (hd : d.get? here ≠ some .directory) :
    there = here := by
  cases segments with
  | nil => cases h; rfl
  | cons s segments =>
    obtain ⟨_, hstep, -⟩ := Except.bind_eq_ok_iff.1 (follow_cons .. ▸ h)
    exact absurd (directory_of_step hstep) hd

/-- A file that takes the place of nothing, and nothing else has changed. -/
structure Gained (d : Disk) (l : Location) (d' : Disk) : Prop where
  absent : d.get? l = none
  updated : ∃ mode content, d.Updated l (some (.file mode content)) d'

section
variable {temp : Location}

theorem Gained.sameDirectories (h : d.Gained temp d') : d.SameDirectories d' := by
  obtain ⟨hnone, mode, content, hu⟩ := h
  exact hu.sameDirectories (by simp [hnone]) (by simp)

theorem Gained.get?_other (h : d.Gained temp d') {l : Location} (hl : l ≠ temp) :
    d'.get? l = d.get? l := by
  obtain ⟨-, mode, content, hu⟩ := h
  exact hu.get?_other hl

theorem Gained.step_iff (h : d.Gained temp d') {here there : Location} {s : String}
    (ht : there ≠ temp) : d'.step here s = .ok there ↔ d.step here s = .ok there := by
  rw [step_eq_ok_iff, step_eq_ok_iff, h.sameDirectories here, h.get?_other ht]

theorem Gained.follow_iff (h : d.Gained temp d') {segments : List String} {there : Location}
    (ht : there ≠ temp) : ∀ {here : Location},
      d'.follow here segments = .ok there ↔ d.follow here segments = .ok there := by
  have hnone : d.get? temp ≠ some .directory := by simp [h.absent]
  have hfile : d'.get? temp ≠ some .directory := fun hd => hnone ((h.sameDirectories temp).2 hd)
  induction segments with
  | nil => exact Iff.rfl
  | cons s segments ih =>
    intro here
    rw [follow_cons, follow_cons, Except.bind_eq_ok_iff, Except.bind_eq_ok_iff]
    refine exists_congr fun mid => ?_
    by_cases hmid : mid = temp
    · subst hmid
      exact ⟨fun hm => absurd (eq_of_follow hm.2 hfile) ht,
        fun hm => absurd (eq_of_follow hm.2 hnone) ht⟩
    · rw [h.step_iff hmid, ih]

theorem Gained.locate_iff (h : d.Gained temp d') {cwd l : Location} {path : String}
    (hl : l ≠ temp) : d'.locate cwd path = .ok l ↔ d.locate cwd path = .ok l := by
  rw [locate_eq_ok_iff, locate_eq_ok_iff]
  refine and_congr_right fun _ => or_congr_right (exists_congr fun r => and_congr_right fun _ => ?_)
  rw [h.follow_iff hl, h.get?_other hl]

/-- A path that does not end at the new file shows what it showed before. -/
theorem Gained.at?_eq (h : d.Gained temp d') {cwd : Location} {path : String}
    (hpath : d'.locate cwd path ≠ .ok temp) : d'.at? cwd path = d.at? cwd path := by
  ext e
  rw [at?_eq_some_iff, at?_eq_some_iff]
  refine exists_congr fun l => ?_
  by_cases hl : l = temp
  · subst hl
    simp [hpath, h.absent]
  · rw [h.locate_iff hl, h.get?_other hl]

/-- A path whose last name is not that of the temporary file for it does not end there. -/
theorem Gained.locate_ne {s : Site} {path : String} {dir : Location}
    (h : d.Gained (dir ++ [s.tempName]) d')
    (hdir : d.follow (startOf s.cwd (directory path.toList)) (names (directory path.toList)) =
      .ok dir)
    (hname : fileName? path.toList ≠ some s.tempName.toList) :
    d'.locate s.cwd path ≠ .ok (dir ++ [s.tempName]) := by
  have hfile : d'.get? (dir ++ [s.tempName]) ≠ some .directory := fun hd => by
    simpa [h.absent] using (h.sameDirectories _).2 hd
  intro hlocate
  obtain ⟨-, ⟨-, hnil⟩ | ⟨r, hr, hf, -⟩⟩ := locate_eq_ok_iff.1 hlocate
  · simp at hnil
  obtain ⟨hnames, hstart⟩ := ofPath?_eq_some hr
  rw [hstart, follow_concat] at hf
  obtain ⟨here, hf, hstep⟩ := Except.bind_eq_ok_iff.1 hf
  have hd' := directory_of_step hstep
  have hd := (h.sameDirectories here).2 hd'
  have hf := follow_of_sameDirectories h.sameDirectories.symm hf hd'
  by_cases hdot : r.last = "."
  · rw [hdot] at hstep
    rw [step_dot_eq_ok hstep] at hfile
    exact hfile hd'
  obtain rfl : dir = here := Except.ok.inj (hdir ▸ follow_directory hnames hdot hf hd)
  obtain ⟨-, ⟨hdot', -⟩ | ⟨-, hup⟩ | ⟨-, hdots, -, hend, -⟩⟩ := step_eq_ok_iff.1 hstep
  · exact hdot hdot'
  · have hlength := congrArg List.length hup
    simp at hlength
    omega
  · obtain ⟨-, hlast⟩ := List.append_inj' hend rfl
    rw [fileName?_eq_some hnames hdot hdots, (List.cons.inj hlast).1] at hname
    exact hname rfl

/-- A path shows what it showed before, for where it led to something it leads there still. -/
theorem Gained.at?_eq_of_namesApart {s : Site} {path : String} {dir : Location}
    (h : d.Gained (dir ++ [s.tempName]) d')
    (hdir : d.follow (startOf s.cwd (directory path.toList)) (names (directory path.toList)) =
      .ok dir)
    (hname : s.NamesApart d path) : d'.at? s.cwd path = d.at? s.cwd path := by
  refine h.at?_eq fun hlocate => ?_
  cases hat : d.at? s.cwd path with
  | none => exact h.locate_ne hdir (hname hat) hlocate
  | some e =>
    obtain ⟨l, hl, he⟩ := at?_eq_some_iff.1 hat
    have hne : l ≠ dir ++ [s.tempName] := by
      rintro rfl
      rw [h.absent] at he
      cases he
    rw [(h.locate_iff hne).2 hl] at hlocate
    exact hne (Except.ok.inj hlocate)

end

end Disk

end OperatorRules
