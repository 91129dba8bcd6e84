import Mathlib.Data.List.DropRight
import OperatorRules.Disk.Path

/-!
# The names in a path

What a disk makes of a path are its names: the segments between the slashes that are not empty.
Joining paths puts their names together (`names_join`). The directory that a path tells has the
names that stand before the last, up to dots at their end (`names_directory`), and `fileName?` is
that last name (`fileName?_eq_some`).
-/

namespace OperatorRules.Path

/-! ## Segments -/

theorem splitSlash_ne_nil (cs : List Char) : splitSlash cs ≠ [] := by
  cases cs with
  | nil => simp [splitSlash]
  | cons c cs =>
    rw [splitSlash]
    split
    · simp
    · split <;> simp

theorem splitSlash_slash (cs : List Char) : splitSlash ('/' :: cs) = [] :: splitSlash cs := by
  rw [splitSlash]
  split
  · next h => exact absurd h (splitSlash_ne_nil cs)
  · next h => simp [h]

theorem splitSlash_cons {c : Char} (hc : c ≠ '/') {cs s : List Char} {segments : List (List Char)}
    (h : splitSlash cs = s :: segments) : splitSlash (c :: cs) = (c :: s) :: segments := by
  rw [splitSlash, h]
  simp [hc]

theorem splitSlash_append_slash (cs ds : List Char) :
    splitSlash (cs ++ '/' :: ds) = splitSlash cs ++ splitSlash ds := by
  induction cs with
  | nil => exact splitSlash_slash ds
  | cons c cs ih =>
    obtain ⟨s, segments, hs⟩ := List.exists_cons_of_ne_nil (splitSlash_ne_nil cs)
    have hcs : splitSlash (cs ++ '/' :: ds) = s :: (segments ++ splitSlash ds) := by
      rw [ih, hs, List.cons_append]
    by_cases hc : c = '/'
    · subst hc
      rw [List.cons_append, splitSlash_slash, splitSlash_slash, ih, List.cons_append]
    · rw [List.cons_append, splitSlash_cons hc hcs, splitSlash_cons hc hs, List.cons_append]

theorem splitSlash_of_noSlash {cs : List Char} (h : '/' ∉ cs) : splitSlash cs = [cs] := by
  induction cs with
  | nil => rfl
  | cons c cs ih =>
    have hc : c ≠ '/' := fun e => h (e ▸ List.mem_cons_self ..)
    exact splitSlash_cons hc (ih fun hm => h (List.mem_cons_of_mem _ hm))

theorem noSlash_of_mem_splitSlash {cs s : List Char} (hs : s ∈ splitSlash cs) : '/' ∉ s := by
  induction cs generalizing s with
  | nil => simp_all [splitSlash]
  | cons c cs ih =>
    obtain ⟨s', segments, h⟩ := List.exists_cons_of_ne_nil (splitSlash_ne_nil cs)
    by_cases hc : c = '/'
    · subst hc
      rw [splitSlash_slash] at hs
      rcases List.mem_cons.1 hs with rfl | hs
      · simp
      · exact ih hs
    · rw [splitSlash_cons hc h] at hs
      rcases List.mem_cons.1 hs with rfl | hs
      · have hs' := ih (h ▸ List.mem_cons_self ..)
        simp [Ne.symm hc, hs']
      · exact ih (h ▸ List.mem_cons_of_mem _ hs)

theorem splitSlash_joinSlash {segments : List (List Char)} (hne : segments ≠ [])
    (h : ∀ s ∈ segments, '/' ∉ s) : splitSlash (joinSlash segments) = segments := by
  induction segments with
  | nil => exact absurd rfl hne
  | cons s segments ih =>
    have hs := splitSlash_of_noSlash (h s (List.mem_cons_self ..))
    cases segments with
    | nil => exact hs
    | cons t segments =>
      rw [joinSlash, splitSlash_append_slash, hs,
        ih (List.cons_ne_nil t segments) fun s hs => h s (List.mem_cons_of_mem _ hs)]
      · rfl
      · simp

/-! ## Names -/

/-- The segments that are not empty. -/
def namesOf (segments : List (List Char)) : List String :=
  (segments.map String.ofList).filter (· ≠ "")

/-- The names in a path, with the dots in it. -/
def names (cs : List Char) : List String := namesOf (splitSlash cs)

@[simp] theorem namesOf_nil : namesOf [] = [] := rfl

@[simp] theorem namesOf_append (ss ts : List (List Char)) :
    namesOf (ss ++ ts) = namesOf ss ++ namesOf ts := by
  simp [namesOf]

@[simp] theorem namesOf_empty_cons (ss : List (List Char)) : namesOf ([] :: ss) = namesOf ss := by
  simp [namesOf]

theorem namesOf_singleton {s : List Char} (hs : s ≠ []) : namesOf [s] = [String.ofList s] := by
  have hne : String.ofList s ≠ "" := fun e => hs (by simpa using congrArg String.toList e)
  simp [namesOf, hne]

theorem namesOf_map_toList {l : List String} (h : ∀ s ∈ l, s ≠ "") :
    namesOf (l.map String.toList) = l := by
  rw [namesOf, List.map_map]
  have hid : String.ofList ∘ String.toList = id := by funext s; simp
  rw [hid, List.map_id, List.filter_eq_self]
  simpa using h

@[simp] theorem names_nil : names [] = [] := rfl

theorem names_append_slash (cs ds : List Char) :
    names (cs ++ '/' :: ds) = names cs ++ names ds := by
  rw [names, splitSlash_append_slash, namesOf_append]
  rfl

@[simp] theorem names_slash (cs : List Char) : names ('/' :: cs) = names cs :=
  names_append_slash [] cs

theorem names_joinSlash {segments : List (List Char)} (h : ∀ s ∈ segments, '/' ∉ s) :
    names (joinSlash segments) = namesOf segments := by
  cases segments with
  | nil => rfl
  | cons s segments => rw [names, splitSlash_joinSlash (List.cons_ne_nil s segments) h]

theorem names_join (base path : List Char) :
    names (join base path) =
      (if isAbsolute path then [] else names base) ++ names path := by
  unfold join
  split
  · rfl
  · split
    · next h =>
      rcases List.eq_nil_or_concat' base with rfl | ⟨base, c, rfl⟩
      · rfl
      · obtain rfl : c = '/' := by simpa using h
        rw [List.append_assoc, List.singleton_append, names_append_slash, names_append_slash,
          names_nil, List.append_nil]
    · exact names_append_slash base path

theorem exists_join_eq_append (base path : List Char) :
    ∃ before, join base path = before ++ path := by
  unfold join
  split
  · exact ⟨[], rfl⟩
  · split
    · exact ⟨base, rfl⟩
    · exact ⟨base ++ ['/'], by simp⟩

theorem exists_join_eq_of_relative (base : List Char) {path : List Char}
    (h : isAbsolute path = false) : ∃ after, join base path = base ++ after := by
  unfold join
  rw [h]
  simp only [Bool.false_eq_true, ↓reduceIte]
  split
  · exact ⟨path, rfl⟩
  · exact ⟨'/' :: path, rfl⟩

/-- Only slashes are without a name. -/
theorem isAbsolute_of_names_eq_nil {cs : List Char} (hne : cs ≠ []) (h : names cs = []) :
    isAbsolute cs = true := by
  obtain ⟨c, cs, rfl⟩ := List.exists_cons_of_ne_nil hne
  by_cases hc : c = '/'
  · subst hc
    rfl
  · obtain ⟨s, segments, hs⟩ := List.exists_cons_of_ne_nil (splitSlash_ne_nil cs)
    rw [names, splitSlash_cons hc hs, ← List.singleton_append, namesOf_append,
      namesOf_singleton (List.cons_ne_nil c s)] at h
    simp at h

/-! ## Idle segments -/

theorem trimIdle_append (segments : List (List Char)) :
    ∃ idle, segments = trimIdle segments ++ idle ∧ ∀ s ∈ idle, isIdle s := by
  refine ⟨(segments.reverse.takeWhile isIdle).reverse, ?_, fun s hs => ?_⟩
  · rw [trimIdle, ← List.reverse_append, List.takeWhile_append_dropWhile, List.reverse_reverse]
  · exact List.mem_takeWhile_imp (List.mem_reverse.1 hs)

theorem not_isIdle_of_trimIdle {segments init : List (List Char)} {s : List Char}
    (h : trimIdle segments = init ++ [s]) : isIdle s = false := by
  have hne : segments.rdropWhile isIdle ≠ [] := by
    change trimIdle segments ≠ []
    simp [h]
  have hlast := List.rdropWhile_last_not isIdle segments hne
  have hs : (segments.rdropWhile isIdle).getLast hne = s := by
    change (trimIdle segments).getLast _ = s
    simp [h]
  simpa [hs] using hlast

theorem trimIdle_empty_cons (segments : List (List Char)) :
    trimIdle ([] :: segments) = if trimIdle segments = [] then [] else [] :: trimIdle segments := by
  have hdrop : ([[]] : List (List Char)).dropWhile isIdle = [] := rfl
  rw [trimIdle, List.reverse_cons, List.dropWhile_append, hdrop]
  by_cases h : segments.reverse.dropWhile isIdle = [] <;> simp [trimIdle, h]

theorem ne_nil_of_not_isIdle {s : List Char} (h : isIdle s = false) : s ≠ [] := by
  rintro rfl
  cases h

theorem namesOf_idle {idle : List (List Char)} (h : ∀ s ∈ idle, isIdle s) :
    ∃ k, namesOf idle = List.replicate k "." := by
  induction idle with
  | nil => exact ⟨0, rfl⟩
  | cons s idle ih =>
    obtain ⟨k, hk⟩ := ih fun s hs => h s (List.mem_cons_of_mem _ hs)
    have hs : s = [] ∨ s = ['.'] := by simpa [isIdle] using h s (List.mem_cons_self ..)
    rcases hs with rfl | rfl
    · exact ⟨k, by rw [namesOf_empty_cons, hk]⟩
    · refine ⟨k + 1, ?_⟩
      rw [← List.singleton_append, namesOf_append, hk, namesOf_singleton (by simp)]
      rfl

theorem namesOf_trimIdle (segments : List (List Char)) :
    ∃ k, namesOf segments = namesOf (trimIdle segments) ++ List.replicate k "." := by
  obtain ⟨idle, h, hidle⟩ := trimIdle_append segments
  obtain ⟨k, hk⟩ := namesOf_idle hidle
  refine ⟨k, ?_⟩
  rw [← hk, ← namesOf_append, ← h]

/-- The last name, unless it is a dot, is the last segment that is not idle. -/
theorem trimIdle_of_namesOf {segments : List (List Char)} {inner : List String} {last : String}
    (h : namesOf segments = inner ++ [last]) (hlast : last ≠ ".") :
    ∃ init, trimIdle segments = init ++ [last.toList] ∧ namesOf init = inner := by
  obtain ⟨k, hk⟩ := namesOf_trimIdle segments
  have hk0 : k = 0 := by
    cases k with
    | zero => rfl
    | succ k =>
      rw [h, List.replicate_succ', ← List.append_assoc] at hk
      exact absurd (by simpa using (List.append_inj' hk rfl).2) hlast
  subst hk0
  rw [h, List.replicate_zero, List.append_nil] at hk
  rcases List.eq_nil_or_concat' (trimIdle segments) with hnil | ⟨init, s, hs⟩
  · rw [hnil] at hk
    simp at hk
  · have hne := ne_nil_of_not_isIdle (not_isIdle_of_trimIdle hs)
    rw [hs, namesOf_append, namesOf_singleton hne] at hk
    obtain ⟨hinner, hlast⟩ := List.append_inj' hk rfl
    refine ⟨init, ?_, hinner.symm⟩
    rw [hs, List.cons.inj hlast |>.1, String.toList_ofList]

/-! ## The directory of a path -/

theorem fileName?_eq_some {cs : List Char} {inner : List String} {last : String}
    (h : names cs = inner ++ [last]) (hdot : last ≠ ".") (hdots : last ≠ "..") :
    fileName? cs = some last.toList := by
  obtain ⟨init, hinit, -⟩ := trimIdle_of_namesOf h hdot
  have hne : last.toList ≠ ['.', '.'] := fun e => hdots (String.toList_inj.1 e)
  rw [fileName?, hinit]
  simp [hne]

theorem directory_ne_nil (cs : List Char) : directory cs ≠ [] := by
  unfold directory
  split <;> simp

theorem directory_eq_dot {cs : List Char} (h : ∀ parent, parent? cs = some parent → parent = []) :
    directory cs = ['.'] := by
  unfold directory
  split
  · next hparent => cases h _ hparent
  · rfl

/-- A path is its start and its body; a dot may only follow the start, and a path that does not
begin at the root has a body that does not either. -/
theorem splitStart_cases (cs : List Char) :
    (∃ body, cs = '/' :: body ∧ splitStart cs = (['/'], body)) ∨
      (cs = ['.'] ∧ splitStart cs = (['.'], [])) ∨
      (∃ body, cs = '.' :: '/' :: body ∧ splitStart cs = (['.'], '/' :: body)) ∨
      (isAbsolute cs = false ∧ splitStart cs = ([], cs)) := by
  unfold splitStart
  split
  · exact .inl ⟨_, rfl, rfl⟩
  · exact .inr (.inl ⟨rfl, rfl⟩)
  · exact .inr (.inr (.inl ⟨_, rfl, rfl⟩))
  · next hslash _ _ =>
    refine .inr (.inr (.inr ⟨?_, rfl⟩))
    cases cs with
    | nil => rfl
    | cons c cs =>
      have hc : c ≠ '/' := fun e => hslash cs (by rw [e])
      simpa [isAbsolute] using hc

theorem parent?_of_trimIdle {cs start body : List Char} {init : List (List Char)} {s : List Char}
    (hstart : splitStart cs = (start, body)) (h : trimIdle (splitSlash body) = init ++ [s]) :
    parent? cs = some (start ++ joinSlash (trimIdle init)) := by
  rw [parent?, hstart]
  simp only [h]
  split
  · next hnil => simp at hnil
  · rw [List.dropLast_concat]

theorem noSlash_of_mem_trimIdle {cs s : List Char} {init : List (List Char)}
    (h : trimIdle (splitSlash cs) = init ++ [s]) : ∀ t ∈ trimIdle init, '/' ∉ t := by
  intro t ht
  obtain ⟨idle, hinit, -⟩ := trimIdle_append init
  obtain ⟨idle', hcs, -⟩ := trimIdle_append (splitSlash cs)
  have hmem : t ∈ splitSlash cs := by
    rw [hcs, h, hinit]
    simp [ht]
  exact noSlash_of_mem_splitSlash hmem

/-- The first segments of a path that does not begin at the root do not begin there either. -/
theorem isAbsolute_joinSlash {cs : List Char} (habs : isAbsolute cs = false)
    {ss ts : List (List Char)} (h : splitSlash cs = ss ++ ts) :
    isAbsolute (joinSlash ss) = false := by
  cases ss with
  | nil => rfl
  | cons s ss =>
    cases cs with
    | nil =>
      obtain ⟨rfl, hnil⟩ := List.cons.inj h
      rw [(List.append_eq_nil_iff.1 hnil.symm).1]
      rfl
    | cons c cs =>
      have hc : c ≠ '/' := by simpa [isAbsolute] using habs
      obtain ⟨s', segments, hs⟩ := List.exists_cons_of_ne_nil (splitSlash_ne_nil cs)
      rw [splitSlash_cons hc hs] at h
      obtain ⟨rfl, -⟩ := List.cons.inj h
      cases ss <;> simpa [isAbsolute, joinSlash] using hc

/-- `inner` are the names of the directory of a path, and dots after them; where there is no such
name, the directory is the current one. -/
def NamesDirectory (cs : List Char) (inner : List String) : Prop :=
  isAbsolute (directory cs) = isAbsolute cs ∧
    ∃ k, inner = names (directory cs) ++ List.replicate k "." ∨
      directory cs = ['.'] ∧ inner = List.replicate k "."

variable {inner : List String} {last : String}

theorem namesDirectory_root {body : List Char}
    (hs : splitStart ('/' :: body) = (['/'], body))
    (h : names ('/' :: body) = inner ++ [last]) (hlast : last ≠ ".") :
    NamesDirectory ('/' :: body) inner := by
  rw [names_slash] at h
  obtain ⟨init, hinit, rfl⟩ := trimIdle_of_namesOf h hlast
  obtain ⟨k, hk⟩ := namesOf_trimIdle init
  have hdir : directory ('/' :: body) = '/' :: joinSlash (trimIdle init) := by
    rw [directory, parent?_of_trimIdle hs hinit]
    rfl
  refine ⟨by rw [hdir]; rfl, k, .inl ?_⟩
  rw [hdir, names_slash, names_joinSlash (noSlash_of_mem_trimIdle hinit), hk]

theorem namesDirectory_dotSlash {body : List Char}
    (hs : splitStart ('.' :: '/' :: body) = (['.'], '/' :: body))
    (h : names ('.' :: '/' :: body) = inner ++ [last]) (hlast : last ≠ ".") :
    NamesDirectory ('.' :: '/' :: body) inner := by
  have hbody : names ('.' :: '/' :: body) = "." :: names body := names_append_slash ['.'] body
  rcases List.eq_nil_or_concat' (names body) with hnil | ⟨inner', last', hlast'⟩
  · rw [hbody, hnil] at h
    have hdot : [] ++ ["."] = inner ++ [last] := h
    exact absurd (by simpa using (List.append_inj' hdot rfl).2.symm) hlast
  rw [hbody, hlast', ← List.cons_append] at h
  obtain ⟨rfl, hlasts⟩ := List.append_inj' h rfl
  obtain rfl : last' = last := (List.cons.inj hlasts).1
  obtain ⟨init, hinit, rfl⟩ := trimIdle_of_namesOf hlast' hlast
  obtain ⟨k, hk⟩ := namesOf_trimIdle init
  have hsplit : trimIdle (splitSlash ('/' :: body)) = ([] :: init) ++ [last'.toList] := by
    rw [splitSlash_slash, trimIdle_empty_cons, hinit]
    simp
  have hdir : directory ('.' :: '/' :: body) = '.' :: joinSlash (trimIdle ([] :: init)) := by
    rw [directory, parent?_of_trimIdle hs hsplit]
    rfl
  have hnames : names (directory ('.' :: '/' :: body)) = "." :: namesOf (trimIdle init) := by
    rw [hdir, trimIdle_empty_cons]
    split
    · next hnil => rw [hnil]; rfl
    · next hne =>
      obtain ⟨t, segments, ht⟩ := List.exists_cons_of_ne_nil hne
      have hjoin : joinSlash ([] :: trimIdle init) = '/' :: joinSlash (trimIdle init) := by
        rw [ht]
        rfl
      rw [hjoin, ← names_joinSlash (noSlash_of_mem_trimIdle hinit)]
      exact names_append_slash ['.'] _
  exact ⟨by rw [hdir]; rfl, k, .inl (by rw [hnames, hk, List.cons_append])⟩

theorem namesDirectory_relative {cs : List Char} (habs : isAbsolute cs = false)
    (hs : splitStart cs = ([], cs)) (h : names cs = inner ++ [last]) (hlast : last ≠ ".") :
    NamesDirectory cs inner := by
  obtain ⟨init, hinit, rfl⟩ := trimIdle_of_namesOf h hlast
  obtain ⟨k, hk⟩ := namesOf_trimIdle init
  have hparent : parent? cs = some (joinSlash (trimIdle init)) := parent?_of_trimIdle hs hinit
  have hjoin := names_joinSlash (noSlash_of_mem_trimIdle hinit)
  cases hdir : joinSlash (trimIdle init) with
  | nil =>
    have hcurrent : directory cs = ['.'] := by rw [directory, hparent, hdir]
    refine ⟨by rw [hcurrent, habs]; rfl, k, .inr ⟨hcurrent, ?_⟩⟩
    rw [hdir, names_nil] at hjoin
    rw [hk, ← hjoin, List.nil_append]
  | cons c ds =>
    have hsome : directory cs = c :: ds := by rw [directory, hparent, hdir]
    refine ⟨?_, k, .inl (by rw [hsome, ← hdir, hjoin, hk])⟩
    obtain ⟨idle, hinit', -⟩ := trimIdle_append init
    obtain ⟨idle', hcs, -⟩ := trimIdle_append (splitSlash cs)
    rw [hinit, hinit', List.append_assoc, List.append_assoc] at hcs
    rw [hsome, habs, ← hdir]
    exact isAbsolute_joinSlash habs hcs

/-- Before the last name of a path stand the names of its directory. -/
theorem names_directory {cs : List Char} (h : names cs = inner ++ [last]) (hlast : last ≠ ".") :
    NamesDirectory cs inner := by
  rcases splitStart_cases cs with ⟨body, rfl, hs⟩ | ⟨rfl, hs⟩ | ⟨body, rfl, hs⟩ | ⟨habs, hs⟩
  · exact namesDirectory_root hs h hlast
  · have hdot : [] ++ ["."] = inner ++ [last] := h
    exact absurd (by simpa using (List.append_inj' hdot rfl).2.symm) hlast
  · exact namesDirectory_dotSlash hs h hlast
  · exact namesDirectory_relative habs hs h hlast

end OperatorRules.Path
