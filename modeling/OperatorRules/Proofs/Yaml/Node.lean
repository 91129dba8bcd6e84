import OperatorRules.Proofs.Yaml.Entry

/-!
# Trees told apart by their texts

A shape fixes where a tree has texts, entries, lists and fields. Trees of one shape that are
written alike are equal, wherever they stand in a larger tree: `determines` proves it by induction
on the shape, for what follows a colon and for what follows a dash at once.
-/

namespace OperatorRules.Yaml

/-- What kind of tree stands where. -/
inductive Shape where
  | text
  | entries
  | list (item : Shape)
  | record (field : String → Shape)

/-- A name that a field may have: letters only. -/
def IsFieldName (k : String) : Prop := k ≠ "" ∧ k.toList.all Char.isAlpha = true

/-- A tree of the given shape. -/
def Fits : Shape → Node → Prop
  | .text, n => ∃ s, n = .text s
  | .entries, n => ∃ l, n = .entries l
  | .list item, n => ∃ l, n = .list l ∧ ∀ m ∈ l, Fits item m
  | .record field, n => ∃ l, n = .fields l ∧ ∀ f ∈ l, IsFieldName f.1 ∧ Fits (field f.1) f.2

/-- What follows a field at a column: nothing, something indented less, or something at the column
that is no item of a list. -/
def Outside (column : Nat) (cs : List Char) : Prop :=
  Dedented column cs ∨ ∃ t, Visible t ∧ t.head? ≠ some '-' ∧ cs = spaces column ++ t

/-- Trees of the shape are determined by their texts behind a colon and behind a dash, and so is
what follows them. -/
structure Determines (σ : Shape) : Prop where
  afterColon : ∀ {column : Nat} {n m : Node} {r s : List Char}, Fits σ n → Fits σ m →
    Outside column r → Outside column s →
    n.afterColon column ++ r = m.afterColon column ++ s → n = m ∧ r = s
  afterDash : ∀ {column : Nat} {n m : Node} {r s : List Char}, Fits σ n → Fits σ m →
    Dedented (column + 2) r → Dedented (column + 2) s →
    n.afterDash (column + 2) ++ r = m.afterDash (column + 2) ++ s → n = m ∧ r = s

/-! ## What follows -/

theorem Dedented.mono {j k : Nat} {cs : List Char} (h : Dedented j cs) (hjk : j ≤ k) :
    Dedented k cs := by
  rcases h with h | ⟨i, t, hi, ht⟩
  · exact .inl h
  · exact .inr ⟨i, t, by omega, ht⟩

theorem Outside.dedented {column n : Nat} {cs : List Char} (h : Outside column cs)
    (hn : column < n) : Dedented n cs := by
  rcases h with h | ⟨t, ht, -, rfl⟩
  · exact h.mono (by omega)
  · exact .inr ⟨column, t, hn, ht, rfl⟩

theorem not_dedented_spaces_append {column : Nat} {t : List Char} (ht : Visible t) :
    ¬ Dedented column (spaces column ++ t) := by
  rintro (h | ⟨k, u, hk, hu, h⟩)
  · obtain ⟨c, t, rfl, -⟩ := ht
    simp at h
  · have hcolumn := (spaces_append_inj ht hu h).1
    omega

theorem not_outside_item {column : Nat} (t : List Char) :
    ¬ Outside column (spaces column ++ '-' :: t) := by
  have hvisible : Visible ('-' :: t) := ⟨'-', t, rfl, by decide⟩
  rintro (h | ⟨u, hu, hdash, h⟩)
  · exact not_dedented_spaces_append hvisible h
  · obtain ⟨-, rfl⟩ := spaces_append_inj hvisible hu h
    exact hdash rfl

/-! ## Entries and names of fields -/

/-- The lines of the entries of a mapping at a column. -/
def entriesLines (column : Nat) (l : List (String × String)) : List Char :=
  l.flatMap fun (k, v) => spaces column ++ entryLines column k v

theorem dedented_entriesLines {column : Nat} (l : List (String × String)) {r : List Char}
    (hr : Dedented column r) : Dedented (column + 2) (entriesLines column l ++ r) := by
  cases l with
  | nil => exact hr.mono (by omega)
  | cons e l =>
    obtain ⟨k, v⟩ := e
    refine .inr ⟨column, entryLines column k v ++ (entriesLines column l ++ r), by omega,
      ((startsScalar_entryLines column k v).append _).visible, ?_⟩
    simp [entriesLines]

theorem entriesLines_append_inj {column : Nat} {l l' : List (String × String)} {r s : List Char}
    (hr : Dedented column r) (hs : Dedented column s)
    (h : entriesLines column l ++ r = entriesLines column l' ++ s) : l = l' ∧ r = s := by
  have hend {l : List (String × String)} {k v : String} {r s : List Char} (hr : Dedented column r)
      (h : r = entriesLines column ((k, v) :: l) ++ s) : False := by
    have hvisible :=
      ((startsScalar_entryLines column k v).append (entriesLines column l ++ s)).visible
    have hsplit : entriesLines column ((k, v) :: l) ++ s =
        spaces column ++ (entryLines column k v ++ (entriesLines column l ++ s)) := by
      simp [entriesLines]
    rw [h, hsplit] at hr
    exact not_dedented_spaces_append hvisible hr
  induction l generalizing l' with
  | nil =>
    cases l' with
    | nil => exact ⟨rfl, h⟩
    | cons e l' => exact (hend hr h).elim
  | cons e l ih =>
    cases l' with
    | nil => exact (hend hs h.symm).elim
    | cons e' l' =>
      simp only [entriesLines, List.flatMap_cons, List.append_assoc,
        List.append_cancel_left_eq] at h
      obtain ⟨hk, hv, h⟩ := entryLines_append_inj (dedented_entriesLines l hr)
        (dedented_entriesLines l' hs) h
      obtain ⟨hl, hrs⟩ := ih h
      exact ⟨by rw [Prod.ext hk hv, hl], hrs⟩

theorem IsFieldName.exists_cons {k : String} (h : IsFieldName k) :
    ∃ c t, k.toList = c :: t ∧ c.isAlpha = true := by
  have hne : k.toList ≠ [] := fun e => h.1 (String.toList_inj.1 e)
  obtain ⟨c, t, e⟩ := List.exists_cons_of_ne_nil hne
  have hall := h.2
  rw [e, List.all_cons, Bool.and_eq_true] at hall
  exact ⟨c, t, e, hall.1⟩

theorem IsFieldName.visible {k : String} (h : IsFieldName k) (t : List Char) :
    Visible (k.toList ++ t) ∧ (k.toList ++ t).head? ≠ some '-' := by
  obtain ⟨c, u, e, hc⟩ := h.exists_cons
  rw [e]
  refine ⟨⟨c, u ++ t, rfl, Bool.eq_false_iff.2 fun hspace => ?_⟩, ?_⟩
  · simp only [isSpaceOrBreak, isBreak, Bool.or_eq_true, beq_iff_eq] at hspace
    rcases hspace with rfl | (((rfl | rfl) | rfl) | rfl) | rfl <;> cases hc
  · rintro h
    cases h
    cases hc

theorem IsFieldName.append_inj {k l : String} {r s : List Char} (hk : IsFieldName k)
    (hl : IsFieldName l) (h : k.toList ++ ':' :: r = l.toList ++ ':' :: s) : k = l ∧ r = s := by
  have hcolon {k : String} (hk : IsFieldName k) : ':' ∉ k.toList := fun hmem => by
    have hall := List.all_eq_true.1 hk.2 ':' hmem
    cases hall
  rcases List.append_eq_append_iff.1 h with ⟨z, hz, hrest⟩ | ⟨z, hz, hrest⟩
  · cases z with
    | nil =>
      cases hrest
      exact ⟨String.toList_inj.1 (by simpa using hz.symm), rfl⟩
    | cons c z =>
      cases hrest
      exact (hcolon hl (by simp [hz])).elim
  · cases z with
    | nil =>
      cases hrest
      exact ⟨String.toList_inj.1 (by simpa using hz), rfl⟩
    | cons c z =>
      cases hrest
      exact (hcolon hk (by simp [hz])).elim

/-! ## Lists and fields -/

section
variable {column : Nat} {r s : List Char}

theorem dedented_itemLines (ns : List Node) (hr : Outside column r) :
    Dedented (column + 2) (Node.itemLines column ns ++ r) := by
  cases ns with
  | nil => exact hr.dedented (by omega)
  | cons n ns =>
    refine .inr ⟨column, '-' :: ' ' :: (n.afterDash (column + 2) ++ Node.itemLines column ns ++ r),
      by omega, ⟨'-', _, rfl, by decide⟩, ?_⟩
    simp [Node.itemLines]

theorem itemLines_append_inj {item : Shape} (h : Determines item) {ns ms : List Node}
    (hns : ∀ n ∈ ns, Fits item n) (hms : ∀ m ∈ ms, Fits item m) (hr : Outside column r)
    (hs : Outside column s) (heq : Node.itemLines column ns ++ r = Node.itemLines column ms ++ s) :
    ns = ms ∧ r = s := by
  have hend {n : Node} {ns : List Node} {r s : List Char} (hr : Outside column r)
      (h : r = Node.itemLines column (n :: ns) ++ s) : False := by
    have hsplit : Node.itemLines column (n :: ns) ++ s = spaces column ++
        '-' :: ' ' :: (n.afterDash (column + 2) ++ Node.itemLines column ns ++ s) := by
      simp [Node.itemLines]
    rw [h, hsplit] at hr
    exact not_outside_item _ hr
  induction ns generalizing ms with
  | nil =>
    cases ms with
    | nil => exact ⟨rfl, heq⟩
    | cons m ms => exact (hend hr heq).elim
  | cons n ns ih =>
    cases ms with
    | nil => exact (hend hs heq.symm).elim
    | cons m ms =>
      simp only [Node.itemLines, List.append_assoc, List.append_cancel_left_eq] at heq
      obtain ⟨hnm, htail⟩ := h.afterDash (hns n (List.mem_cons_self ..))
        (hms m (List.mem_cons_self ..)) (dedented_itemLines ns hr) (dedented_itemLines ms hs) heq
      obtain ⟨hitems, hrs⟩ := ih (fun n hn => hns n (List.mem_cons_of_mem _ hn))
        (fun m hm => hms m (List.mem_cons_of_mem _ hm)) htail
      exact ⟨by rw [hnm, hitems], hrs⟩

/-- The fields of a tree of a record shape. -/
def FieldsFit (field : String → Shape) (l : List (String × Node)) : Prop :=
  ∀ f ∈ l, IsFieldName f.1 ∧ Fits (field f.1) f.2

theorem outside_fieldLines {field : String → Shape} {l : List (String × Node)}
    (hl : FieldsFit field l) (hr : Dedented column r) :
    Outside column (Node.fieldLines column l ++ r) := by
  cases l with
  | nil => exact .inl hr
  | cons f l =>
    obtain ⟨k, n⟩ := f
    have hname := (hl _ (List.mem_cons_self ..)).1
    obtain ⟨hvisible, hdash⟩ :=
      hname.visible (':' :: (n.afterColon column ++ Node.fieldLines column l ++ r))
    refine .inr ⟨_, hvisible, hdash, ?_⟩
    simp [Node.fieldLines]

theorem fieldLines_append_inj {field : String → Shape} (h : ∀ k, Determines (field k))
    {l l' : List (String × Node)} (hl : FieldsFit field l) (hl' : FieldsFit field l')
    (hr : Dedented column r) (hs : Dedented column s)
    (heq : Node.fieldLines column l ++ r = Node.fieldLines column l' ++ s) : l = l' ∧ r = s := by
  have hend {f : String × Node} {l : List (String × Node)} {r s : List Char}
      (hl : FieldsFit field (f :: l)) (hr : Dedented column r)
      (h : r = Node.fieldLines column (f :: l) ++ s) : False := by
    obtain ⟨k, n⟩ := f
    have hname := (hl _ (List.mem_cons_self ..)).1
    have hvisible :=
      (hname.visible (':' :: (n.afterColon column ++ Node.fieldLines column l ++ s))).1
    have hsplit : Node.fieldLines column ((k, n) :: l) ++ s = spaces column ++
        (k.toList ++ ':' :: (n.afterColon column ++ Node.fieldLines column l ++ s)) := by
      simp [Node.fieldLines]
    rw [h, hsplit] at hr
    exact not_dedented_spaces_append hvisible hr
  induction l generalizing l' with
  | nil =>
    cases l' with
    | nil => exact ⟨rfl, heq⟩
    | cons f l' => exact (hend hl' hr heq).elim
  | cons f l ih =>
    cases l' with
    | nil => exact (hend hl hs heq.symm).elim
    | cons f' l' =>
      obtain ⟨k, n⟩ := f
      obtain ⟨k', n'⟩ := f'
      obtain ⟨hname, hfits⟩ := hl _ (List.mem_cons_self ..)
      obtain ⟨hname', hfits'⟩ := hl' _ (List.mem_cons_self ..)
      have htail : FieldsFit field l := fun f hf => hl f (List.mem_cons_of_mem _ hf)
      have htail' : FieldsFit field l' := fun f hf => hl' f (List.mem_cons_of_mem _ hf)
      simp only [Node.fieldLines, List.append_assoc, List.cons_append,
        List.append_cancel_left_eq] at heq
      obtain ⟨hk, hvalue⟩ := hname.append_inj hname' heq
      dsimp only at hk hfits hfits'
      subst hk
      obtain ⟨hn, hrest⟩ := (h k).afterColon hfits hfits' (outside_fieldLines htail hr)
        (outside_fieldLines htail' hs) hvalue
      obtain ⟨hmembers, hrs⟩ := ih htail htail' hrest
      exact ⟨by rw [hn, hmembers], hrs⟩

end

/-! ## Trees -/

theorem startsScalar_ne_braces {cs r s : List Char} (h : StartsScalar cs) :
    cs ++ r ≠ '\x7b' :: s := by
  obtain ⟨c, t, rfl, -, hbrace, -⟩ := h
  intro heq
  exact hbrace (List.cons.inj heq).1

theorem determines_text : Determines .text where
  afterColon := by
    rintro column _ _ r s ⟨v, rfl⟩ ⟨w, rfl⟩ hr hs h
    simp only [Node.afterColon, List.cons_append, List.cons.injEq, true_and] at h
    obtain ⟨hvw, hrs⟩ := scalarLines_append_inj (hr.dedented (by omega)) (hs.dedented (by omega)) h
    exact ⟨by rw [String.toList_inj.1 hvw], hrs⟩
  afterDash := by
    rintro column _ _ r s ⟨v, rfl⟩ ⟨w, rfl⟩ hr hs h
    simp only [Node.afterDash] at h
    obtain ⟨hvw, hrs⟩ := scalarLines_append_inj hr hs h
    exact ⟨by rw [String.toList_inj.1 hvw], hrs⟩

theorem spaces_afterDash_entries (column : Nat) (e : String × String) (l : List (String × String)) :
    spaces column ++ (Node.entries (e :: l)).afterDash column = entriesLines column (e :: l) := by
  obtain ⟨k, v⟩ := e
  simp [Node.afterDash, entriesLines]

theorem determines_entries : Determines .entries where
  afterColon := by
    rintro column _ _ r s ⟨l, rfl⟩ ⟨l', rfl⟩ hr hs h
    rcases l with _ | ⟨e, l⟩ <;> rcases l' with _ | ⟨e', l'⟩
    · exact ⟨rfl, List.append_cancel_left h⟩
    · cases h
    · cases h
    · obtain ⟨hl, hrs⟩ := entriesLines_append_inj (hr.dedented (by omega))
        (hs.dedented (by omega)) (List.cons.inj h).2
      exact ⟨by rw [hl], hrs⟩
  afterDash := by
    rintro column _ _ r s ⟨l, rfl⟩ ⟨l', rfl⟩ hr hs h
    have hstarts (e : String × String) (l : List (String × String)) :
        StartsScalar ((Node.entries (e :: l)).afterDash (column + 2)) :=
      (startsScalar_entryLines ..).append _
    rcases l with _ | ⟨e, l⟩ <;> rcases l' with _ | ⟨e', l'⟩
    · exact ⟨rfl, List.append_cancel_left h⟩
    · exact (startsScalar_ne_braces (hstarts e' l') h.symm).elim
    · exact (startsScalar_ne_braces (hstarts e l) h).elim
    · have hlines := congrArg (spaces (column + 2) ++ ·) h
      simp only [← List.append_assoc, spaces_afterDash_entries] at hlines
      obtain ⟨hl, hrs⟩ := entriesLines_append_inj hr hs hlines
      exact ⟨by rw [hl], hrs⟩

theorem spaces_afterDash_list (column : Nat) (n : Node) (ns : List Node) :
    spaces column ++ (Node.list (n :: ns)).afterDash column = Node.itemLines column (n :: ns) := by
  simp [Node.afterDash, Node.itemLines]

theorem determines_list {item : Shape} (hitem : Determines item) : Determines (.list item) where
  afterColon := by
    rintro column _ _ r s ⟨ns, rfl, hns⟩ ⟨ms, rfl, hms⟩ hr hs h
    rcases ns with _ | ⟨n, ns⟩ <;> rcases ms with _ | ⟨m, ms⟩
    · exact ⟨rfl, List.append_cancel_left h⟩
    · cases h
    · cases h
    · obtain ⟨hitems, hrs⟩ := itemLines_append_inj hitem hns hms hr hs (List.cons.inj h).2
      exact ⟨by rw [hitems], hrs⟩
  afterDash := by
    rintro column _ _ r s ⟨ns, rfl, hns⟩ ⟨ms, rfl, hms⟩ hr hs h
    rcases ns with _ | ⟨n, ns⟩ <;> rcases ms with _ | ⟨m, ms⟩
    · exact ⟨rfl, List.append_cancel_left h⟩
    · cases h
    · cases h
    · have hlines := congrArg (spaces (column + 2) ++ ·) h
      simp only [← List.append_assoc, spaces_afterDash_list] at hlines
      obtain ⟨hitems, hrs⟩ := itemLines_append_inj hitem hns hms (.inl hr) (.inl hs) hlines
      exact ⟨by rw [hitems], hrs⟩

theorem spaces_afterDash_fields (column : Nat) (f : String × Node) (l : List (String × Node)) :
    spaces column ++ (Node.fields (f :: l)).afterDash column = Node.fieldLines column (f :: l) := by
  obtain ⟨k, n⟩ := f
  simp [Node.afterDash, Node.fieldLines]

theorem determines_record {field : String → Shape} (hfield : ∀ k, Determines (field k)) :
    Determines (.record field) where
  afterColon := by
    rintro column _ _ r s ⟨l, rfl, hl⟩ ⟨l', rfl, hl'⟩ hr hs h
    rcases l with _ | ⟨f, l⟩ <;> rcases l' with _ | ⟨f', l'⟩
    · exact ⟨rfl, List.append_cancel_left h⟩
    · cases h
    · cases h
    · obtain ⟨hmembers, hrs⟩ := fieldLines_append_inj hfield hl hl' (hr.dedented (by omega))
        (hs.dedented (by omega)) (List.cons.inj h).2
      exact ⟨by rw [hmembers], hrs⟩
  afterDash := by
    rintro column _ _ r s ⟨l, rfl, hl⟩ ⟨l', rfl, hl'⟩ hr hs h
    have hne {f : String × Node} {l : List (String × Node)} {r t : List Char}
        (hl : FieldsFit field (f :: l)) :
        (Node.fields (f :: l)).afterDash (column + 2) ++ r ≠ '\x7b' :: t := by
      obtain ⟨k, n⟩ := f
      obtain ⟨c, u, hk, hc⟩ := (hl _ (List.mem_cons_self ..)).1.exists_cons
      dsimp only at hk
      intro heq
      simp only [Node.afterDash, hk, List.cons_append, List.cons.injEq] at heq
      rw [heq.1] at hc
      cases hc
    rcases l with _ | ⟨f, l⟩ <;> rcases l' with _ | ⟨f', l'⟩
    · exact ⟨rfl, List.append_cancel_left h⟩
    · exact (hne hl' h.symm).elim
    · exact (hne hl h).elim
    · have hlines := congrArg (spaces (column + 2) ++ ·) h
      simp only [← List.append_assoc, spaces_afterDash_fields] at hlines
      obtain ⟨hmembers, hrs⟩ := fieldLines_append_inj hfield hl hl' hr hs hlines
      exact ⟨by rw [hmembers], hrs⟩

/-- Trees of one shape that are written alike are equal. -/
theorem determines (σ : Shape) : Determines σ := by
  induction σ with
  | text => exact determines_text
  | entries => exact determines_entries
  | list item ih => exact determines_list ih
  | record field ih => exact determines_record ih

end OperatorRules.Yaml
