import OperatorRules.Proofs.Yaml.Pieces

/-!
# Lines of a written tree

Wherever a tree stands in a larger one, its lines after the first are empty or indented
(`hangs_of_plainlyNamed`). So no text in it has a line that starts in the first column: those lines
of a mapping in the first column are the first lines of its fields, one for each
(`outerLines_fieldLines`).
-/

namespace OperatorRules.Yaml

/-! ## Rows -/

/-- Any number of complete lines, each of them empty or indented by `n`. -/
structure Rows (n : Nat) (cs : List Char) : Prop where
  start : LineStart n cs
  hanging : Hanging n cs
  complete : endsFresh true cs = true

section
variable {m n : Nat} {x y : List Char}

theorem LineStart.mono (h : LineStart n x) (hmn : m ≤ n) : LineStart m x := by
  refine h.imp_right fun h => h.imp_right fun h => ?_
  obtain ⟨k, rfl⟩ := Nat.le.dest hmn
  rw [spaces_add] at h
  exact (List.prefix_append ..).trans h

theorem Hanging.mono (h : Hanging n x) (hmn : m ≤ n) : Hanging m x := by
  induction x with
  | nil => trivial
  | cons c x ih => exact ⟨fun hc => (h.1 hc).mono hmn, ih h.2⟩

theorem Block.mono (h : Block n x) (hmn : m ≤ n) : Block m x := ⟨h.hanging.mono hmn, h.complete⟩

theorem endsFresh_append (fresh : Bool) (x y : List Char) :
    endsFresh fresh (x ++ y) = endsFresh (endsFresh fresh x) y := by
  induction x generalizing fresh with
  | nil => rfl
  | cons c x ih => rw [List.cons_append, endsFresh_cons, ih, endsFresh_cons]

theorem Block.complete_of (h : Block n x) (fresh : Bool) : endsFresh fresh x = true := by
  have hcomplete := h.complete
  cases x with
  | nil => cases hcomplete
  | cons c x => rwa [endsFresh_cons] at hcomplete ⊢

theorem Rows.nil : Rows n [] := ⟨.inl rfl, trivial, rfl⟩

theorem Rows.append (hx : Rows n x) (hy : Rows n y) : Rows n (x ++ y) where
  start := by
    by_cases hnil : x = []
    · rw [hnil]
      exact hy.start
    · exact hx.start.append hnil
  hanging := hx.hanging.append hy.hanging fun _ => hy.start
  complete := by rw [endsFresh_append, hx.complete, hy.complete]

/-- A block and rows below it are a block. -/
theorem Block.append (hx : Block n x) (hy : Rows n y) : Block n (x ++ y) where
  hanging := hx.hanging.append hy.hanging fun _ => hy.start
  complete := by rw [endsFresh_append, hx.complete, hy.complete]

/-- What stands in front of a block on its first line belongs to the block. -/
theorem Block.prepend (hx : x.all (!isBreak ·) = true) (hy : Block n y) : Block n (x ++ y) where
  hanging := hanging_append_of_unbroken hx hy.hanging
  complete := by rw [endsFresh_append, hy.complete_of]

theorem unbroken_spaces (n : Nat) : (spaces n).all (!isBreak ·) = true := by
  have hspace : isBreak ' ' = false := by decide
  simp [spaces, hspace]

theorem Block.rows (h : Block n x) : Rows n (spaces n ++ x) where
  start := .inr (.inr (List.prefix_append ..))
  hanging := hanging_append_of_unbroken (unbroken_spaces n) h.hanging
  complete := by rw [endsFresh_append, h.complete_of]

/-- Rows that begin on a new line are a block. -/
theorem Rows.newline (h : Rows n x) : Block n ('\n' :: x) where
  hanging := ⟨fun _ => h.start, h.hanging⟩
  complete := by rw [endsFresh_cons]; exact h.complete

theorem block_of_unbroken (hx : x.all (!isBreak ·) = true) : Block n (x ++ ['\n']) :=
  block_append_newline (hanging_append_of_unbroken hx (hanging_newline n))

end

/-! ## Entries -/

theorem indented_of_unbroken (n : Nat) (char : Char → List Char) {cs : List Char}
    (hcs : cs.all (!isBreak ·) = true) : indented n char false cs = cs.flatMap char := by
  induction cs with
  | nil => rfl
  | cons c cs ih =>
    rw [List.all_cons, Bool.and_eq_true, Bool.not_eq_true'] at hcs
    rw [indented, hcs.1, if_neg (by simp), ih hcs.2]
    rfl

/-- A text on one line is written on one line. -/
theorem unbroken_scalar {cs : List Char} (hcs : cs.all (!isBreak ·) = true) (n : Nat) :
    (scalar n cs).all (!isBreak ·) = true := by
  rw [scalar]
  cases hstyle : styleOf cs with
  | plain => exact hcs
  | single =>
    have hquote : isBreak '\'' = false := by decide
    have hlast : cs.getLast?.any isBreak = false := by
      rw [Option.any_eq_false]
      intro c hc
      simpa using List.all_eq_true.1 hcs c (List.mem_of_getLast? hc)
    have hchars : (cs.flatMap doubleQuote).all (!isBreak ·) = true := by
      rw [List.all_flatMap, List.all_eq_true]
      intro c hc
      rw [doubleQuote]
      split <;> simp_all
    simp [scalarIn, singleQuoted, indented_of_unbroken n doubleQuote hcs, hchars, hlast, hquote]
  | double => exact unbroken_doubleQuoted cs
  | literal =>
    have hbreak := List.all_eq_true.1 hcs _ (literalAllowed_of_styleOf hstyle).1
    exact absurd hbreak (by decide)

theorem block_entryLines (column : Nat) (k v : String) :
    Block column (entryLines column k v) := by
  have hvalue : Block column ([':', ' '] ++ scalarLines (column + 2) v.toList) :=
    .prepend (by decide) ((block_scalarLines _ _).mono (by omega))
  rw [entryLines, List.append_assoc]
  split
  · next hsimple =>
    rw [isSimpleKey, Bool.and_eq_true] at hsimple
    have hkey : k.toList.all (!isBreak ·) = true := by simpa using hsimple.2
    exact .prepend (unbroken_scalar hkey _) hvalue
  · have hkey : Block column (['?', ' '] ++ scalarLines (column + 2) k.toList) :=
      .prepend (by decide) ((block_scalarLines _ _).mono (by omega))
    rw [List.append_assoc]
    exact hkey.append hvalue.rows

theorem rows_entriesLines (column : Nat) (l : List (String × String)) :
    Rows column (entriesLines column l) := by
  induction l with
  | nil => exact .nil
  | cons e l ih => exact (block_entryLines column e.1 e.2).rows.append ih

/-! ## Trees -/

/-- The lines of the tree after the first are empty or indented, wherever it stands. -/
structure Hangs (n : Node) : Prop where
  afterColon : ∀ column, Block column (n.afterColon column)
  afterDash : ∀ column, Block column (n.afterDash column)

theorem IsPlainName.unbroken {k : String} (h : IsPlainName k) :
    k.toList.all (!isBreak ·) = true := by
  rw [List.all_eq_true]
  intro c hc
  rw [(standsPlain_of_styleOf h).unbroken c hc]
  rfl

/-- What holds no text hangs, for it stands on one line. -/
theorem Hangs.of_unbroken {n : Node} {x : List Char} (hx : x.all (!isBreak ·) = true)
    (hcolon : ∀ column, n.afterColon column = ' ' :: (x ++ ['\n']))
    (hdash : ∀ column, n.afterDash column = x ++ ['\n']) : Hangs n where
  afterColon column := by
    rw [hcolon]
    exact (block_of_unbroken hx).prepend (x := [' ']) (by decide)
  afterDash column := by
    rw [hdash]
    exact block_of_unbroken hx

theorem Hangs.block_item {n : Node} (h : Hangs n) (column : Nat) :
    Block column (['-', ' '] ++ n.afterDash (column + 2)) :=
  .prepend (by decide) ((h.afterDash (column + 2)).mono (by omega))

theorem rows_itemLines {ns : List Node} (h : ∀ n ∈ ns, Hangs n) (column : Nat) :
    Rows column (Node.itemLines column ns) := by
  induction ns with
  | nil => exact .nil
  | cons n ns ih =>
    rw [List.forall_mem_cons] at h
    rw [Node.itemLines, List.append_assoc (spaces column)]
    exact (h.1.block_item column).rows.append (ih h.2)

theorem block_field {k : String} {n : Node} (hk : IsPlainName k) {m column : Nat}
    (hn : Block m (n.afterColon column)) : Block m (k.toList ++ ':' :: n.afterColon column) := by
  have hcolon : isBreak ':' = false := by decide
  have hname : (k.toList ++ [':']).all (!isBreak ·) = true := by
    simp [hk.unbroken, hcolon]
  have h := Block.prepend hname hn
  rwa [List.append_assoc] at h

theorem rows_fieldLines {ms : List (String × Node)} (hk : ∀ m ∈ ms, IsPlainName m.1)
    (h : ∀ m ∈ ms, Hangs m.2) (column : Nat) : Rows column (Node.fieldLines column ms) := by
  induction ms with
  | nil => exact .nil
  | cons m ms ih =>
    obtain ⟨k, n⟩ := m
    rw [List.forall_mem_cons] at hk h
    rw [Node.fieldLines, List.append_assoc (spaces column)]
    exact (block_field hk.1 (h.1.afterColon column)).rows.append (ih hk.2 h.2)

/-- Fields that are written below the name of their mapping are indented deeper than it. -/
theorem block_afterColon_fields {ms : List (String × Node)} (hk : ∀ m ∈ ms, IsPlainName m.1)
    (h : ∀ m ∈ ms, Hangs m.2) (column : Nat) :
    Block (column + 2) ((Node.fields ms).afterColon column) := by
  cases ms with
  | nil => exact block_of_unbroken (x := [' ', '\x7b', '\x7d']) (by decide)
  | cons m ms => exact (rows_fieldLines hk h (column + 2)).newline

theorem block_afterColon_text (column : Nat) (s : String) :
    Block (column + 2) ((Node.text s).afterColon column) :=
  .prepend (x := [' ']) (by decide) (block_scalarLines _ _)

/-- The lines of a tree hang, whatever its texts hold. -/
theorem hangs_of_plainlyNamed {n : Node} (h : PlainlyNamed n) : Hangs n := by
  induction h with
  | text s =>
    exact ⟨fun column => (block_afterColon_text column s).mono (by omega),
      fun column => block_scalarLines column _⟩
  | entries l =>
    cases l with
    | nil => exact .of_unbroken (x := ['\x7b', '\x7d']) (by decide) (fun _ => rfl) fun _ => rfl
    | cons e l =>
      refine ⟨fun column => ?_, fun column => ?_⟩
      · exact (rows_entriesLines (column + 2) (e :: l)).newline.mono (by omega)
      · exact (block_entryLines column e.1 e.2).append (rows_entriesLines column l)
  | @list ns _ ih =>
    cases ns with
    | nil => exact .of_unbroken (x := ['[', ']']) (by decide) (fun _ => rfl) fun _ => rfl
    | cons n ns =>
      refine ⟨fun column => (rows_itemLines ih column).newline, fun column => ?_⟩
      rw [List.forall_mem_cons] at ih
      exact (ih.1.block_item column).append (rows_itemLines ih.2 column)
  | @fields ms hk _ ih =>
    cases ms with
    | nil => exact .of_unbroken (x := ['\x7b', '\x7d']) (by decide) (fun _ => rfl) fun _ => rfl
    | cons m ms =>
      refine ⟨fun column => (block_afterColon_fields hk ih column).mono (by omega),
        fun column => ?_⟩
      rw [List.forall_mem_cons] at hk ih
      exact (block_field hk.1 (ih.1.afterColon column)).append (rows_fieldLines hk.2 ih.2 column)

theorem PlainlyNamed.block_fields {ms : List (String × Node)} (h : PlainlyNamed (.fields ms))
    (column : Nat) : Block (column + 2) ((Node.fields ms).afterColon column) := by
  cases h with
  | fields hk h => exact block_afterColon_fields hk (fun m hm => hangs_of_plainlyNamed (h m hm)) column

/-! ## Lines in the first column -/

/-- A line that is neither empty nor indented. -/
def startsInFirstColumn (l : List Char) : Bool := l.head?.any (· != ' ')

/-- The lines of a text that start in the first column. -/
def outerLines (cs : List Char) : List (List Char) := (lines cs).filter startsInFirstColumn

/-- The first line ends at the first break. -/
theorem exists_lines_eq (cs : List Char) : ∃ ls, lines cs = cs.takeWhile (!isBreak ·) :: ls := by
  induction cs with
  | nil => exact ⟨[], rfl⟩
  | cons c cs ih =>
    obtain ⟨ls, h⟩ := ih
    rw [lines, h]
    cases hc : isBreak c with
    | true =>
      rw [List.takeWhile_cons_of_neg (by simp [hc])]
      exact ⟨_, rfl⟩
    | false =>
      rw [List.takeWhile_cons_of_pos (by simp [hc])]
      exact ⟨_, rfl⟩

theorem lines_cons_break {c : Char} (hc : isBreak c = true) (cs : List Char) :
    lines (c :: cs) = [] :: lines cs := by
  obtain ⟨ls, h⟩ := exists_lines_eq cs
  rw [lines, h, hc]
  rfl

theorem lines_cons {c : Char} (hc : isBreak c = false) {cs l : List Char} {ls : List (List Char)}
    (h : lines cs = l :: ls) : lines (c :: cs) = (c :: l) :: ls := by
  rw [lines, h, hc]
  rfl

theorem lines_append_break {c : Char} (hc : isBreak c = true) (x y : List Char) :
    lines (x ++ c :: y) = lines x ++ lines y := by
  induction x with
  | nil => exact lines_cons_break hc y
  | cons d x ih =>
    rw [List.cons_append]
    cases hd : isBreak d with
    | true => rw [lines_cons_break hd, ih, lines_cons_break hd, List.cons_append]
    | false =>
      obtain ⟨ls, h⟩ := exists_lines_eq x
      rw [h, List.cons_append] at ih
      rw [lines_cons hd ih, lines_cons hd h, List.cons_append]

theorem outerLines_append {x : List Char} (hx : endsFresh false x = true) (y : List Char) :
    outerLines (x ++ y) = outerLines x ++ outerLines y := by
  rcases List.eq_nil_or_concat x with rfl | ⟨x, c, rfl⟩
  · cases hx
  rw [List.concat_eq_append, endsFresh_append_cons] at hx
  have hc : isBreak c = true := hx
  rw [List.concat_eq_append, List.append_assoc, List.singleton_append]
  simp only [outerLines, lines_append_break hc, List.filter_append]
  rw [show (lines []).filter startsInFirstColumn = [] from rfl, List.append_nil]

/-- Of lines that are indented after the first, only the first may start in the first column. -/
theorem filter_tail_lines {n : Nat} {cs : List Char} (h : Hanging (n + 1) cs) :
    (lines cs).tail.filter startsInFirstColumn = [] ∧
      (LineStart (n + 1) cs → outerLines cs = []) := by
  induction cs with
  | nil => exact ⟨rfl, fun _ => rfl⟩
  | cons c cs ih =>
    obtain ⟨htail, houter⟩ := ih h.2
    cases hc : isBreak c with
    | true =>
      have hlines := houter (h.1 hc)
      rw [outerLines, lines_cons_break hc]
      exact ⟨hlines, fun _ => hlines⟩
    | false =>
      obtain ⟨ls, hls⟩ := exists_lines_eq cs
      rw [hls] at htail
      rw [outerLines, lines_cons hc hls]
      refine ⟨htail, fun hstart => ?_⟩
      rcases hstart with hnil | hbreak | ⟨t, ht⟩
      · cases hnil
      · rw [List.head?_cons, Option.any_some, hc] at hbreak
        cases hbreak
      · obtain ⟨rfl, -⟩ := List.cons.inj ht
        exact htail

theorem outerLines_of_hanging {n : Nat} {c : Char} {cs : List Char} (hc : c ≠ ' ')
    (hbreak : isBreak c = false) (h : Hanging (n + 1) (c :: cs)) :
    outerLines (c :: cs) = [(c :: cs).takeWhile (!isBreak ·)] := by
  obtain ⟨ls, hls⟩ := exists_lines_eq (c :: cs)
  have htail := (filter_tail_lines h).1
  rw [List.takeWhile_cons_of_pos (by simp [hbreak])] at hls ⊢
  rw [hls, List.tail_cons] at htail
  have hfirst : startsInFirstColumn (c :: cs.takeWhile (!isBreak ·)) = true := by
    simp [startsInFirstColumn, hc]
  rw [outerLines, hls, List.filter_cons_of_pos hfirst, htail]

/-- The field as it begins: its name and what stands on the same line. -/
def firstLine (k : String) (n : Node) : List Char :=
  k.toList ++ ':' :: (n.afterColon 0).takeWhile (!isBreak ·)

/-- The lines that start in the first column are the first lines of the fields, if what is written
of each field hangs below its name. -/
theorem outerLines_fieldLines {ms : List (String × Node)}
    (h : ∀ m ∈ ms, IsPlainName m.1 ∧ Block 1 (m.2.afterColon 0)) :
    outerLines (Node.fieldLines 0 ms) = ms.map fun m => firstLine m.1 m.2 := by
  induction ms with
  | nil => rfl
  | cons m ms ih =>
    obtain ⟨k, n⟩ := m
    rw [List.forall_mem_cons] at h
    obtain ⟨⟨hplain, hblock⟩, hms⟩ := h
    have hfield := block_field hplain hblock
    have hsplit : Node.fieldLines 0 ((k, n) :: ms) =
        (k.toList ++ ':' :: n.afterColon 0) ++ Node.fieldLines 0 ms := by
      simp [Node.fieldLines, spaces]
    have hcolon : isBreak ':' = false := by decide
    have hfirst : (k.toList ++ ':' :: n.afterColon 0).takeWhile (!isBreak ·) = firstLine k n := by
      rw [List.takeWhile_append_of_pos (List.all_eq_true.1 hplain.unbroken),
        List.takeWhile_cons_of_pos (by simp [hcolon]), firstLine]
    have houter : outerLines (k.toList ++ ':' :: n.afterColon 0) = [firstLine k n] := by
      have hstands := standsPlain_of_styleOf hplain
      obtain ⟨c, t, hk⟩ := List.exists_cons_of_ne_nil hstands.not_null.1
      have hc : c ≠ ' ' := by simpa [hk] using hstands.no_edge.1
      have hbreak : isBreak c = false := hstands.unbroken c (by simp [hk])
      rw [← hfirst, hk]
      exact outerLines_of_hanging hc hbreak (hk ▸ hfield.hanging)
    rw [hsplit, outerLines_append hfield.complete, houter, ih hms]
    rfl

end OperatorRules.Yaml
