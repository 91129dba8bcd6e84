import OperatorRules.Proofs.Yaml.Node
import OperatorRules.Proofs.Yaml.Plain

/-!
# The pieces of a written tree

A written tree is made of marks and of scalars, each of which stands in a mapping or a list at a
column. The functions on pieces follow the writer, `Shown` says that they miss nothing of it, and
`shown_of_plainlyNamed` proves that by induction on the tree. A scalar of either kind reads back as
its text, at every column (`Piece.faithful`).
-/

namespace OperatorRules.Yaml

/-- A piece of a written tree. -/
inductive Piece where
  /-- Structure, with the spaces and breaks around it. -/
  | mark (cs : List Char)
  /-- A key on the line of its colon, in a mapping at a column. -/
  | key (column : Nat) (s : String)
  /-- A text up to the end of its last line, in a mapping or a list at a column. -/
  | lines (column : Nat) (s : String)
  deriving DecidableEq, Repr

namespace Piece

def text : Piece → List Char
  | mark cs => cs
  | key column s => scalar (column + 2) s.toList
  | lines column s => scalarLines (column + 2) s.toList

def string? : Piece → Option String
  | mark _ => none
  | key _ s => some s
  | lines _ s => some s

/-- The written piece, read by the style that it shows. -/
def read (p : Piece) : Option (List Char) :=
  match p with
  | mark _ => none
  | key column _ => readScalar column p.text
  | lines column _ => readScalarLines column p.text

/-- Nothing but spaces, breaks and the characters of structure. -/
def isMark (cs : List Char) : Bool :=
  cs.all fun c => c ∈ [' ', '\n', ':', '-', '?', '[', ']', '\x7b', '\x7d']

/-- The piece is a scalar, or a mark that holds nothing of a text. -/
def WellMarked : Piece → Prop
  | mark cs => isMark cs = true
  | key .. => True
  | lines .. => True

end Piece

/-- The pieces of an entry of a mapping at a column. -/
def entryPieces (column : Nat) (key value : String) : List Piece :=
  (if isSimpleKey key then [.key column key]
    else [.mark ['?', ' '], .lines column key, .mark (spaces column)]) ++
  [.mark [':', ' '], .lines column value]

def entriesPieces (column : Nat) (l : List (String × String)) : List Piece :=
  l.flatMap fun (k, v) => .mark (spaces column) :: entryPieces column k v

def entriesTexts (l : List (String × String)) : List String := l.flatMap fun (k, v) => [k, v]

namespace Node

mutual

/-- The pieces of what follows the colon of a field at a column. -/
def colonPieces (column : Nat) : Node → List Piece
  | .text s => [.mark [' '], .lines column s]
  | .entries [] => [.mark [' ', '\x7b', '\x7d', '\n']]
  | .entries (e :: l) => .mark ['\n'] :: entriesPieces (column + 2) (e :: l)
  | .list [] => [.mark [' ', '[', ']', '\n']]
  | .list (n :: ns) => .mark ['\n'] :: itemPieces column (n :: ns)
  | .fields [] => [.mark [' ', '\x7b', '\x7d', '\n']]
  | .fields (m :: ms) => .mark ['\n'] :: fieldPieces (column + 2) (m :: ms)

def itemPieces (column : Nat) : List Node → List Piece
  | [] => []
  | n :: ns => .mark (spaces column ++ ['-', ' ']) :: n.dashPieces column ++ itemPieces column ns

/-- The pieces of what follows the dash of an item of a list at a column. -/
def dashPieces (column : Nat) : Node → List Piece
  | .text s => [.lines column s]
  | .entries [] => [.mark ['\x7b', '\x7d', '\n']]
  | .entries ((k, v) :: l) => entryPieces (column + 2) k v ++ entriesPieces (column + 2) l
  | .list [] => [.mark ['[', ']', '\n']]
  | .list (n :: ns) =>
    .mark ['-', ' '] :: n.dashPieces (column + 2) ++ itemPieces (column + 2) ns
  | .fields [] => [.mark ['\x7b', '\x7d', '\n']]
  | .fields ((k, n) :: ms) =>
    .key (column + 2) k :: .mark [':'] :: n.colonPieces (column + 2) ++ fieldPieces (column + 2) ms

def fieldPieces (column : Nat) : List (String × Node) → List Piece
  | [] => []
  | (k, n) :: ms =>
    .mark (spaces column) :: .key column k :: .mark [':'] :: n.colonPieces column ++
      fieldPieces column ms

end

mutual

/-- The keys and values of a tree. -/
def texts : Node → List String
  | .text s => [s]
  | .entries l => entriesTexts l
  | .list ns => itemTexts ns
  | .fields ms => fieldTexts ms

def itemTexts : List Node → List String
  | [] => []
  | n :: ns => n.texts ++ itemTexts ns

def fieldTexts : List (String × Node) → List String
  | [] => []
  | (k, n) :: ms => k :: n.texts ++ fieldTexts ms

end

end Node

/-- The pieces make up the text, and their strings are these. -/
structure Shows (ps : List Piece) (cs : List Char) (strings : List String) : Prop where
  text : ps.flatMap Piece.text = cs
  strings : ps.filterMap Piece.string? = strings
  marks : ∀ p ∈ ps, p.WellMarked

namespace Shows

variable {ps qs : List Piece} {cs ds : List Char} {strings strings' : List String}

theorem nil : Shows [] [] [] := ⟨rfl, rfl, by simp⟩

theorem append (h : Shows ps cs strings) (h' : Shows qs ds strings') :
    Shows (ps ++ qs) (cs ++ ds) (strings ++ strings') where
  text := by rw [List.flatMap_append, h.text, h'.text]
  strings := by rw [List.filterMap_append, h.strings, h'.strings]
  marks p hp := (List.mem_append.1 hp).elim (h.marks p) (h'.marks p)

theorem mark (h : Shows ps cs strings) {m : List Char} (hm : Piece.isMark m = true) :
    Shows (.mark m :: ps) (m ++ cs) strings where
  text := by rw [List.flatMap_cons, h.text]; rfl
  strings := h.strings
  marks := List.forall_mem_cons.2 ⟨hm, h.marks⟩

theorem key (h : Shows ps cs strings) (column : Nat) (s : String) :
    Shows (.key column s :: ps) (scalar (column + 2) s.toList ++ cs) (s :: strings) where
  text := by rw [List.flatMap_cons, h.text]; rfl
  strings := congrArg (s :: ·) h.strings
  marks := List.forall_mem_cons.2 ⟨trivial, h.marks⟩

theorem lines (h : Shows ps cs strings) (column : Nat) (s : String) :
    Shows (.lines column s :: ps) (scalarLines (column + 2) s.toList ++ cs) (s :: strings) where
  text := by rw [List.flatMap_cons, h.text]; rfl
  strings := congrArg (s :: ·) h.strings
  marks := List.forall_mem_cons.2 ⟨trivial, h.marks⟩

end Shows

theorem isMark_spaces (n : Nat) : Piece.isMark (spaces n) = true := by
  simp [Piece.isMark, spaces]

/-! ## Entries -/

theorem shows_entryPieces (column : Nat) (k v : String) :
    Shows (entryPieces column k v) (entryLines column k v) [k, v] := by
  have hvalue : Shows [.mark [':', ' '], .lines column v]
      ([':', ' '] ++ scalarLines (column + 2) v.toList) [v] := by
    have h := (Shows.nil.lines column v).mark (m := [':', ' ']) (by decide)
    rwa [List.append_nil] at h
  rw [entryPieces, entryLines, List.append_assoc]
  split
  · exact hvalue.key column k
  · have h := ((hvalue.mark (isMark_spaces column)).lines column k).mark
      (m := ['?', ' ']) (by decide)
    simpa only [List.append_assoc, List.cons_append, List.nil_append] using h

theorem shows_entriesPieces (column : Nat) (l : List (String × String)) :
    Shows (entriesPieces column l) (entriesLines column l) (entriesTexts l) := by
  induction l with
  | nil => exact .nil
  | cons e l ih =>
    exact ((shows_entryPieces column e.1 e.2).mark (isMark_spaces column)).append ih

/-! ## Trees -/

/-- The pieces show the tree wherever it stands. -/
structure Shown (n : Node) : Prop where
  afterColon : ∀ column, Shows (n.colonPieces column) (n.afterColon column) n.texts
  afterDash : ∀ column, Shows (n.dashPieces column) (n.afterDash (column + 2)) n.texts

/-- A name of a field is written as it is, and would be so as a key. -/
def IsPlainName (k : String) : Prop := styleOf k.toList = .plain

instance (k : String) : Decidable (IsPlainName k) := inferInstanceAs (Decidable (_ = _))

/-- All names of fields in the tree may stand plain. -/
inductive PlainlyNamed : Node → Prop
  | text (s : String) : PlainlyNamed (.text s)
  | entries (l : List (String × String)) : PlainlyNamed (.entries l)
  | list {ns : List Node} (h : ∀ n ∈ ns, PlainlyNamed n) : PlainlyNamed (.list ns)
  | fields {ms : List (String × Node)} (hk : ∀ m ∈ ms, IsPlainName m.1)
      (h : ∀ m ∈ ms, PlainlyNamed m.2) : PlainlyNamed (.fields ms)

theorem IsPlainName.scalar_eq {k : String} (h : IsPlainName k) (indent : Nat) :
    scalar indent k.toList = k.toList := by
  rw [scalar, h]
  rfl

theorem shows_itemPieces {ns : List Node} (h : ∀ n ∈ ns, Shown n) (column : Nat) :
    Shows (Node.itemPieces column ns) (Node.itemLines column ns) (Node.itemTexts ns) := by
  induction ns with
  | nil => exact .nil
  | cons n ns ih =>
    rw [List.forall_mem_cons] at h
    have hdash : Piece.isMark (spaces column ++ ['-', ' ']) = true := by
      simp [Piece.isMark, spaces]
    have hitems := ((h.1.afterDash column).mark hdash).append (ih h.2)
    rw [Node.itemPieces, Node.itemLines, Node.itemTexts]
    simpa only [List.append_assoc, List.cons_append] using hitems

theorem shows_field {k : String} {n : Node} (hk : IsPlainName k) (hn : Shown n) (column : Nat) :
    Shows (.key column k :: .mark [':'] :: n.colonPieces column)
      (k.toList ++ ':' :: n.afterColon column) (k :: n.texts) := by
  have h := (((hn.afterColon column).mark (m := [':']) (by decide)).key column k)
  rwa [hk.scalar_eq] at h

theorem shows_fieldPieces {ms : List (String × Node)} (hk : ∀ m ∈ ms, IsPlainName m.1)
    (h : ∀ m ∈ ms, Shown m.2) (column : Nat) :
    Shows (Node.fieldPieces column ms) (Node.fieldLines column ms) (Node.fieldTexts ms) := by
  induction ms with
  | nil => exact .nil
  | cons m ms ih =>
    obtain ⟨k, n⟩ := m
    rw [List.forall_mem_cons] at hk h
    have hfield := ((shows_field hk.1 h.1 column).mark (isMark_spaces column)).append
      (ih hk.2 h.2)
    rw [Node.fieldPieces, Node.fieldLines, Node.fieldTexts]
    simpa only [List.append_assoc, List.cons_append] using hfield

/-- Marks and scalars are all that is written of a tree. -/
theorem shown_of_plainlyNamed {n : Node} (h : PlainlyNamed n) : Shown n := by
  have hmark {m : List Char} (hm : Piece.isMark m = true) : Shows [.mark m] m [] := by
    have h := Shows.nil.mark hm
    rwa [List.append_nil] at h
  -- the induction hypothesis is the law of every item and of every field at once, so that the lists
  -- of either need no induction of their own here
  induction h with
  | text s =>
    have hlines (column : Nat) := Shows.nil.lines column s
    simp only [List.append_nil] at hlines
    exact ⟨fun column => (hlines column).mark (m := [' ']) (by decide), hlines⟩
  | entries l =>
    cases l with
    | nil => exact ⟨fun _ => hmark (by decide), fun _ => hmark (by decide)⟩
    | cons e l =>
      refine ⟨fun column => ?_, fun column => ?_⟩
      · exact (shows_entriesPieces (column + 2) (e :: l)).mark (m := ['\n']) (by decide)
      · exact (shows_entryPieces (column + 2) e.1 e.2).append (shows_entriesPieces (column + 2) l)
  | @list ns _ ih =>
    cases ns with
    | nil => exact ⟨fun _ => hmark (by decide), fun _ => hmark (by decide)⟩
    | cons n ns =>
      refine ⟨fun column => ?_, fun column => ?_⟩
      · exact (shows_itemPieces ih column).mark (m := ['\n']) (by decide)
      · rw [List.forall_mem_cons] at ih
        exact ((ih.1.afterDash (column + 2)).mark (m := ['-', ' ']) (by decide)).append
          (shows_itemPieces ih.2 (column + 2))
  | @fields ms hk _ ih =>
    cases ms with
    | nil => exact ⟨fun _ => hmark (by decide), fun _ => hmark (by decide)⟩
    | cons m ms =>
      refine ⟨fun column => ?_, fun column => ?_⟩
      · exact (shows_fieldPieces hk ih (column + 2)).mark (m := ['\n']) (by decide)
      · rw [List.forall_mem_cons] at hk ih
        exact (shows_field hk.1 ih.1 (column + 2)).append
          (shows_fieldPieces hk.2 ih.2 (column + 2))

/-! ## Reading the pieces -/

/-- The piece reads back as its string, and shows no quotes only if that may stand plain. -/
structure Piece.Faithful (p : Piece) (s : String) : Prop where
  reads : p.read = some s.toList
  plain : shownStyle p.text = .plain → StandsPlain s.toList

theorem shownStyle_scalarLines (indent : Nat) (cs : List Char) :
    shownStyle (scalarLines indent cs) = styleOf cs := by
  obtain ⟨c, t, h, -⟩ := startsScalar_scalar indent cs
  rw [scalarLines, shownStyle_append (by simp [h]), shownStyle_scalar]

/-- Every scalar is faithful, at every column. -/
theorem Piece.faithful {p : Piece} {s : String} (h : p.string? = some s) : p.Faithful s := by
  cases p with
  | mark => cases h
  | key column t =>
    cases h
    refine ⟨readScalar_scalar column _, fun hplain => standsPlain_of_styleOf ?_⟩
    rwa [text, shownStyle_scalar] at hplain
  | lines column t =>
    cases h
    refine ⟨readScalarLines_scalarLines column _, fun hplain => standsPlain_of_styleOf ?_⟩
    rwa [text, shownStyle_scalarLines] at hplain

end OperatorRules.Yaml
