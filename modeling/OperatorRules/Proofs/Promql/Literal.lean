import OperatorRules.Promql.Literal
import OperatorRules.Proofs.Text.Utf8

/-!
# What a literal of PromQL denotes

A literal is made of pieces, characters that stand for themselves and escapes. The reader takes what
is made of pieces and nothing else (`readLiteral_eq_some_iff`). An escape is longer than what it
denotes (`Piece.length_lt_or_verbatim`), so a text between quotes denotes itself just if each of its
characters stands for itself (`readLiteral_self_iff`).
-/

namespace OperatorRules.Promql

/-- A character that stands for itself in a literal. -/
def Verbatim (c : Char) : Prop := c ≠ '\'' ∧ c ≠ '\\' ∧ c ≠ '\n'

instance (c : Char) : Decidable (Verbatim c) := inferInstanceAs (Decidable (_ ∧ _))

/-- The UTF-8 encoding of a text. -/
def utf8 (cs : List Char) : List UInt8 := cs.flatMap String.utf8EncodeChar

@[simp] theorem utf8_nil : utf8 [] = [] := rfl

@[simp] theorem utf8_cons (c : Char) (cs : List Char) :
    utf8 (c :: cs) = String.utf8EncodeChar c ++ utf8 cs := rfl

@[simp] theorem utf8_append (cs ds : List Char) : utf8 (cs ++ ds) = utf8 cs ++ utf8 ds :=
  List.flatMap_append

/-- A character that stands for itself, or an escape, and what it denotes. -/
inductive Piece : List Char → List UInt8 → Prop
  | verbatim {c : Char} (h : Verbatim c) : Piece [c] (String.utf8EncodeChar c)
  | short {c : Char} {b : UInt8} (h : shortEscape? c = some b) : Piece ['\\', c] [b]
  | numeric {e : NumericEscape} {ds : List Char} {bytes : List UInt8}
      (hwidth : ds.length = e.width) (h : e.bytes? ds = some bytes) :
    Piece ('\\' :: (e.mark ++ ds)) bytes

/-- What stands between the quotes of a literal, and what it denotes. -/
inductive Spells : List Char → List UInt8 → Prop
  | nil : Spells [] []
  | cons {piece cs : List Char} {first bytes : List UInt8} (hpiece : Piece piece first)
      (h : Spells cs bytes) : Spells (piece ++ cs) (first ++ bytes)

variable {cs tail rest : List Char} {bytes : List UInt8}

/-! ## The reader -/

namespace NumericEscape

variable {e : NumericEscape} {ds : List Char} {c : Char}

theorem start?_eq_some (h : start? c = some (e, ds)) :
    e.mark ++ ds = [c] ∧ ds.length < e.width := by
  unfold start? at h
  split at h
  case h_4 =>
    obtain ⟨-, h⟩ := Option.ite_none_right_eq_some.1 h
    cases h
    exact ⟨rfl, by rw [List.length_singleton]; decide⟩
  all_goals
    cases h
    exact ⟨rfl, by decide⟩

theorem isOctal_of_digitValue? {d : Nat} (h : Text.digitValue? c = some d) (hd : d < 8) :
    '0' ≤ c ∧ c ≤ '7' := by
  have hle (a b : Char) : a ≤ b ↔ a.toNat ≤ b.toNat := Iff.rfl
  simp only [Text.digitValue?, hle, Char.reduceToNat] at h ⊢
  split at h
  · cases h
    omega
  split at h
  · cases h
    omega
  split at h
  · cases h
    omega
  · cases h

/-- The digits of an octal escape start it. -/
theorem start?_of_bytes? (h : octal.bytes? (c :: ds) = some bytes) :
    start? c = some (octal, [c]) := by
  obtain ⟨n, hn, -⟩ := Option.bind_eq_some_iff.1 h
  rw [Text.ofDigits?_eq, Text.ofDigitsFrom] at hn
  obtain ⟨d, hd, hrest⟩ := Option.bind_eq_some_iff.1 hn
  obtain ⟨hlt, -⟩ := Option.ite_none_right_eq_some.1 hrest
  have hoctal := isOctal_of_digitValue? hd hlt
  unfold start?
  split
  case h_4 => rw [if_pos hoctal]
  all_goals exact absurd hoctal (by decide)

theorem start?_of_shortEscape? {b : UInt8} (h : shortEscape? c = some b) : start? c = none := by
  unfold shortEscape? at h
  split at h
  case h_10 => cases h
  all_goals decide

end NumericEscape

namespace LiteralState

/-- What the reader has read of a piece. -/
def pending : LiteralState → List Char
  | plain => []
  | backslash => ['\\']
  | digits e ds => '\\' :: (e.mark ++ ds)

/-- The piece that the reader stands in lacks something. -/
def Open : LiteralState → Prop
  | digits e ds => ds.length < e.width
  | _ => True

end LiteralState

/-- A text that spells bytes up to a quote, and what follows the quote. -/
def Closes (cs : List Char) (bytes : List UInt8) (rest : List Char) : Prop :=
  ∃ raw, Spells raw bytes ∧ cs = raw ++ '\'' :: rest

theorem Closes.cons {piece : List Char} {first : List UInt8} (hpiece : Piece piece first)
    (h : Closes cs bytes rest) : Closes (piece ++ cs) (first ++ bytes) rest := by
  obtain ⟨raw, hraw, rfl⟩ := h
  exact ⟨piece ++ raw, .cons hpiece hraw, (List.append_assoc ..).symm⟩

theorem Closes.of_prepend {piece : List Char} {first : List UInt8} (hpiece : Piece piece first)
    (ih : ∀ {bytes}, readLiteralFrom .plain cs = some (bytes, rest) → Closes cs bytes rest)
    (h : prepend first (readLiteralFrom .plain cs) = some (bytes, rest)) :
    Closes (piece ++ cs) bytes rest := by
  obtain ⟨read, hread, heq⟩ := Option.map_eq_some_iff.1 h
  cases heq
  exact (ih hread).cons hpiece

/-- What the reader takes is made of pieces. If it stands inside of one, what it has read of that
counts. -/
theorem closes_of_readLiteralFrom {st : LiteralState} (hst : st.Open)
    (h : readLiteralFrom st cs = some (bytes, rest)) : Closes (st.pending ++ cs) bytes rest := by
  fun_induction readLiteralFrom st cs generalizing bytes with
  | case1 => cases h
  | case2 cs =>
    cases h
    exact ⟨[], .nil, rfl⟩
  | case3 => cases h
  | case4 cs _ _ ih => exact ih trivial h
  | case5 c cs hquote hline hbackslash ih =>
    have hcloses := Closes.of_prepend (.verbatim ⟨hquote, hbackslash, hline⟩) (ih trivial) h
    exact hcloses
  | case6 c cs e ds hstart ih =>
    obtain ⟨hmark, hwidth⟩ := NumericEscape.start?_eq_some hstart
    have hcloses := ih hwidth h
    rwa [LiteralState.pending, hmark] at hcloses
  | case7 c cs hstart ih =>
    obtain ⟨b, hb, h⟩ := Option.bind_eq_some_iff.1 h
    have hcloses := Closes.of_prepend (.short hb) (ih trivial) h
    exact hcloses
  | case8 e ds c cs hwidth ih =>
    have hopen : (LiteralState.digits e (ds ++ [c])).Open := by
      rwa [LiteralState.Open, List.length_append, List.length_singleton]
    simpa [LiteralState.pending] using ih hopen h
  | case9 e ds c cs hwidth ih =>
    obtain ⟨b, hb, h⟩ := Option.bind_eq_some_iff.1 h
    have hlength : (ds ++ [c]).length = e.width := by
      have hopen : ds.length < e.width := hst
      rw [List.length_append, List.length_singleton]
      omega
    simpa [LiteralState.pending] using Closes.of_prepend (.numeric hlength hb) (ih trivial) h

/-- The reader reads a piece to its end. -/
theorem readLiteralFrom_digits {e : NumericEscape} (ds : List Char) {es : List Char}
    {first : List UInt8} (hne : es ≠ []) (hwidth : (ds ++ es).length = e.width)
    (h : e.bytes? (ds ++ es) = some first) (cs : List Char) :
    readLiteralFrom (.digits e ds) (es ++ cs) = prepend first (readLiteralFrom .plain cs) := by
  induction es generalizing ds with
  | nil => exact absurd rfl hne
  | cons c es ih =>
    rw [List.cons_append, readLiteralFrom]
    rw [List.length_append, List.length_cons] at hwidth
    rcases List.eq_nil_or_concat' es with rfl | ⟨es', c', rfl⟩
    · rw [if_neg (by rw [← hwidth]; simp), h]
      rfl
    · rw [if_pos (by rw [← hwidth]; simp)]
      exact ih _ (by simp) (by simpa using hwidth) (by simpa using h)

theorem readLiteralFrom_backslash {e : NumericEscape} {ds : List Char} {first : List UInt8}
    (hwidth : ds.length = e.width) (h : e.bytes? ds = some first) (cs : List Char) :
    readLiteralFrom .backslash (e.mark ++ (ds ++ cs)) =
      readLiteralFrom (.digits e []) (ds ++ cs) := by
  cases e with
  | octal =>
    -- the first digit is read together with the backslash
    obtain ⟨c, ds, rfl⟩ := List.exists_cons_of_length_eq_add_one hwidth
    have hstart := NumericEscape.start?_of_bytes? h
    rw [NumericEscape.mark, List.nil_append, List.cons_append, readLiteralFrom, hstart]
    rfl
  | byte | short | long => rfl

theorem readLiteralFrom_piece {piece : List Char} {first : List UInt8} (hpiece : Piece piece first)
    (cs : List Char) :
    readLiteralFrom .plain (piece ++ cs) = prepend first (readLiteralFrom .plain cs) := by
  cases hpiece with
  | verbatim h =>
    obtain ⟨hquote, hbackslash, hline⟩ := h
    rw [List.singleton_append, readLiteralFrom, if_neg hquote, if_neg hline, if_neg hbackslash]
  | @short c b h =>
    have hescape : readLiteralFrom .plain (['\\', c] ++ cs) =
      readLiteralFrom .backslash (c :: cs) := rfl
    rw [hescape, readLiteralFrom, NumericEscape.start?_of_shortEscape? h]
    simp only [h, Option.bind_some]
  | @numeric e ds _ hwidth h =>
    have hescape : readLiteralFrom .plain ('\\' :: (e.mark ++ ds) ++ cs) =
        readLiteralFrom .backslash (e.mark ++ (ds ++ cs)) := by
      rw [← List.append_assoc]
      rfl
    have hne : ds ≠ [] := by
      rintro rfl
      cases e <;> cases hwidth
    rw [hescape, readLiteralFrom_backslash hwidth h]
    exact readLiteralFrom_digits [] hne hwidth h cs

theorem readLiteralFrom_of_spells {raw : List Char} (h : Spells raw bytes) (rest : List Char) :
    readLiteralFrom .plain (raw ++ '\'' :: rest) = some (bytes, rest) := by
  induction h with
  | nil => rfl
  | cons hpiece _ ih =>
    rw [List.append_assoc, readLiteralFrom_piece hpiece, ih]
    rfl

/-- The reader takes a text just if it is made of pieces up to a quote. -/
theorem readLiteral_eq_some_iff :
    readLiteral ('\'' :: cs) = some (bytes, rest) ↔ Closes cs bytes rest := by
  constructor
  · have hopen : LiteralState.plain.Open := trivial
    exact closes_of_readLiteralFrom hopen
  · rintro ⟨raw, hraw, rfl⟩
    exact readLiteralFrom_of_spells hraw rest

/-- Every kind of piece, and an escape of a byte that is no character. -/
example : readLiteral "'a\\'\\\\\\x41\\u00e9\\377\\n' or".toList =
    some (utf8 "a'\\Aé".toList ++ [0xff, 0x0a], " or".toList) := by decide +kernel

/-! ## Text that denotes itself -/

theorem length_le_length_utf8 (cs : List Char) : cs.length ≤ (utf8 cs).length := by
  induction cs with
  | nil => exact Nat.le_refl 0
  | cons c cs ih =>
    have hpos := c.utf8Size_pos
    rw [utf8_cons, List.length_append, String.length_utf8EncodeChar, List.length_cons]
    omega

theorem NumericEscape.length_bytes?_lt {e : NumericEscape} {ds : List Char}
    (h : e.bytes? ds = some bytes) : bytes.length < e.mark.length + e.width + 1 := by
  obtain ⟨n, -, h⟩ := Option.bind_eq_some_iff.1 h
  cases e with
  | octal | byte =>
    obtain ⟨-, h⟩ := Option.ite_none_right_eq_some.1 h
    cases h
    rw [List.length_singleton]
    decide
  | short | long =>
    obtain ⟨-, h⟩ := Option.ite_none_right_eq_some.1 h
    cases h
    have hsize := (Char.ofNat n).utf8Size_le_four
    rw [String.length_utf8EncodeChar]
    simp only [mark, width, List.length_singleton]
    omega

theorem Piece.length_lt_or_verbatim {piece : List Char} (h : Piece piece bytes) :
    bytes.length < (utf8 piece).length ∨ (∀ c ∈ piece, Verbatim c) ∧ bytes = utf8 piece := by
  cases h with
  | @verbatim c h => exact .inr ⟨by simpa using h, by simp⟩
  | @short c b h => exact .inl (length_le_length_utf8 ['\\', c])
  | @numeric e ds _ hwidth h =>
    have hle := length_le_length_utf8 ('\\' :: (e.mark ++ ds))
    have hlt := NumericEscape.length_bytes?_lt h
    rw [List.length_cons, List.length_append, hwidth] at hle
    exact .inl (Nat.lt_of_lt_of_le hlt hle)

theorem Spells.length_lt_or_verbatim {raw : List Char} (h : Spells raw bytes) :
    bytes.length < (utf8 raw).length ∨ (∀ c ∈ raw, Verbatim c) ∧ bytes = utf8 raw := by
  induction h with
  | nil => exact .inr ⟨by simp, rfl⟩
  | @cons piece cs first bytes hpiece _ ih =>
    rw [utf8_append, List.length_append, List.length_append, List.forall_mem_append]
    rcases hpiece.length_lt_or_verbatim with hfirst | ⟨hfirst, rfl⟩ <;>
      rcases ih with hrest | ⟨hrest, rfl⟩
    case inr.inr => exact .inr ⟨⟨hfirst, hrest⟩, rfl⟩
    all_goals exact .inl (by omega)

/-- A literal that has the bytes of its own text has no escape. -/
theorem spells_utf8_iff : Spells cs (utf8 cs) ↔ ∀ c ∈ cs, Verbatim c := by
  constructor
  · intro h
    rcases h.length_lt_or_verbatim with hlt | ⟨hverbatim, -⟩
    · exact absurd hlt (Nat.lt_irrefl _)
    · exact hverbatim
  · intro h
    induction cs with
    | nil => exact .nil
    | cons c cs ih =>
      rw [List.forall_mem_cons] at h
      exact .cons (.verbatim h.1) (ih h.2)

theorem Spells.length_le {raw : List Char} (h : Spells raw bytes) :
    bytes.length ≤ (utf8 raw).length := by
  rcases h.length_lt_or_verbatim with hlt | ⟨-, rfl⟩
  · exact Nat.le_of_lt hlt
  · exact Nat.le_refl _

theorem Spells.eq_utf8 {raw : List Char} (h : Spells raw bytes) (hraw : '\\' ∉ raw) :
    bytes = utf8 raw := by
  induction h with
  | nil => rfl
  | cons hpiece _ ih =>
    rw [List.mem_append, not_or] at hraw
    cases hpiece with
    | verbatim => rw [ih hraw.2]; rfl
    | short | numeric => exact absurd (List.mem_cons_self ..) hraw.1

/-! ## Quotes inside of a literal -/

theorem Piece.quote {piece : List Char} (h : Piece piece bytes) :
    '\'' ∉ piece ∨ piece = ['\\', '\''] ∧ bytes = [0x27] := by
  cases h with
  | verbatim h => exact .inl (by simpa using h.1.symm)
  | @short c b h =>
    by_cases hc : c = '\''
    · subst hc
      cases h
      exact .inr ⟨rfl, rfl⟩
    · exact .inl (by simpa using Ne.symm hc)
  | @numeric e ds _ _ h =>
    obtain ⟨n, hn, -⟩ := Option.bind_eq_some_iff.1 h
    rw [Text.ofDigits?_eq] at hn
    have hmark : '\'' ∉ e.mark := by cases e <;> decide
    have hds : '\'' ∉ ds := fun hmem =>
      absurd (Text.isSome_digitValue?_of_mem hn hmem) (by decide)
    exact .inl (by simp [hmark, hds])

theorem exists_of_append_quote {piece before after : List Char} (hpiece : '\'' ∉ piece)
    (h : piece ++ cs = before ++ '\'' :: after) :
    ∃ middle, before = piece ++ middle ∧ cs = middle ++ '\'' :: after := by
  rcases List.append_eq_append_iff.1 h with h | ⟨middle, hmiddle, hrest⟩
  · exact h
  · cases middle with
    | nil => exact ⟨[], by simpa using hmiddle.symm, hrest.symm⟩
    | cons c middle =>
      obtain ⟨rfl, -⟩ := List.cons.inj hrest
      exact absurd (hmiddle ▸ by simp) hpiece

/-- A quote inside of a literal stands behind a backslash. -/
theorem Spells.of_append_quote {before after : List Char}
    (h : Spells (before ++ '\'' :: after) bytes) :
    ∃ start first last, before = start ++ ['\\'] ∧ Spells after last ∧
      bytes = first ++ 0x27 :: last := by
  generalize hraw : before ++ '\'' :: after = raw at h
  induction h generalizing before with
  | nil => cases before <;> cases hraw
  | @cons piece cs first bytes hpiece hcs ih =>
    rcases hpiece.quote with hquote | ⟨rfl, rfl⟩
    · obtain ⟨middle, rfl, hmiddle⟩ := exists_of_append_quote hquote hraw.symm
      obtain ⟨start, first', last, rfl, hlast, rfl⟩ := ih hmiddle.symm
      exact ⟨piece ++ start, first ++ first', last, by simp, hlast, by simp⟩
    · match before with
      | [] => cases hraw
      | [_] =>
        cases hraw
        exact ⟨[], [], bytes, rfl, hcs, rfl⟩
      | _ :: _ :: before =>
        cases hraw
        obtain ⟨start, first', last, rfl, hlast, rfl⟩ := ih rfl
        exact ⟨'\\' :: '\'' :: start, 0x27 :: first', last, rfl, hlast, rfl⟩

/-- Only the backslash has the byte of the backslash. -/
theorem mem_utf8_backslash (h : 0x5c ∈ utf8 cs) : '\\' ∈ cs := by
  obtain ⟨c, hc, hbyte⟩ := List.mem_flatMap.1 h
  suffices hn : c.val.toNat = 92 by
    obtain rfl : c = '\\' := Char.ext (UInt32.toNat_inj.1 hn)
    exact hc
  have hvalid := Text.toNat_lt c
  rw [String.utf8EncodeChar] at hbyte
  generalize c.val.toNat = n at *
  have hnat (k : Nat) : (0x5c : UInt8) = UInt8.ofNat k ↔ 92 = k % 256 := by
    rw [← UInt8.toNat_inj, UInt8.toNat_ofNat']
    rfl
  split at hbyte
  · simp only [List.mem_singleton, hnat] at hbyte
    omega
  split at hbyte
  · simp only [List.mem_cons, List.not_mem_nil, or_false, hnat] at hbyte
    omega
  split at hbyte
  all_goals
    simp only [List.mem_cons, List.not_mem_nil, or_false, hnat] at hbyte
    omega

theorem verbatim_of_readLiteral (htail : '\\' ∉ tail)
    (h : readLiteral ('\'' :: (cs ++ '\'' :: tail)) = some (utf8 cs, rest)) :
    ∀ c ∈ cs, Verbatim c := by
  obtain ⟨raw, hraw, heq⟩ := readLiteral_eq_some_iff.1 h
  rcases List.append_eq_append_iff.1 heq with ⟨more, rfl, hmore⟩ | ⟨more, rfl, hmore⟩
  · -- the literal ends at the quote behind the text, or at a later one
    cases more with
    | nil => exact spells_utf8_iff.1 (by simpa using hraw)
    | cons c more =>
      obtain ⟨rfl, rfl⟩ := List.cons.inj hmore
      obtain ⟨start, first, last, rfl, hlast, heq⟩ := hraw.of_append_quote
      have hmore : '\\' ∉ more := fun h => htail (List.mem_append_left _ h)
      obtain rfl := hlast.eq_utf8 hmore
      -- then the bytes of the text end as those of what follows it, but not with a backslash
      have hends : (0x27 :: utf8 more).getLast? = some 0x5c := by
        have hlast := congrArg List.getLast? heq
        rw [utf8_append, List.getLast?_append_cons] at hlast
        rw [← hlast]
        exact List.getLast?_concat ..
      rcases List.mem_cons.1 (List.mem_of_getLast? hends) with h | h
      · cases h
      · exact absurd (mem_utf8_backslash h) hmore
  · -- the literal ends in the text
    cases more with
    | nil => exact spells_utf8_iff.1 (by simpa using hraw)
    | cons c more =>
      have hle := hraw.length_le
      have hpos := length_le_length_utf8 (c :: more)
      rw [utf8_append, List.length_append] at hle
      rw [List.length_cons] at hpos
      omega

/-- A text between quotes denotes itself just if its characters stand for themselves, and then the
literal ends with the text. What follows has no say in that, if no escape can stand there. -/
theorem readLiteral_self_iff (htail : '\\' ∉ tail) :
    readLiteral ('\'' :: (cs ++ '\'' :: tail)) = some (utf8 cs, rest) ↔
      (∀ c ∈ cs, Verbatim c) ∧ rest = tail := by
  have hself (h : ∀ c ∈ cs, Verbatim c) :
      readLiteral ('\'' :: (cs ++ '\'' :: tail)) = some (utf8 cs, tail) :=
    readLiteral_eq_some_iff.2 ⟨cs, spells_utf8_iff.2 h, rfl⟩
  constructor
  · intro h
    have hverbatim := verbatim_of_readLiteral htail h
    have hrest := h.symm.trans (hself hverbatim)
    exact ⟨hverbatim, congrArg Prod.snd (Option.some.inj hrest)⟩
  · rintro ⟨h, rfl⟩
    exact hself h

/-! ## The label of an expression -/

variable {word found : List Char}

theorem length_le_of_after? (h : after? word cs = some found) : word.length ≤ cs.length := by
  induction cs with
  | nil =>
    obtain ⟨hempty, -⟩ := Option.ite_none_right_eq_some.1 h
    obtain rfl := List.isEmpty_iff.1 hempty
    exact Nat.le_refl 0
  | cons c cs ih =>
    rw [after?] at h
    split at h
    · next hstarts => exact (List.isPrefixOf_iff_prefix.1 hstarts).length_le
    · exact Nat.le_succ_of_le (ih h)

/-- What is found in the beginning of a text is found in the text. -/
theorem after?_append (h : after? word cs = some found) (rest : List Char) :
    after? word (cs ++ rest) = some (found ++ rest) := by
  induction cs with
  | nil =>
    obtain ⟨hempty, hfound⟩ := Option.ite_none_right_eq_some.1 h
    obtain rfl := List.isEmpty_iff.1 hempty
    cases hfound
    cases rest <;> rfl
  | cons c cs ih =>
    rw [after?] at h
    rw [List.cons_append, after?]
    split at h
    · next hstarts =>
      have hstarts := List.isPrefixOf_iff_prefix.1 hstarts
      have hlonger : word.isPrefixOf (c :: (cs ++ rest)) = true :=
        List.isPrefixOf_iff_prefix.2 (hstarts.trans (List.prefix_append (c :: cs) rest))
      cases h
      rw [if_pos hlonger, ← List.cons_append, List.drop_append_of_le_length hstarts.length_le]
    · next hstarts =>
      have hlength : word.length ≤ (c :: cs).length := Nat.le_succ_of_le (length_le_of_after? h)
      rw [if_neg, ih h]
      intro hlonger
      refine hstarts (List.isPrefixOf_iff_prefix.2 ?_)
      exact List.prefix_of_prefix_length_le (List.isPrefixOf_iff_prefix.1 hlonger)
        (List.prefix_append (c :: cs) rest) hlength

theorem labelValue?_append {label before : String}
    (h : after? (label.toList ++ ['=']) before.toList = some []) (rest : String) :
    labelValue? label (before ++ rest) = readLiteral rest.toList := by
  rw [labelValue?, String.toList_append, after?_append h]
  rfl

end OperatorRules.Promql
