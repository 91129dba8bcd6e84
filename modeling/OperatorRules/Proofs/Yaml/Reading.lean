import OperatorRules.Proofs.Text.Digits
import OperatorRules.Yaml.Reading

/-!
# Scalars read back

Every scalar reads back as the text that was written, by the rules of the style that it shows:
`readScalar_scalar` on its own, `readScalarLines_scalarLines` up to the end of its last line. Each
style has a lemma about its reader, by induction on the text.
-/

namespace OperatorRules.Yaml

/-! ## Characters and neighbours -/

theorem ne_of_isBreak {c d : Char} (hc : isBreak c = true) (hd : isBreak d = false) : c ≠ d := by
  intro e
  rw [e, hd] at hc
  cases hc

theorem anyNeighbours_cons (p : Char → Char → Bool) (c : Char) (cs : List Char) :
    anyNeighbours p (c :: cs) = (cs.head?.any (p c) || anyNeighbours p cs) := by
  cases cs <;> rfl

/-- Whether a break was written last, when `fresh` tells it for what stands in front. -/
def endsFresh (fresh : Bool) (cs : List Char) : Bool := (cs.getLast?.map isBreak).getD fresh

theorem endsFresh_cons (fresh : Bool) (c : Char) (cs : List Char) :
    endsFresh fresh (c :: cs) = endsFresh (isBreak c) cs := by
  rw [endsFresh, endsFresh, List.getLast?_cons]
  cases cs.getLast? <;> rfl

theorem endsFresh_false (cs : List Char) : endsFresh false cs = cs.getLast?.any isBreak := by
  rw [endsFresh]
  cases cs.getLast? <;> rfl

/-! ## Single quotes -/

theorem readSingleFrom_cons {c : Char} (hc : c ≠ '\'') (fresh : Bool) (cs : List Char) :
    readSingleFrom fresh (c :: cs) =
      if fresh && c == ' ' then readSingleFrom true cs
      else (readSingleFrom (isBreak c) cs).map (c :: ·) := by
  rw [readSingleFrom.eq_4] <;> simp_all

theorem readSingleFrom_spaces (n : Nat) (cs : List Char) :
    readSingleFrom true (spaces n ++ cs) = readSingleFrom true cs := by
  induction n with
  | zero => rfl
  | succ n ih =>
    rw [spaces, List.replicate_succ, List.cons_append, readSingleFrom_cons (by decide)]
    exact ih

theorem readSingleFrom_indent (indent : Nat) (fresh : Bool) (cs : List Char) :
    readSingleFrom fresh ((if fresh then spaces indent else []) ++ cs) = readSingleFrom fresh cs := by
  cases fresh
  · rfl
  · exact readSingleFrom_spaces indent cs

theorem readSingleFrom_doubleQuote {fresh : Bool} {c : Char} (hc : isBreak c = false)
    (hspace : fresh = true → c ≠ ' ') (cs : List Char) :
    readSingleFrom fresh (doubleQuote c ++ cs) = (readSingleFrom false cs).map (c :: ·) := by
  rw [doubleQuote]
  split
  · next h => rw [h]; rfl
  · next h =>
    have hskip : (fresh && c == ' ') = false := by
      cases fresh
      · rfl
      · simpa using hspace rfl
    rw [List.singleton_append, readSingleFrom_cons h, hskip, hc]
    rfl

/-- The reader of single quotes drops the indent in front of what follows a break. -/
theorem readSingleFrom_indented (indent : Nat) {cs : List Char} (hcs : hasBreakSpace cs = false)
    {fresh : Bool} (hfresh : fresh = true → cs.head? ≠ some ' ') :
    readSingleFrom fresh (indented indent doubleQuote fresh cs ++
      (if endsFresh fresh cs then spaces indent else []) ++ ['\'']) = some cs := by
  induction cs generalizing fresh with
  | nil =>
    cases fresh
    · rfl
    · exact readSingleFrom_spaces indent ['\'']
  | cons c cs ih =>
    rw [hasBreakSpace, anyNeighbours_cons, Bool.or_eq_false_iff] at hcs
    rw [indented, endsFresh_cons]
    by_cases hc : isBreak c = true
    · have hnext : cs.head? ≠ some ' ' := fun h => by
        have hbad := hcs.1
        rw [h, Option.any_some, hc] at hbad
        cases hbad
      have hsp : (c == ' ') = false := by simpa using ne_of_isBreak hc (d := ' ') (by decide)
      rw [if_pos hc, List.cons_append, List.cons_append,
        readSingleFrom_cons (ne_of_isBreak hc (by decide)), hsp, Bool.and_false,
        if_neg (by simp), hc, ih hcs.2 fun _ => hnext]
      rfl
    · have hc' : isBreak c = false := by simpa using hc
      rw [if_neg hc, hc']
      simp only [List.append_assoc]
      rw [readSingleFrom_indent,
        readSingleFrom_doubleQuote hc' fun h e => hfresh h (by rw [e]; rfl), ← List.append_assoc,
        ih hcs.2 (by simp)]
      rfl

theorem readSingleFrom_singleQuoted (indent : Nat) {cs : List Char}
    (hcs : singleAllowed cs = true) :
    readSingleFrom false ((singleQuoted indent cs).drop 1) = some cs := by
  have hspace : hasBreakSpace cs = false := by
    rw [singleAllowed] at hcs
    simp_all
  have hread := readSingleFrom_indented indent hspace fun h : false = true => by cases h
  rw [endsFresh_false] at hread
  exact hread

/-! ## Double quotes -/

theorem unescapeLetter?_of_escapeLetter? {c letter : Char} (h : escapeLetter? c = some letter) :
    codeWidth? letter = none ∧ unescapeLetter? letter = some c := by
  unfold escapeLetter? at h
  split at h <;> cases h <;> exact ⟨rfl, rfl⟩

theorem readDoubleFrom_code {left v n : Nat} {ds : List Char} (hlen : ds.length = left + 1)
    (hds : Text.ofDigitsFrom 16 v ds = some n) (cs : List Char) :
    readDoubleFrom (.code left v) (ds ++ cs) =
      (readDoubleFrom .plain cs).map (Char.ofNat n :: ·) := by
  induction ds generalizing left v with
  | nil => cases hlen
  | cons c ds ih =>
    rw [Text.ofDigitsFrom] at hds
    obtain ⟨d, hd, hrest⟩ := Option.bind_eq_some_iff.1 hds
    split at hrest
    · rw [List.cons_append, readDoubleFrom, hd, Option.bind_some]
      cases left with
      | zero =>
        obtain rfl : ds = [] := List.length_eq_zero_iff.1 (by simpa using hlen)
        cases hrest
        rfl
      | succ left => exact ih (by simpa using hlen) hrest
    · cases hrest

theorem ofDigitsFrom_upperHexadecimal (w n : Nat) :
    Text.ofDigitsFrom 16 0 (upperHexadecimal w n) = some n :=
  Text.ofDigitsFrom_map_paddedDigits (by decide) (fun _ hd => Text.digitValue?_toUpper_digitChar hd)
    w n

theorem readDoubleFrom_codeEscape (c : Char) (cs : List Char) :
    readDoubleFrom .backslash (codeEscape c ++ cs) =
      (readDoubleFrom .plain cs).map (c :: ·) := by
  have hlen {w : Nat} (hw : 0 < w) (hn : c.toNat < 16 ^ w) :
      (upperHexadecimal w c.toNat).length = w := by
    rw [upperHexadecimal, List.length_map]
    exact Text.length_paddedDigits (by decide) hw hn
  have hread {letter : Char} {w : Nat} (hletter : codeWidth? letter = some w) (hw : 0 < w)
      (hn : c.toNat < 16 ^ w) :
      readDoubleFrom .backslash (letter :: upperHexadecimal w c.toNat ++ cs) =
        (readDoubleFrom .plain cs).map (c :: ·) := by
    have hlen := hlen hw hn
    rw [List.cons_append, readDoubleFrom, hletter]
    show readDoubleFrom (.code (w - 1) 0) _ = _
    rw [readDoubleFrom_code (by omega) (ofDigitsFrom_upperHexadecimal w _), Char.ofNat_toNat]
  have hmax : c.toNat < 0x110000 := Text.toNat_lt c
  simp only [codeEscape]
  split
  · next h => exact hread rfl (by decide) h
  split
  · next h => exact hread rfl (by decide) h
  · exact hread rfl (by decide) (by omega)

theorem readDoubleFrom_escapeChar (c : Char) (cs : List Char) :
    readDoubleFrom .plain (escapeChar c ++ cs) = (readDoubleFrom .plain cs).map (c :: ·) := by
  rw [escapeChar]
  cases hletter : escapeLetter? c with
  | some letter =>
    obtain ⟨hwidth, hback⟩ := unescapeLetter?_of_escapeLetter? hletter
    show readDoubleFrom .plain ('\\' :: letter :: cs) = _
    rw [readDoubleFrom, if_neg (by decide), if_pos rfl, readDoubleFrom, hwidth]
    show (unescapeLetter? letter).bind _ = _
    rw [hback]
    rfl
  | none =>
    show readDoubleFrom .plain ((if isPrintable c then [c] else '\\' :: codeEscape c) ++ cs) = _
    split
    · have hquote : c ≠ '"' := by rintro rfl; cases hletter
      have hslash : c ≠ '\\' := by rintro rfl; cases hletter
      rw [List.singleton_append, readDoubleFrom, if_neg hquote, if_neg hslash]
    · rw [List.cons_append, readDoubleFrom, if_neg (by decide), if_pos rfl]
      exact readDoubleFrom_codeEscape c cs

theorem readDoubleFrom_doubleQuoted (cs : List Char) :
    readDoubleFrom .plain ((doubleQuoted cs).drop 1) = some cs := by
  show readDoubleFrom .plain (cs.flatMap escapeChar ++ ['"']) = some cs
  induction cs with
  | nil => rfl
  | cons c cs ih =>
    rw [List.flatMap_cons, List.append_assoc, readDoubleFrom_escapeChar, ih]
    rfl

/-! ## Literal scalars -/

theorem stripIndent_spaces (width left : Nat) (cs : List Char) :
    stripIndent width left (spaces left ++ cs) = stripIndent width 0 cs := by
  induction left with
  | zero => rfl
  | succ left ih =>
    have hspace : isBreak ' ' = false := by decide
    rw [spaces, List.replicate_succ, List.cons_append, stripIndent, hspace, if_neg (by simp),
      if_pos ⟨rfl, by omega⟩]
    exact ih

theorem stripIndent_indented (width : Nat) (fresh : Bool) (cs : List Char) {rest : List Char}
    (hrest : rest.all isBreak = true) :
    stripIndent width (if fresh then width else 0)
      (indented width (fun c => [c]) fresh cs ++ rest) = cs ++ rest := by
  induction cs generalizing fresh with
  | nil =>
    show stripIndent width _ rest = rest
    generalize (if fresh = true then width else 0) = left
    induction rest generalizing left with
    | nil => rfl
    | cons b rest ih =>
      rw [List.all_cons, Bool.and_eq_true] at hrest
      rw [stripIndent, if_pos hrest.1, ih hrest.2]
  | cons c cs ih =>
    rw [indented]
    by_cases hc : isBreak c = true
    · rw [if_pos hc, List.cons_append, stripIndent, if_pos hc]
      exact congrArg (c :: ·) (ih true)
    · have hline : stripIndent width 0 (c :: (indented width (fun c => [c]) false cs ++ rest)) =
          c :: (cs ++ rest) := by
        rw [stripIndent, if_neg hc, if_neg (by simp)]
        exact congrArg (c :: ·) (ih false)
      rw [if_neg hc]
      cases fresh
      · exact hline
      · show stripIndent width width (spaces width ++ _ ++ _ ++ rest) = _
        rw [List.append_assoc, List.append_assoc, stripIndent_spaces]
        exact hline

theorem takeWhile_spaces (n : Nat) {cs : List Char} (hcs : cs.head? ≠ some ' ') :
    (spaces n ++ cs).takeWhile (· == ' ') = spaces n := by
  have hnil : cs.takeWhile (· == ' ') = [] := by
    cases cs with
    | nil => rfl
    | cons c cs =>
      rw [List.takeWhile_cons_of_neg]
      simpa using hcs
  rw [spaces, List.takeWhile_append_of_pos (by simp), hnil, List.append_nil]

theorem chomping_concat (cs : List Char) (c : Char) :
    chomping (cs ++ [c]) =
      if isBreak c then if cs.getLast?.any isBreak || cs.isEmpty then .keep else .clip
      else .strip := by
  rcases List.eq_nil_or_concat cs with rfl | ⟨cs, d, rfl⟩
  · cases h : isBreak c <;> simp [chomping, h]
  · cases h : isBreak c <;> simp [chomping, h]

theorem reverse_dropWhile_concat {cs : List Char} {c : Char} (hc : isBreak c = false) :
    ((cs ++ [c]).reverse.dropWhile isBreak).reverse = cs ++ [c] := by
  rw [List.reverse_append, List.reverse_singleton, List.singleton_append,
    List.dropWhile_cons_of_neg (by simp [hc]), List.reverse_cons, List.reverse_reverse]

/-- The sign that a text needs makes the reader treat its last breaks right; a break that was added
after a last line without one does not count. -/
theorem chomping_apply (cs : List Char) {rest : List Char} (hrest : rest.all isBreak = true)
    (hstrip : chomping cs ≠ .strip → rest = []) : (chomping cs).apply (cs ++ rest) = cs := by
  have hdrop (l : List Char) : (rest.reverse ++ l).dropWhile isBreak = l.dropWhile isBreak :=
    List.dropWhile_append_of_pos (by simpa using hrest)
  rcases List.eq_nil_or_concat cs with rfl | ⟨cs, c, rfl⟩
  · show (rest.reverse.dropWhile isBreak).reverse = []
    rw [← List.append_nil rest.reverse, hdrop]
    rfl
  rw [List.concat_eq_append, chomping_concat] at *
  by_cases hc : isBreak c = true
  · rw [if_pos hc] at *
    by_cases hlast : (cs.getLast?.any isBreak || cs.isEmpty) = true
    · rw [if_pos hlast] at *
      rw [hstrip (by simp), List.append_nil]
      rfl
    · rw [if_neg hlast] at *
      obtain rfl : rest = [] := hstrip (by simp)
      obtain ⟨cs, d, rfl⟩ : ∃ ds d, cs = ds ++ [d] := by
        rcases List.eq_nil_or_concat cs with rfl | ⟨ds, d, rfl⟩
        · simp at hlast
        · exact ⟨ds, d, List.concat_eq_append⟩
      have hd : isBreak d = false := by simpa using hlast
      have hcontent : (((cs ++ [d]) ++ [c]).reverse.dropWhile isBreak).reverse = cs ++ [d] := by
        rw [List.reverse_append, List.reverse_singleton, List.singleton_append,
          List.dropWhile_cons_of_pos hc, reverse_dropWhile_concat hd]
      rw [List.append_nil, Chomping.apply.eq_def]
      simp only [hcontent, List.drop_left, List.take_succ_cons, List.take_nil]
  · have hc' : isBreak c = false := by simpa using hc
    rw [if_neg hc, Chomping.apply.eq_def]
    show ((cs ++ [c] ++ rest).reverse.dropWhile isBreak).reverse = cs ++ [c]
    rw [List.reverse_append, hdrop, reverse_dropWhile_concat hc']

theorem readHeader_header (cs : List Char) (k : Chomping) (body : List Char) :
    readHeader (indentHint cs ++ k.sign ++ '\n' :: body) =
      some (⟨if cs.head?.any isSpaceOrBreak then some 2 else none, k⟩, body) := by
  rw [indentHint]
  split <;> cases k <;> rfl

theorem readLiteral_literal (column : Nat) {cs rest : List Char} (hcs : cs ≠ [])
    (hrest : rest.all isBreak = true) (hstrip : chomping cs ≠ .strip → rest = []) :
    readLiteral column ((literal (column + 2) cs).drop 1 ++ rest) = some cs := by
  obtain ⟨d, ds, rfl⟩ := List.exists_cons_of_ne_nil hcs
  have hwidth : (d == ' ' || isBreak d) = false →
      ((indented (column + 2) (fun c => [c]) true (d :: ds) ++ rest).takeWhile (· == ' ')).length =
        column + 2 := by
    intro hd
    have hd' := Bool.or_eq_false_iff.1 hd
    have hne : d ≠ ' ' := by simpa using hd'.1
    rw [indented, if_neg (by simp [hd'.2]), if_pos rfl, List.append_assoc, List.append_assoc,
      takeWhile_spaces _ (by simpa using hne)]
    exact List.length_replicate ..
  have hheader : (literal (column + 2) (d :: ds)).drop 1 ++ rest =
      indentHint (d :: ds) ++ (chomping (d :: ds)).sign ++
        '\n' :: (indented (column + 2) (fun c => [c]) true (d :: ds) ++ rest) := by
    simp [literal]
  have hstripped := stripIndent_indented (column + 2) true (d :: ds) hrest
  rw [if_pos rfl] at hstripped
  rw [hheader, readLiteral, readHeader_header]
  show some (Chomping.apply _ (stripIndent _ _ _)) = _
  cases hd : (d == ' ' || isBreak d) with
  | true =>
    have hhint : (d :: ds).head?.any isSpaceOrBreak = true := hd
    simp only [hhint, if_true, hstripped, chomping_apply _ hrest hstrip]
  | false =>
    have hhint : (d :: ds).head?.any isSpaceOrBreak = false := hd
    simp only [hhint, Bool.false_eq_true, if_false, hwidth hd, hstripped,
      chomping_apply _ hrest hstrip]

/-! ## The style of a text -/

theorem plainAllowed_of_styleOf {cs : List Char} (h : styleOf cs = .plain) :
    isAmbiguous cs = false ∧ plainAllowed cs = true := by
  unfold styleOf at h
  split at h
  · split at h <;> cases h
  · split at h
    · next hplain => simpa using hplain
    · split at h <;> cases h

theorem ne_nil_of_styleOf_plain {cs : List Char} (h : styleOf cs = .plain) : cs ≠ [] := by
  rintro rfl
  have hempty : isAmbiguous [] = true := by decide
  rw [(plainAllowed_of_styleOf h).1] at hempty
  cases hempty

theorem singleAllowed_of_styleOf {cs : List Char} (h : styleOf cs = .single) :
    singleAllowed cs = true := by
  unfold styleOf at h
  split at h
  · split at h <;> cases h
  · split at h
    · cases h
    · split at h
      · next hsingle => exact hsingle
      · cases h

theorem literalAllowed_of_styleOf {cs : List Char} (h : styleOf cs = .literal) :
    '\n' ∈ cs ∧ literalAllowed cs = true := by
  unfold styleOf at h
  split at h
  · next hmem =>
    split at h
    · next hliteral => exact ⟨by simpa using hmem, hliteral⟩
    · cases h
  · split at h
    · cases h
    · split at h <;> cases h

theorem not_startsIndicator_of_plainAllowed {cs : List Char} (h : plainAllowed cs = true) :
    startsIndicator cs = false := by
  unfold plainAllowed at h
  simp_all

theorem hasColonBlank_append (x : List Char) {y : List Char} (hy : startsBlank y = true) :
    hasColonBlank (x ++ ':' :: y) = true := by
  induction x with
  | nil => simp [hasColonBlank, hy]
  | cons c x ih => rw [List.cons_append, hasColonBlank, ih, Bool.or_true]

theorem shownStyle_of_not_startsIndicator {cs : List Char} (h : startsIndicator cs = false) :
    shownStyle cs = .plain := by
  unfold shownStyle
  split
  all_goals first | rfl | cases h

theorem shownStyle_scalar (indent : Nat) (cs : List Char) :
    shownStyle (scalar indent cs) = styleOf cs := by
  rw [scalar]
  cases h : styleOf cs with
  | plain =>
    exact shownStyle_of_not_startsIndicator
      (not_startsIndicator_of_plainAllowed (plainAllowed_of_styleOf h).2)
  | single | double | literal => rfl

/-! ## All styles -/

/-- A scalar reads back as its text. -/
theorem readScalar_scalar (column : Nat) (cs : List Char) :
    readScalar column (scalar (column + 2) cs) = some cs := by
  rw [readScalar, shownStyle_scalar, scalar]
  cases h : styleOf cs with
  | plain => rfl
  | single => exact readSingleFrom_singleQuoted _ (singleAllowed_of_styleOf h)
  | double => exact readDoubleFrom_doubleQuoted cs
  | literal =>
    have hcs : cs ≠ [] := List.ne_nil_of_mem (literalAllowed_of_styleOf h).1
    have hread : readLiteral column ((literal (column + 2) cs).drop 1 ++ []) = some cs :=
      readLiteral_literal column hcs rfl fun _ => rfl
    rw [List.append_nil] at hread
    exact hread

/-- A scalar reads back as its text, up to the end of its last line. -/
theorem readScalarLines_scalarLines (column : Nat) (cs : List Char) :
    readScalarLines column (scalarLines (column + 2) cs) = some cs := by
  by_cases h : styleOf cs = .literal
  · have hcs : cs ≠ [] := List.ne_nil_of_mem (literalAllowed_of_styleOf h).1
    have hshown (rest : List Char) :
        shownStyle (scalar (column + 2) cs ++ rest) = .literal := by
      rw [scalar, h]
      rfl
    have hread {rest : List Char} (hrest : rest.all isBreak = true)
        (hstrip : chomping cs ≠ .strip → rest = []) :
        readScalar column (scalar (column + 2) cs ++ rest) = some cs := by
      rw [readScalar, hshown, scalar, h]
      exact readLiteral_literal column hcs hrest hstrip
    rw [readScalarLines, scalarLines, hshown]
    by_cases hk : chomping cs = .strip
    · rw [if_neg fun hadded => hadded.2 hk]
      exact hread (by decide) fun hne => absurd hk hne
    · rw [if_pos ⟨h, hk⟩]
      exact hread rfl fun _ => rfl
  · have hlast : (scalar (column + 2) cs ++ ['\n']).getLast? = some '\n' := by simp
    have hshown : shownStyle (scalar (column + 2) cs ++ ['\n']) ≠ .literal := by
      have hscalar := shownStyle_scalar (column + 2) cs
      cases hx : scalar (column + 2) cs with
      | nil => decide
      | cons c x =>
        rw [hx] at hscalar
        rw [← hscalar] at h
        unfold shownStyle at h ⊢
        split <;> simp_all
    rw [readScalarLines, scalarLines, if_neg fun hadded => h hadded.1]
    split
    · next hliteral => exact absurd hliteral hshown
    · rw [if_pos hlast, List.dropLast_concat, readScalar_scalar]

end OperatorRules.Yaml
