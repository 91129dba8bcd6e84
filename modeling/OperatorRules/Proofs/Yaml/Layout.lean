import OperatorRules.Proofs.Yaml.Reading

/-!
# Blocks

A block is indented by `n` if its last line is complete and each of its lines after the first is
empty or starts with `n` spaces. Where what follows is indented less, a block is told apart from it
(`Block.append_inj`). The lines of a scalar are a block (`block_scalarLines`), so a text is
determined by its scalar wherever that stands (`scalarLines_append_inj`).
-/

namespace OperatorRules.Yaml

/-- What may follow a break in a block that is indented by `n`. -/
def LineStart (n : Nat) (cs : List Char) : Prop :=
  cs = [] ∨ cs.head?.any isBreak = true ∨ spaces n <+: cs

/-- Every line after the first is empty or starts with `n` spaces. -/
def Hanging (n : Nat) : List Char → Prop
  | [] => True
  | c :: cs => (isBreak c = true → LineStart n cs) ∧ Hanging n cs

/-- Starts with neither a space nor a break. -/
def Visible (cs : List Char) : Prop := ∃ c t, cs = c :: t ∧ isSpaceOrBreak c = false

/-- What follows is at its end or indented by less than `n`. -/
def Dedented (n : Nat) (cs : List Char) : Prop :=
  cs = [] ∨ ∃ k t, k < n ∧ Visible t ∧ cs = spaces k ++ t

/-- Complete lines, indented by `n` after the first. -/
structure Block (n : Nat) (cs : List Char) : Prop where
  hanging : Hanging n cs
  complete : endsFresh false cs = true

/-! ## Lines that hang -/

theorem LineStart.append {n : Nat} {x y : List Char} (hx : x ≠ []) (h : LineStart n x) :
    LineStart n (x ++ y) := by
  rcases h with h | h | h
  · exact absurd h hx
  · obtain ⟨c, x, rfl⟩ := List.exists_cons_of_ne_nil hx
    exact .inr (.inl h)
  · exact .inr (.inr (h.trans (List.prefix_append ..)))

theorem hanging_append_of_unbroken {n : Nat} {x y : List Char} (hx : x.all (!isBreak ·) = true)
    (hy : Hanging n y) : Hanging n (x ++ y) := by
  induction x with
  | nil => exact hy
  | cons c x ih =>
    rw [List.all_cons, Bool.and_eq_true] at hx
    refine ⟨fun hc => ?_, ih hx.2⟩
    rw [hc] at hx
    cases hx.1

theorem Hanging.append {n : Nat} {x y : List Char} (hx : Hanging n x) (hy : Hanging n y)
    (hstart : endsFresh false x = true → LineStart n y) : Hanging n (x ++ y) := by
  induction x with
  | nil => exact hy
  | cons c x ih =>
    rw [endsFresh_cons] at hstart
    cases x with
    | nil => exact ⟨hstart, hy⟩
    | cons d x =>
      have hd : endsFresh (isBreak c) (d :: x) = endsFresh false (d :: x) := by
        rw [endsFresh_cons, endsFresh_cons]
      rw [hd] at hstart
      exact ⟨fun hc => (hx.1 hc).append (by simp), ih hx.2 hstart⟩

theorem Hanging.lineStart {n : Nat} {x y : List Char} (h : Hanging n (x ++ y))
    (hx : endsFresh false x = true) : LineStart n y := by
  induction x with
  | nil => cases hx
  | cons c x ih =>
    rw [endsFresh_cons] at hx
    cases x with
    | nil => exact h.1 hx
    | cons d x =>
      rw [endsFresh_cons] at hx
      exact ih h.2 (by rw [endsFresh_cons]; exact hx)

/-! ## Blocks and what follows them -/

theorem spaces_add (m n : Nat) : spaces (m + n) = spaces m ++ spaces n :=
  (List.replicate_append_replicate ..).symm

theorem spaces_append_inj {j k : Nat} {x y : List Char} (hx : Visible x) (hy : Visible y)
    (h : spaces j ++ x = spaces k ++ y) : j = k ∧ x = y := by
  obtain ⟨c, s, rfl, hc⟩ := hx
  obtain ⟨d, t, rfl, hd⟩ := hy
  have hspace : isSpaceOrBreak ' ' = true := by decide
  induction j generalizing k with
  | zero =>
    cases k with
    | zero => exact ⟨rfl, h⟩
    | succ k =>
      rw [(List.cons.inj h).1, hspace] at hc
      cases hc
  | succ j ih =>
    cases k with
    | zero =>
      rw [← (List.cons.inj h).1, hspace] at hd
      cases hd
    | succ k =>
      obtain ⟨hjk, hxy⟩ := ih (List.cons.inj h).2
      exact ⟨congrArg (· + 1) hjk, hxy⟩

theorem Dedented.not_lineStart {n : Nat} {x y : List Char} (hx : x ≠ [])
    (h : Dedented n (x ++ y)) : ¬ LineStart n x := by
  intro hstart
  rcases h with h | ⟨k, t, hk, ⟨c, t, rfl, hc⟩, h⟩
  · exact hx (List.append_eq_nil_iff.1 h).1
  rcases hstart with hnil | hbreak | ⟨s, rfl⟩
  · exact hx hnil
  · obtain ⟨d, x, rfl⟩ := List.exists_cons_of_ne_nil hx
    have hd : isBreak d = true := hbreak
    cases k with
    | zero =>
      rw [isSpaceOrBreak, ← (List.cons.inj h).1, hd, Bool.or_true] at hc
      cases hc
    | succ k =>
      have hspace : isBreak ' ' = false := by decide
      rw [(List.cons.inj h).1, hspace] at hd
      cases hd
  · -- behind the `k` spaces that both sides start with, one goes on with another space
    obtain ⟨m, rfl⟩ : ∃ m, n = k + (m + 1) := ⟨n - k - 1, by omega⟩
    rw [spaces_add, List.append_assoc, List.append_assoc, List.append_cancel_left_eq] at h
    have hspace : isSpaceOrBreak ' ' = true := by decide
    rw [← (List.cons.inj h).1, hspace] at hc
    cases hc

/-- A block is told apart from what follows, where that is indented less. -/
theorem Block.append_inj {n : Nat} {x y r s : List Char} (hx : Block n x) (hy : Block n y)
    (hr : Dedented n r) (hs : Dedented n s) (h : x ++ r = y ++ s) : x = y ∧ r = s := by
  have hlonger {x z s : List Char} (hx : Block n x) (hy : Block n (x ++ z))
      (hr : Dedented n (z ++ s)) : z = [] := by
    by_cases hz : z = []
    · exact hz
    · exact absurd (hy.hanging.lineStart hx.complete) (hr.not_lineStart hz)
  rcases List.append_eq_append_iff.1 h with ⟨z, rfl, rfl⟩ | ⟨z, rfl, rfl⟩
  · obtain rfl := hlonger hx hy hr
    simp
  · obtain rfl := hlonger hy hx hs
    simp

/-! ## The lines of a scalar -/

theorem isBreak_eq_false_of_digitValue? {c : Char} (h : (Text.digitValue? c).isSome = true) :
    isBreak c = false := by
  refine Bool.eq_false_iff.2 fun hc => ?_
  simp only [isBreak, Bool.or_eq_true, beq_iff_eq] at hc
  rcases hc with (((rfl | rfl) | rfl) | rfl) | rfl <;> cases h

theorem all_upperHexadecimal {p : Char → Bool}
    (hdigit : ∀ c, (Text.digitValue? c).isSome = true → p c = true) (w n : Nat) :
    (upperHexadecimal w n).all p = true :=
  List.all_eq_true.2 fun c hc =>
    hdigit c (Text.isSome_digitValue?_of_mem (ofDigitsFrom_upperHexadecimal w n) hc)

/-- The characters that escapes are made of, digits apart. -/
def escapeMarks : List Char :=
  ['\\', '0', 'a', 'b', 't', 'n', 'v', 'f', 'r', 'e', '"', 'N', 'L', 'P', 'x', 'u', 'U']

/-- What holds of the characters of escapes, and of `c` if it stands for itself. -/
theorem all_escapeChar {p : Char → Bool} (hmarks : escapeMarks.all p = true)
    (hdigit : ∀ d, (Text.digitValue? d).isSome = true → p d = true) {c : Char}
    (hself : escapeLetter? c = none → isPrintable c = true → p c = true) :
    (escapeChar c).all p = true := by
  simp only [escapeMarks, List.all_cons, Bool.and_eq_true] at hmarks
  rw [escapeChar]
  cases hletter : escapeLetter? c with
  | some letter =>
    unfold escapeLetter? at hletter
    split at hletter <;> cases hletter <;> simp [hmarks]
  | none =>
    show (if isPrintable c then [c] else '\\' :: codeEscape c).all p = true
    split
    · next hprintable => simp [hself hletter hprintable]
    · simp only [codeEscape]
      split
      · simp [hmarks, all_upperHexadecimal hdigit]
      split
      · simp [hmarks, all_upperHexadecimal hdigit]
      · simp [hmarks, all_upperHexadecimal hdigit]

theorem unbroken_escapeChar (c : Char) : (escapeChar c).all (!isBreak ·) = true := by
  refine all_escapeChar (by decide) (fun d hd => ?_) fun hletter _ => ?_
  · rw [isBreak_eq_false_of_digitValue? hd]
    rfl
  · rw [Bool.not_eq_true', Bool.eq_false_iff]
    intro hc
    simp only [isBreak, Bool.or_eq_true, beq_iff_eq] at hc
    rcases hc with (((rfl | rfl) | rfl) | rfl) | rfl <;> cases hletter

theorem hanging_indented {n : Nat} {char : Char → List Char}
    (hchar : ∀ c, isBreak c = false → (char c).all (!isBreak ·) = true) (fresh : Bool)
    (cs : List Char) {rest : List Char} (hrest : Hanging n rest)
    (hstart : endsFresh fresh cs = true → LineStart n rest) :
    Hanging n (indented n char fresh cs ++ rest) ∧
      (fresh = true → LineStart n (indented n char fresh cs ++ rest)) := by
  induction cs generalizing fresh with
  | nil => exact ⟨hrest, hstart⟩
  | cons c cs ih =>
    rw [endsFresh_cons] at hstart
    obtain ⟨hhanging, hline⟩ := ih (isBreak c) hstart
    rw [indented]
    cases hc : isBreak c with
    | true =>
      rw [hc] at hhanging hline
      rw [if_pos rfl]
      exact ⟨⟨fun _ => hline rfl, hhanging⟩, fun _ => .inr (.inl hc)⟩
    | false =>
      rw [hc] at hhanging
      have hindent : (if fresh = true then spaces n else []).all (!isBreak ·) = true := by
        have hspace : isBreak ' ' = false := by decide
        cases fresh <;> simp [spaces, hspace]
      rw [if_neg (by simp), List.append_assoc, List.append_assoc]
      refine ⟨?_, ?_⟩
      · exact hanging_append_of_unbroken hindent
          (hanging_append_of_unbroken (hchar c hc) hhanging)
      · rintro rfl
        exact .inr (.inr (List.prefix_append ..))

theorem endsFresh_append_cons (fresh : Bool) (x : List Char) (c : Char) (y : List Char) :
    endsFresh fresh (x ++ c :: y) = endsFresh (isBreak c) y := by
  induction x generalizing fresh with
  | nil => exact endsFresh_cons ..
  | cons d x ih => rw [List.cons_append, endsFresh_cons, ih]

theorem endsFresh_indented (n : Nat) (fresh fresh' : Bool) (cs : List Char) :
    endsFresh fresh (indented n (fun c => [c]) fresh' cs) = endsFresh fresh cs := by
  induction cs generalizing fresh fresh' with
  | nil => rfl
  | cons c cs ih =>
    rw [indented, endsFresh_cons]
    split
    · rw [endsFresh_cons, ih]
    · rw [List.append_assoc, List.singleton_append, endsFresh_append_cons, ih]

theorem complete_of_chomping {cs : List Char} (h : chomping cs ≠ .strip) :
    endsFresh false cs = true := by
  rcases List.eq_nil_or_concat cs with rfl | ⟨cs, c, rfl⟩
  · exact absurd rfl h
  rw [List.concat_eq_append, endsFresh_append_cons]
  rw [List.concat_eq_append, chomping_concat] at h
  cases hc : isBreak c with
  | true => rfl
  | false => simp [hc] at h

theorem block_append_newline {n : Nat} {x : List Char} (h : Hanging n (x ++ ['\n'])) :
    Block n (x ++ ['\n']) where
  hanging := h
  complete := endsFresh_append_cons ..

theorem hanging_newline (n : Nat) : Hanging n ['\n'] := ⟨fun _ => .inl rfl, trivial⟩

theorem unbroken_header (cs : List Char) :
    ('|' :: (indentHint cs ++ (chomping cs).sign)).all (!isBreak ·) = true := by
  have hall : ∀ k : Chomping, ('|' :: (['2'] ++ k.sign)).all (!isBreak ·) = true ∧
      ('|' :: ([] ++ k.sign)).all (!isBreak ·) = true := by
    intro k
    cases k <;> decide
  rw [indentHint]
  split
  · exact (hall _).1
  · exact (hall _).2

theorem block_literalLines (n : Nat) {cs rest : List Char} (hrest : rest = [] ∨ rest = ['\n'])
    (hcomplete : rest = [] → endsFresh false cs = true) : Block n (literal n cs ++ rest) := by
  have hsplit : literal n cs ++ rest =
      ('|' :: (indentHint cs ++ (chomping cs).sign)) ++
        '\n' :: (indented n (fun c => [c]) true cs ++ rest) := by
    simp [literal]
  have hhanging : Hanging n rest := by
    rcases hrest with rfl | rfl
    · trivial
    · exact hanging_newline n
  have hstart : LineStart n rest := by
    rcases hrest with rfl | rfl
    · exact .inl rfl
    · exact .inr (.inl rfl)
  have hchar (c : Char) (hc : isBreak c = false) : ([c].all fun d => !isBreak d) = true := by
    simp [hc]
  obtain ⟨hlines, hfirst⟩ := hanging_indented hchar true cs hhanging fun _ => hstart
  rw [hsplit]
  refine ⟨hanging_append_of_unbroken (unbroken_header cs) ⟨fun _ => hfirst rfl, hlines⟩, ?_⟩
  rw [endsFresh_append_cons]
  rcases hrest with rfl | rfl
  · rw [List.append_nil, endsFresh_indented]
    have hcs := hcomplete rfl
    cases cs with
    | nil => cases hcs
    | cons c cs =>
      rw [endsFresh_cons] at hcs ⊢
      exact hcs
  · exact endsFresh_append_cons ..

theorem hanging_singleQuoted (n : Nat) (cs : List Char) :
    Hanging n (singleQuoted n cs ++ ['\n']) := by
  have hquote : isBreak '\'' = false := by decide
  have hchar (c : Char) (hc : isBreak c = false) : (doubleQuote c).all (!isBreak ·) = true := by
    rw [doubleQuote]
    split <;> simp [hquote, hc]
  have hclosing :
      Hanging n ((if cs.getLast?.any isBreak then spaces n else []) ++ ['\'', '\n']) := by
    refine hanging_append_of_unbroken ?_ ⟨fun h => ?_, hanging_newline n⟩
    · have hspace : isBreak ' ' = false := by decide
      split <;> simp [spaces, hspace]
    · rw [hquote] at h
      cases h
  have hstart : endsFresh false cs = true →
      LineStart n ((if cs.getLast?.any isBreak then spaces n else []) ++ ['\'', '\n']) := by
    intro hcs
    rw [endsFresh_false] at hcs
    rw [if_pos hcs]
    exact .inr (.inr (List.prefix_append ..))
  have hlines := (hanging_indented hchar false cs hclosing hstart).1
  have hsplit : singleQuoted n cs ++ ['\n'] = ['\''] ++ (indented n doubleQuote false cs ++
      ((if cs.getLast?.any isBreak then spaces n else []) ++ ['\'', '\n'])) := by
    simp [singleQuoted]
  rw [hsplit]
  exact hanging_append_of_unbroken (by decide) hlines

theorem unbroken_doubleQuoted (cs : List Char) : (doubleQuoted cs).all (!isBreak ·) = true := by
  have hquote : isBreak '"' = false := by decide
  have hchars : (cs.flatMap escapeChar).all (!isBreak ·) = true := by
    rw [List.all_flatMap]
    exact List.all_eq_true.2 fun c _ => unbroken_escapeChar c
  simp [doubleQuoted, hquote, hchars]

/-- The lines of a scalar are a block. -/
theorem block_scalarLines (n : Nat) (cs : List Char) : Block n (scalarLines n cs) := by
  rw [scalarLines, scalar]
  cases hstyle : styleOf cs with
  | plain =>
    have hplain := (plainAllowed_of_styleOf hstyle).2
    have hcs : cs.all (!isBreak ·) = true := by
      rw [plainAllowed] at hplain
      simp_all
    rw [if_neg (by simp)]
    exact block_append_newline (hanging_append_of_unbroken hcs (hanging_newline n))
  | single =>
    rw [if_neg (by simp)]
    exact block_append_newline (hanging_singleQuoted n cs)
  | double =>
    rw [if_neg (by simp)]
    exact block_append_newline
      (hanging_append_of_unbroken (unbroken_doubleQuoted cs) (hanging_newline n))
  | literal =>
    refine block_literalLines n ?_ fun hrest => ?_
    · split
      · exact .inl rfl
      · exact .inr rfl
    · refine complete_of_chomping fun hstrip => ?_
      simp [hstrip] at hrest

/-! ## Scalars and what follows them -/

/-- A text is determined by its scalar, where what follows is indented less. -/
theorem scalarLines_append_inj {column : Nat} {cs ds r s : List Char} (hr : Dedented (column + 2) r)
    (hs : Dedented (column + 2) s)
    (h : scalarLines (column + 2) cs ++ r = scalarLines (column + 2) ds ++ s) :
    cs = ds ∧ r = s := by
  obtain ⟨hlines, hrest⟩ := (block_scalarLines _ cs).append_inj (block_scalarLines _ ds) hr hs h
  have hread := readScalarLines_scalarLines column cs
  rw [hlines, readScalarLines_scalarLines] at hread
  exact ⟨(Option.some.inj hread).symm, hrest⟩

end OperatorRules.Yaml
