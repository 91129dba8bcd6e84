import OperatorRules.Proofs.Yaml.Pieces

/-!
# Characters that are written

Whatever a text holds, what is written of it are characters that may stand unescaped: the styles
other than double quotes take a text only if all its characters are such, and in double quotes the
others become escapes (`printable_scalar`). So a written tree holds no other characters
(`Shows.printable`).
-/

namespace OperatorRules.Yaml

/-- The characters that may stand unescaped, by their code points. -/
def Unescaped (c : Char) : Prop :=
  c = '\n' ∨ (0x20 ≤ c.toNat ∧ c.toNat ≤ 0x7e) ∨
    (0xa0 ≤ c.toNat ∧ c.toNat ≠ 0xfeff ∧ c.toNat ≠ 0xfffe ∧ c.toNat ≠ 0xffff)

theorem isPrintable_iff {c : Char} : isPrintable c = true ↔ Unescaped c := by
  simp [isPrintable, Unescaped, or_assoc, and_assoc]

/-- The only breaks that may stand unescaped are the newline and the two separators of Unicode. -/
theorem break_of_unescaped {c : Char} (h : Unescaped c) (hc : isBreak c = true) :
    c = '\n' ∨ c = '\u2028' ∨ c = '\u2029' := by
  simp only [isBreak, Bool.or_eq_true, beq_iff_eq] at hc
  rw [← isPrintable_iff] at h
  rcases hc with (((rfl | rfl) | rfl) | rfl) | rfl
  · exact .inl rfl
  · cases h
  · cases h
  · exact .inr (.inl rfl)
  · exact .inr (.inr rfl)

theorem isPrintable_of_digitValue? {c : Char} (h : (Text.digitValue? c).isSome = true) :
    isPrintable c = true := by
  have hascii : 0x30 ≤ c.toNat ∧ c.toNat ≤ 0x66 := by
    unfold Text.digitValue? at h
    split at h
    · next hc =>
      have hc : 0x30 ≤ c.toNat ∧ c.toNat ≤ 0x39 := hc
      omega
    split at h
    · next hc =>
      have hc : 0x61 ≤ c.toNat ∧ c.toNat ≤ 0x66 := hc
      omega
    split at h
    · next hc =>
      have hc : 0x41 ≤ c.toNat ∧ c.toNat ≤ 0x46 := hc
      omega
    · cases h
  rw [isPrintable_iff]
  exact .inr (.inl (by omega))

/-! ## Scalars -/

theorem printable_spaces (n : Nat) : (spaces n).all isPrintable = true := by
  have hspace : isPrintable ' ' = true := by decide
  simp [spaces, hspace]

theorem printable_escapeChar (c : Char) : (escapeChar c).all isPrintable = true :=
  all_escapeChar (by decide) (fun _ => isPrintable_of_digitValue?) fun _ hc => hc

theorem printable_indented {char : Char → List Char}
    (hchar : ∀ c, isPrintable c = true → (char c).all isPrintable = true) (n : Nat) (fresh : Bool)
    {cs : List Char} (hcs : cs.all isPrintable = true) :
    (indented n char fresh cs).all isPrintable = true := by
  induction cs generalizing fresh with
  | nil => rfl
  | cons c cs ih =>
    rw [List.all_cons, Bool.and_eq_true] at hcs
    rw [indented]
    split
    · rw [List.all_cons, hcs.1, ih true hcs.2]
      rfl
    · rw [List.all_append, List.all_append, hchar c hcs.1, ih false hcs.2]
      cases fresh <;> simp [printable_spaces]

theorem printable_singleQuoted (n : Nat) {cs : List Char} (hcs : cs.all isPrintable = true) :
    (singleQuoted n cs).all isPrintable = true := by
  have hquote : isPrintable '\'' = true := by decide
  have hchar (c : Char) (hc : isPrintable c = true) : (doubleQuote c).all isPrintable = true := by
    rw [doubleQuote]
    split <;> simp [hquote, hc]
  have hclosing : (if cs.getLast?.any isBreak then spaces n else []).all isPrintable = true := by
    split
    · exact printable_spaces n
    · rfl
  simp only [singleQuoted, List.all_append, List.all_cons, hquote, hclosing,
    printable_indented hchar n false hcs, List.all_nil, Bool.and_true]

theorem printable_doubleQuoted (cs : List Char) : (doubleQuoted cs).all isPrintable = true := by
  have hquote : isPrintable '"' = true := by decide
  have hchars : (cs.flatMap escapeChar).all isPrintable = true := by
    rw [List.all_flatMap]
    exact List.all_eq_true.2 fun c _ => printable_escapeChar c
  simp [doubleQuoted, hquote, hchars]

theorem printable_literal (n : Nat) {cs : List Char} (hcs : cs.all isPrintable = true) :
    (literal n cs).all isPrintable = true := by
  have hheader : ('|' :: indentHint cs ++ (chomping cs).sign ++ ['\n']).all isPrintable = true := by
    rw [indentHint]
    split <;> cases chomping cs <;> decide
  have hchar (c : Char) (hc : isPrintable c = true) : [c].all isPrintable = true := by simp [hc]
  have hlines := printable_indented hchar n true hcs
  have hsplit : literal n cs =
      ('|' :: indentHint cs ++ (chomping cs).sign ++ ['\n']) ++
        indented n (fun c => [c]) true cs := by
    simp [literal]
  rw [hsplit, List.all_append, hheader, hlines]
  rfl

/-- A text with a character that may not stand unescaped is written in double quotes. -/
theorem printable_of_styleOf_ne_double {cs : List Char} (h : styleOf cs ≠ .double) :
    cs.all isPrintable = true := by
  have hspecial : isSpecial cs = false := by
    cases hstyle : styleOf cs with
    | plain =>
      have hplain := (plainAllowed_of_styleOf hstyle).2
      rw [plainAllowed] at hplain
      simp_all
    | single =>
      have hsingle := singleAllowed_of_styleOf hstyle
      rw [singleAllowed] at hsingle
      simp_all
    | literal =>
      have hliteral := (literalAllowed_of_styleOf hstyle).2
      rw [literalAllowed] at hliteral
      simp_all
    | double => exact absurd hstyle h
  rw [isSpecial, Bool.or_eq_false_iff] at hspecial
  rw [List.all_eq_true]
  intro c hc
  simpa using List.any_eq_false.1 hspecial.1 c hc

/-- What is written of a text may stand unescaped. -/
theorem printable_scalar (n : Nat) (cs : List Char) : (scalar n cs).all isPrintable = true := by
  have hprintable : styleOf cs ≠ .double → cs.all isPrintable = true :=
    printable_of_styleOf_ne_double
  rw [scalar]
  cases hstyle : styleOf cs with
  | plain => exact hprintable (by simp [hstyle])
  | single => exact printable_singleQuoted n (hprintable (by simp [hstyle]))
  | double => exact printable_doubleQuoted cs
  | literal => exact printable_literal n (hprintable (by simp [hstyle]))

theorem printable_scalarLines (n : Nat) (cs : List Char) :
    (scalarLines n cs).all isPrintable = true := by
  have hend : (if styleOf cs = .literal ∧ chomping cs ≠ .strip then [] else ['\n']).all
      isPrintable = true := by
    split <;> decide
  rw [scalarLines, List.all_append, printable_scalar, hend]
  rfl

/-! ## Trees -/

theorem Piece.printable {p : Piece} (h : p.WellMarked) : p.text.all isPrintable = true := by
  cases p with
  | mark cs =>
    have hmarks : [' ', '\n', ':', '-', '?', '[', ']', '\x7b', '\x7d'].all isPrintable = true := by
      decide
    rw [WellMarked, isMark, List.all_eq_true] at h
    exact List.all_eq_true.2 fun c hc => List.all_eq_true.1 hmarks c (of_decide_eq_true (h c hc))
  | key column s => exact printable_scalar (column + 2) s.toList
  | lines column s => exact printable_scalarLines (column + 2) s.toList

theorem Shows.printable {ps : List Piece} {cs : List Char} {strings : List String}
    (h : Shows ps cs strings) : cs.all isPrintable = true := by
  rw [← h.text, List.all_flatMap]
  exact List.all_eq_true.2 fun p hp => Piece.printable (h.marks p hp)

end OperatorRules.Yaml
