import OperatorRules.Proofs.Yaml.Number
import OperatorRules.Proofs.Yaml.Reading

/-!
# What stands plain

A text that is written plainly can be taken neither for anything but a text nor for structure:
`StandsPlain` lists what it is not, and `standsPlain_of_styleOf` says that the choice of styles sees
to all of it.
-/

namespace OperatorRules.Yaml

/-- The text may stand plain: a reader takes it for a text, and for all of it. -/
structure StandsPlain (cs : List Char) : Prop where
  resolves : resolve cs = .text
  not_null : cs ≠ [] ∧ ∀ s ∈ nulls, cs ≠ s.toList
  not_boolean : ∀ s ∈ booleans, cs ≠ s.toList
  /-- The only integers are those that do not fit. -/
  not_integer : ∀ z, IntegerText cs z → z < -2 ^ 127 ∨ 2 ^ 128 ≤ z
  /-- The only decimal numbers are those that would be infinite. -/
  not_real : ∀ q, RealText cs q → overflowBound ≤ |q|
  not_special : (∀ sign, ∀ s ∈ infinities, cs ≠ signText sign ++ s.toList) ∧
    ∀ s ∈ nans, cs ≠ s.toList
  no_indicator : ∀ c t, cs = c :: t →
    c ∉ indicators ∧ (c ∈ blankIndicators → startsBlank t = false)
  /-- Neither the start nor the end of a document. -/
  no_marker : ¬ ['-', '-', '-'] <+: cs ∧ ¬ ['.', '.', '.'] <+: cs
  unbroken : ∀ c ∈ cs, isBreak c = false
  /-- No space that a reader would drop. -/
  no_edge : cs.head? ≠ some ' ' ∧ cs.getLast? ≠ some ' '
  /-- No colon that would end a key. -/
  no_colon : ∀ x y, cs = x ++ ':' :: y → startsBlank y = false
  /-- No hash that would start a comment. -/
  no_comment : ∀ x c y, cs = x ++ c :: '#' :: y → isBlank c = false

/-! ## What a text is not taken for -/

theorem ofList_mem_iff {cs : List Char} {l : List String} :
    String.ofList cs ∈ l ↔ ∃ s ∈ l, cs = s.toList := by
  constructor
  · exact fun h => ⟨_, h, String.toList_ofList.symm⟩
  · rintro ⟨s, hs, rfl⟩
    rwa [String.ofList_toList]

/-- What the reader ruled out before it took a scalar for a text. -/
theorem resolve_eq_text {cs : List Char} (h : resolve cs = .text) :
    cs ≠ [] ∧ String.ofList cs ∉ nulls ∧ String.ofList cs ∉ booleans ∧ isInteger cs = false ∧
      (isZeroLed cs = false → isFiniteReal cs = false ∧ isSpecialReal cs = false) := by
  unfold resolve at h
  split at h
  · cases h
  split at h
  · cases h
  split at h
  · cases h
  split at h
  · cases h
  · next hnull hbool hinteger hreal =>
    simp only [Bool.or_eq_true, decide_eq_true_eq, not_or, List.isEmpty_iff] at hnull
    refine ⟨hnull.1, hnull.2, hbool, by simpa using hinteger, fun hzero => ?_⟩
    simpa [hzero] using hreal

theorem not_special_of_isSpecialReal {cs : List Char} (h : isSpecialReal cs = false) :
    (∀ sign, ∀ s ∈ infinities, cs ≠ signText sign ++ s.toList) ∧ ∀ s ∈ nans, cs ≠ s.toList := by
  simp only [isSpecialReal, Bool.or_eq_false_iff, decide_eq_false_iff_not] at h
  refine ⟨fun sign s hs heq => h.1 ?_, fun s hs heq => h.2 (ofList_mem_iff.2 ⟨s, hs, heq⟩)⟩
  have hpoint : ∀ s ∈ infinities, ∃ t, s.toList = '.' :: t := by
    intro s hs
    simp only [infinities, List.mem_cons, List.not_mem_nil, or_false] at hs
    rcases hs with rfl | rfl | rfl <;> exact ⟨_, rfl⟩
  obtain ⟨t, ht⟩ := hpoint s hs
  rw [heq, ht, splitSign_append sign (by decide), ← ht]
  exact ofList_mem_iff.2 ⟨s, hs, rfl⟩

/-! ## What a text does not show -/

theorem anyNeighbours_append (p : Char → Char → Bool) (x : List Char) {c d : Char}
    (hcd : p c d = true) (y : List Char) : anyNeighbours p (x ++ c :: d :: y) = true := by
  induction x with
  | nil => rw [List.nil_append, anyNeighbours, hcd, Bool.true_or]
  | cons e x ih =>
    cases x with
    | nil => rw [List.singleton_append, anyNeighbours] at *; simp_all
    | cons f x => rw [List.cons_append, List.cons_append, anyNeighbours, ← List.cons_append, ih,
        Bool.or_true]

theorem isPrefixOf_eq_false_iff {x cs : List Char} : x.isPrefixOf cs = false ↔ ¬ x <+: cs := by
  rw [← List.isPrefixOf_iff_prefix, Bool.not_eq_true]

theorem StandsPlain.of_plainAllowed {cs : List Char} (hambiguous : isAmbiguous cs = false)
    (hallowed : plainAllowed cs = true) : StandsPlain cs := by
  rw [isAmbiguous, Bool.or_eq_false_iff, bne_eq_false_iff_eq] at hambiguous
  obtain ⟨hresolve, hzero⟩ := hambiguous
  obtain ⟨hne, hnull, hbool, hinteger, hreal⟩ := resolve_eq_text hresolve
  obtain ⟨hfinite, hspecial⟩ := hreal hzero
  simp only [plainAllowed, Bool.not_eq_true', Bool.or_eq_false_iff] at hallowed
  obtain ⟨⟨⟨⟨⟨-, hedge⟩, hbreak⟩, hstart⟩, hcolon⟩, hhash⟩ := hallowed
  refine
    { resolves := hresolve
      not_null := ⟨hne, fun s hs heq => hnull (ofList_mem_iff.2 ⟨s, hs, heq⟩)⟩
      not_boolean := fun s hs heq => hbool (ofList_mem_iff.2 ⟨s, hs, heq⟩)
      not_integer := fun z hz => ?_
      not_real := fun q hq => ?_
      not_special := not_special_of_isSpecialReal hspecial
      no_indicator := ?_
      no_marker := ?_
      unbroken := fun c hc => ?_
      no_edge := ?_
      no_colon := fun x y heq => ?_
      no_comment := fun x c y heq => ?_ }
  · by_contra hrange
    rw [not_or, not_lt, not_le] at hrange
    rw [isInteger_iff.2 ⟨hzero, z, hz, hrange⟩] at hinteger
    cases hinteger
  · by_contra hrange
    rw [isFiniteReal_iff.2 ⟨q, hq, not_le.1 hrange⟩] at hfinite
    cases hfinite
  · rintro c t rfl
    simp only [startsIndicator, Bool.or_eq_false_iff, Bool.and_eq_false_iff,
      decide_eq_false_iff_not] at hstart
    refine ⟨hstart.1.1.1, fun hc => ?_⟩
    exact hstart.1.1.2.resolve_left fun hnot => hnot hc
  · obtain ⟨c, t, rfl⟩ := List.exists_cons_of_ne_nil hne
    simp only [startsIndicator, Bool.or_eq_false_iff] at hstart
    exact ⟨isPrefixOf_eq_false_iff.1 hstart.1.2, isPrefixOf_eq_false_iff.1 hstart.2⟩
  · simpa using List.any_eq_false.1 hbreak c hc
  · have hspace : isSpaceOrBreak ' ' = true := by decide
    simp only [hasOpenEdge, Bool.or_eq_false_iff] at hedge
    constructor <;> intro h <;> simp [h, hspace] at hedge
  · rw [Bool.eq_false_iff]
    intro hy
    rw [heq, hasColonBlank_append x hy] at hcolon
    cases hcolon
  · rw [Bool.eq_false_iff]
    intro hc
    rw [heq, hasBlankHash, anyNeighbours_append _ x (by simp [hc]) y] at hhash
    cases hhash

/-- What is written plainly may stand plain. -/
theorem standsPlain_of_styleOf {cs : List Char} (h : styleOf cs = .plain) : StandsPlain cs :=
  .of_plainAllowed (plainAllowed_of_styleOf h).1 (plainAllowed_of_styleOf h).2

end OperatorRules.Yaml
