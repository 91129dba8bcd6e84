import OperatorRules.Json.Reader
import OperatorRules.Proofs.Text.Digits

/-!
# Numbers in texts

`Numeral.Regular` is the grammar of a number as it is written. Whatever regular numeral stands in a
text, the reader finds that numeral, unless what follows could go on with it
(`scanNumeral_append`); and the text of every number, integer or real, is a regular numeral
(`Number.exists_numeral`). What number is read there is left open: a real may be read as its
neighbour.
-/

namespace OperatorRules.Json

open Text

/-! ## Numerals as they are written -/

/-- The fraction as it is written. -/
def fractionChars : Option (List Char) → List Char
  | none => []
  | some ds => '.' :: ds

/-- The exponent as it is written, its sign always shown. -/
def exponentChars : Option (Bool × List Char) → List Char
  | none => []
  | some (negative, ds) => 'e' :: (if negative then '-' else '+') :: ds

/-- The digits of a part of a number, at least one. -/
structure Digits (ds : List Char) : Prop where
  ne_nil : ds ≠ []
  isDigit : ∀ c ∈ ds, isDigit c = true

namespace Numeral

/-- The number as it is written. -/
def chars (n : Numeral) : List Char :=
  (if n.negative then ['-'] else []) ++ (n.whole ++ (fractionChars n.fraction ++
    exponentChars n.exponent))

/-- Every part has its digits, and no zero stands in front of other digits. -/
structure Regular (n : Numeral) : Prop where
  whole : Digits n.whole
  leading : n.whole = ['0'] ∨ n.whole.head? ≠ some '0'
  fraction : ∀ ds, n.fraction = some ds → Digits ds
  exponent : ∀ negative ds, n.exponent = some (negative, ds) → Digits ds

/-- A numeral starts with a minus sign or a digit. -/
theorem Regular.starts {n : Numeral} (h : n.Regular) :
    ∃ c cs, n.chars = c :: cs ∧ (c = '-' ∨ Text.isDigit c = true) := by
  obtain ⟨negative, whole, fraction, exponent⟩ := n
  obtain ⟨c, ds, rfl⟩ := List.exists_cons_of_ne_nil h.whole.ne_nil
  cases negative with
  | true => exact ⟨'-', _, rfl, .inl rfl⟩
  | false => exact ⟨c, _, rfl, .inr (h.whole.isDigit c (List.mem_cons_self ..))⟩

end Numeral

/-- What could not go on with a numeral. -/
def EndsNumeral (cs : List Char) : Prop :=
  ∀ c, cs.head? = some c → isDigit c = false ∧ c ≠ '.' ∧ c ≠ 'e' ∧ c ≠ 'E'

/-! ## Reading a numeral -/

theorem scanSomeDigits_append {ds r : List Char} (hds : Digits ds)
    (hr : ∀ c, r.head? = some c → isDigit c = false) :
    scanSomeDigits (ds ++ r) = .ok (ds, r) := by
  rw [scanSomeDigits, splitDigits_append hds.isDigit hr]
  cases ds with
  | nil => exact absurd rfl hds.ne_nil
  | cons => rfl

theorem scanWhole_append {ds r : List Char} (hds : Digits ds)
    (hleading : ds = ['0'] ∨ ds.head? ≠ some '0')
    (hr : ∀ c, r.head? = some c → isDigit c = false) : scanWhole (ds ++ r) = .ok (ds, r) := by
  rw [scanWhole, scanSomeDigits_append hds hr]
  split
  · next h =>
    cases h
    rcases hleading with h | h
    · cases h
    · exact absurd rfl h
  · rfl

theorem scanFraction_append {fraction : Option (List Char)} {r : List Char}
    (hfraction : ∀ ds, fraction = some ds → Digits ds)
    (hr : ∀ c, r.head? = some c → isDigit c = false ∧ c ≠ '.') :
    scanFraction (fractionChars fraction ++ r) = .ok (fraction, r) := by
  cases fraction with
  | none =>
    rw [fractionChars, List.nil_append, scanFraction.eq_def]
    split
    · exact absurd rfl (hr _ rfl).2
    · rfl
  | some ds =>
    rw [fractionChars, List.cons_append, scanFraction,
      scanSomeDigits_append (hfraction ds rfl) fun c hc => (hr c hc).1]
    rfl

theorem scanExponent_append {exponent : Option (Bool × List Char)} {r : List Char}
    (hexponent : ∀ negative ds, exponent = some (negative, ds) → Digits ds) (hr : EndsNumeral r) :
    scanExponent (exponentChars exponent ++ r) = .ok (exponent, r) := by
  cases exponent with
  | none =>
    cases r with
    | nil => rfl
    | cons c r =>
      have hc : ¬ (c = 'e' ∨ c = 'E') := not_or.2 (hr c rfl).2.2
      rw [exponentChars, List.nil_append, scanExponent, if_neg hc]
  | some p =>
    obtain ⟨negative, ds⟩ := p
    have hscan := scanSomeDigits_append (hexponent negative ds rfl) fun c hc => (hr c hc).1
    cases negative <;>
      simp [exponentChars, scanExponent, scanExponentSign, hscan, Except.map]

theorem head?_exponentChars_append (exponent : Option (Bool × List Char)) {r : List Char}
    (hr : EndsNumeral r) (c : Char) (hc : (exponentChars exponent ++ r).head? = some c) :
    isDigit c = false ∧ c ≠ '.' := by
  cases exponent with
  | none => exact ⟨(hr c hc).1, (hr c hc).2.1⟩
  | some p =>
    obtain rfl := Option.some.inj hc
    decide

theorem head?_fractionChars_append (fraction : Option (List Char)) {r : List Char}
    (hr : ∀ c, r.head? = some c → isDigit c = false) (c : Char)
    (hc : (fractionChars fraction ++ r).head? = some c) : isDigit c = false := by
  cases fraction with
  | none => exact hr c hc
  | some ds =>
    obtain rfl := Option.some.inj hc
    decide

/-- A numeral is found in front of whatever does not go on with it. -/
theorem scanNumeral_append {n : Numeral} (hn : n.Regular) {r : List Char} (hr : EndsNumeral r) :
    scanNumeral (n.chars ++ r) = .ok (n, r) := by
  obtain ⟨negative, whole, fraction, exponent⟩ := n
  obtain ⟨hdigits, hleading, hfraction, hexponent⟩ := hn
  have hpoint := head?_exponentChars_append exponent hr
  have hscanExponent := scanExponent_append hexponent hr
  have hscanFraction := scanFraction_append hfraction hpoint
  have hscanWhole := scanWhole_append hdigits hleading
    (head?_fractionChars_append fraction fun c hc => (hpoint c hc).1)
  have hchars : Numeral.chars ⟨negative, whole, fraction, exponent⟩ ++ r =
      (if negative then ['-'] else []) ++
        (whole ++ (fractionChars fraction ++ (exponentChars exponent ++ r))) := by
    simp [Numeral.chars]
  rw [hchars]
  cases negative with
  | true =>
    simp [scanNumeral, hscanWhole, hscanFraction, hscanExponent, bind, Except.bind, pure,
      Except.pure]
  | false =>
    -- the first digit is no sign
    obtain ⟨c, ds, rfl⟩ := List.exists_cons_of_ne_nil hdigits.ne_nil
    have hc : c ≠ '-' := by
      rintro rfl
      exact absurd (hdigits.isDigit '-' (List.mem_cons_self ..)) (by decide)
    rw [List.cons_append] at hscanWhole
    simp [scanNumeral, hc, hscanWhole, hscanFraction, hscanExponent, bind, Except.bind, pure,
      Except.pure]

end OperatorRules.Json

/-! ## Shortest decimals -/

namespace OperatorRules.Decimal.Double

variable {x : Double}

/-- Zero is not among the decimals of another number. -/
theorem readsBack_zero (hx : x.mantissa ≠ 0) (k : Int) : x.readsBack ⟨0, k⟩ = false := by
  have hlow : compareScaled 0 k (4 * x.mantissa - if x.narrowBelow then 1 else 2)
      (x.exponent - 2) = .lt := by
    have hpos : 0 < 4 * x.mantissa - if x.narrowBelow then 1 else 2 := by split <;> omega
    rw [compareScaled, Nat.zero_mul, Nat.zero_mul]
    exact Nat.compare_eq_lt.2 (Nat.mul_pos (Nat.mul_pos hpos (Nat.pow_pos (by decide)))
      (Nat.pow_pos (by decide)))
  simp [readsBack, hlow]

theorem onGrid?_significand (hx : x.mantissa ≠ 0) {k : Int} {d : Scientific}
    (h : x.onGrid? k = some d) : d.significand ≠ 0 := by
  have hbelow (hreads : x.readsBack ⟨x.stepsOfTen k, k⟩ = true) : x.stepsOfTen k ≠ 0 := by
    intro hzero
    rw [hzero, readsBack_zero hx] at hreads
    cases hreads
  simp only [onGrid?] at h
  split at h
  · next hreads _ =>
    cases h
    have hne := hbelow hreads
    unfold nearer
    split
    · exact Nat.succ_ne_zero _
    · exact hne
    · split
      · exact hne
      · exact Nat.succ_ne_zero _
  · next hreads _ => cases h; exact hbelow hreads
  · cases h; exact Nat.succ_ne_zero _
  · cases h

/-- The exact value has at least as many steps as its mantissa. -/
theorem stepsOfTen_ne_zero (hx : x.mantissa ≠ 0) : x.stepsOfTen (min x.exponent 0) ≠ 0 := by
  have hwhole : (min x.exponent 0).toNat = 0 := by omega
  have hsmall : (-min x.exponent 0).toNat = (-x.exponent).toNat := by omega
  have hpow (n : Nat) : Nat.pow 2 n ≤ Nat.pow 10 n := Nat.pow_le_pow_left (by decide) n
  have hsteps : 0 < x.mantissa * Nat.pow 2 x.exponent.toNat :=
    Nat.mul_pos (Nat.pos_of_ne_zero hx) (Nat.pow_pos (by decide))
  rw [stepsOfTen, hwhole, hsmall]
  refine Nat.ne_of_gt (Nat.div_pos ?_ (Nat.mul_pos (Nat.pow_pos (by decide)) (by decide)))
  calc Nat.pow 2 (-x.exponent).toNat * Nat.pow 10 0
      ≤ 1 * Nat.pow 10 (-x.exponent).toNat := by simpa using hpow _
    _ ≤ x.mantissa * Nat.pow 2 x.exponent.toNat * Nat.pow 10 (-x.exponent).toNat :=
      Nat.mul_le_mul_right _ hsteps

theorem searchGrid_significand (hx : x.mantissa ≠ 0) (magnitude : Int) (left : Nat) :
    (x.searchGrid magnitude left).significand ≠ 0 := by
  induction left with
  | zero => exact stepsOfTen_ne_zero hx
  | succ left ih =>
    rw [searchGrid]
    split
    · next h => exact onGrid?_significand hx h
    · exact ih

theorem stripZeros_significand (steps : Nat) {d : Scientific} (hd : d.significand ≠ 0) :
    (stripZeros steps d).significand ≠ 0 := by
  induction steps generalizing d with
  | zero => exact hd
  | succ steps ih =>
    rw [stripZeros]
    split
    · exact ih (d := ⟨d.significand / 10, d.exponent + 1⟩) (show d.significand / 10 ≠ 0 by omega)
    · exact hd

/-- The shortest decimal of zero is plain zero; that of another number has digits. -/
theorem shortest_regular (x : Double) : x.shortest.significand = 0 → x.shortest.exponent = 0 := by
  unfold shortest
  split
  · exact fun _ => rfl
  · next hx =>
    intro h
    exact absurd h (stripZeros_significand _ (searchGrid_significand hx _ _))

end OperatorRules.Decimal.Double

/-! ## The texts of numbers -/

namespace OperatorRules.Json

open Text

theorem Digits.of_decimal (n : Nat) : Digits (decimal n) :=
  ⟨decimal_ne_nil n, fun _ => isDigit_of_mem_decimal⟩

theorem Digits.append_zeros {ds : List Char} (h : Digits ds) (k : Nat) :
    Digits (ds ++ List.replicate k '0') := by
  refine ⟨by simp [h.ne_nil], fun c hc => ?_⟩
  rcases List.mem_append.1 hc with hc | hc
  · exact h.isDigit c hc
  · obtain rfl := List.eq_of_mem_replicate hc
    decide

theorem Digits.zeros_append {ds : List Char} (h : Digits ds) (k : Nat) :
    Digits (List.replicate k '0' ++ ds) := by
  refine ⟨by simp [h.ne_nil], fun c hc => ?_⟩
  rcases List.mem_append.1 hc with hc | hc
  · obtain rfl := List.eq_of_mem_replicate hc
    decide
  · exact h.isDigit c hc

theorem Digits.take {ds : List Char} (h : Digits ds) {k : Nat} (hk : 0 < k) :
    Digits (ds.take k) := by
  refine ⟨?_, fun c hc => h.isDigit c (List.mem_of_mem_take hc)⟩
  rw [Ne, List.take_eq_nil_iff]
  exact not_or.2 ⟨by omega, h.ne_nil⟩

theorem Digits.drop {ds : List Char} (h : Digits ds) {k : Nat} (hk : k < ds.length) :
    Digits (ds.drop k) := by
  refine ⟨?_, fun c hc => h.isDigit c (List.mem_of_mem_drop hc)⟩
  rw [Ne, List.drop_eq_nil_iff]
  omega

theorem decimal_zero : decimal 0 = ['0'] := by
  rw [decimal, digits]
  rfl

namespace Numeral

theorem regular_point {whole fraction : List Char} (hwhole : Digits whole)
    (hleading : whole = ['0'] ∨ whole.head? ≠ some '0') (hfraction : Digits fraction) :
    Regular ⟨false, whole, some fraction, none⟩ where
  whole := hwhole
  leading := hleading
  fraction _ h := Option.some.inj h ▸ hfraction
  exponent _ _ h := by cases h

theorem regular_exponent {ds : List Char} (hds : Digits ds) (negative : Bool) (e : Nat) :
    Regular ⟨false, ds.take 1, if ds.length = 1 then none else some (ds.drop 1),
      some (negative, decimal e)⟩ where
  whole := hds.take Nat.one_pos
  leading := by
    obtain ⟨c, ds, rfl⟩ := List.exists_cons_of_ne_nil hds.ne_nil
    by_cases hc : c = '0'
    · exact .inl (by rw [hc]; rfl)
    · exact .inr fun h => hc (Option.some.inj h)
  fraction fs h := by
    have hlength := List.length_pos_iff.2 hds.ne_nil
    split at h
    · cases h
    · obtain rfl := Option.some.inj h
      exact hds.drop (by omega)
  exponent _ _ h := by
    cases h
    exact .of_decimal e

end Numeral

/-- In any layout a decimal is a numeral, if it has digits or is plain zero. -/
theorem exists_numeral_of_decimal (l : Decimal.Layout) {d : Decimal.Scientific}
    (hd : d.significand = 0 → d.exponent = 0) :
    ∃ n : Numeral, n.negative = false ∧ n.Regular ∧ d.chars l = n.chars := by
  have hds := Digits.of_decimal d.significand
  have hhead (h : d.significand ≠ 0) := head?_decimal_ne h
  simp only [Decimal.Scientific.chars]
  generalize hfirst : d.exponent + (decimal d.significand).length - 1 = first
  split
  · split
    · -- all digits stand behind the point
      refine ⟨⟨false, ['0'], some (List.replicate (-first - 1).toNat '0' ++ decimal d.significand),
        none⟩, rfl, Numeral.regular_point ⟨by simp, by simp; decide⟩ (.inl rfl) ?_, ?_⟩
      · exact hds.zeros_append _
      · simp [Numeral.chars, fractionChars, exponentChars]
    split
    · -- the point stands among the digits
      next hexponent =>
      refine ⟨⟨false, (decimal d.significand).take (first + 1).toNat,
        some ((decimal d.significand).drop (first + 1).toNat), none⟩, rfl,
        Numeral.regular_point (hds.take (by omega)) (.inr ?_) (hds.drop (by omega)), ?_⟩
      · rw [List.head?_take, if_neg (by omega)]
        exact hhead (by omega)
      · simp [Numeral.chars, fractionChars, exponentChars]
    · -- zeros are filled in before the point
      refine ⟨⟨false, decimal d.significand ++ List.replicate d.exponent.toNat '0', some ['0'],
        none⟩, rfl, Numeral.regular_point (hds.append_zeros _) ?_ ⟨by simp, by simp; decide⟩, ?_⟩
      · by_cases hzero : d.significand = 0
        · left
          rw [hzero, hd hzero, decimal_zero]
          rfl
        · right
          rw [List.head?_append, Option.or_of_isSome (by simp [hds.ne_nil])]
          exact hhead hzero
      · simp [Numeral.chars, fractionChars, exponentChars]
  · refine ⟨_, rfl, Numeral.regular_exponent hds (decide (first < 0)) first.natAbs, ?_⟩
    simp only [Numeral.chars, exponentChars]
    split <;> simp [fractionChars]

/-- The text of a number is a numeral. -/
theorem Number.exists_numeral (x : Number) : ∃ n : Numeral, n.Regular ∧ x.chars = n.chars := by
  cases x with
  | integer i =>
    have hleading (n : Nat) : decimal n = ['0'] ∨ (decimal n).head? ≠ some '0' := by
      by_cases hn : n = 0
      · exact .inl (hn ▸ decimal_zero)
      · exact .inr (head?_decimal_ne hn)
    cases i with
    | ofNat n =>
      refine ⟨⟨false, decimal n, none, none⟩, ⟨.of_decimal n, hleading n, by simp, by simp⟩, ?_⟩
      simp [chars, signedDecimal, Numeral.chars, fractionChars, exponentChars]
    | negSucc n =>
      refine ⟨⟨true, decimal (n + 1), none, none⟩, ⟨.of_decimal _, hleading _, by simp, by simp⟩,
        ?_⟩
      simp [chars, signedDecimal, Numeral.chars, fractionChars, exponentChars]
  | real negative x =>
    obtain ⟨⟨_, whole, fraction, exponent⟩, rfl, hn, hchars⟩ :=
      exists_numeral_of_decimal .standard x.shortest_regular
    refine ⟨⟨negative, whole, fraction, exponent⟩, ⟨hn.1, hn.2, hn.3, hn.4⟩, ?_⟩
    rw [chars, hchars]
    rfl

end OperatorRules.Json
