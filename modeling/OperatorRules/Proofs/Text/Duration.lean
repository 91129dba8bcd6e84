import Mathlib.Algebra.Order.Field.Basic
import Mathlib.Data.Rat.Cast.Order
import OperatorRules.Proofs.Text.Digits
import OperatorRules.Text.Duration

/-!
# Durations as decimal numbers

The text of a duration is a decimal number and a unit that say exactly how long it is, without a
zero at the end of the fraction and in the largest unit that fits (`shows_text`). Reading it back
gives the duration (`read?_text`), so different durations have different texts (`text_injective`).
-/

namespace OperatorRules

open Text

namespace Duration

/-! ## Fractions -/

section
variable {places n : Nat}

theorem fractionDigits_zero (places : Nat) : fractionDigits places 0 = [] := by
  cases places <;> rfl

theorem fractionDigits_succ (places : Nat) (hn : n ≠ 0) :
    fractionDigits (places + 1) n =
      digitChar (n / 10 ^ places) :: fractionDigits places (n % 10 ^ places) := if_neg hn

theorem firstPlace_lt (h : n < 10 ^ (places + 1)) : n / 10 ^ places < 10 := by
  rw [Nat.pow_succ] at h
  exact Nat.div_lt_of_lt_mul h

theorem laterPlaces_lt (places n : Nat) : n % 10 ^ places < 10 ^ places :=
  Nat.mod_lt n (Nat.pow_pos (by decide))

theorem length_fractionDigits_le (places n : Nat) : (fractionDigits places n).length ≤ places := by
  induction places generalizing n with
  | zero => exact Nat.le_refl 0
  | succ places ih =>
    by_cases hn : n = 0
    · rw [hn, fractionDigits_zero]
      exact Nat.zero_le _
    · rw [fractionDigits_succ places hn]
      exact Nat.succ_le_succ (ih _)

theorem isDigit_of_mem_fractionDigits (h : n < 10 ^ places) {c : Char}
    (hc : c ∈ fractionDigits places n) : isDigit c = true := by
  induction places generalizing n with
  | zero => cases hc
  | succ places ih =>
    by_cases hn : n = 0
    · rw [hn, fractionDigits_zero] at hc
      cases hc
    · rw [fractionDigits_succ places hn] at hc
      rcases List.mem_cons.1 hc with rfl | hc
      · exact isDigit_digitChar (firstPlace_lt h)
      · exact ih (laterPlaces_lt places n) hc

/-- Nothing is written exactly where nothing is left. -/
theorem fractionDigits_eq_nil_iff (h : n < 10 ^ places) :
    fractionDigits places n = [] ↔ n = 0 := by
  constructor
  · intro hnil
    cases places with
    | zero => exact Nat.lt_one_iff.1 h
    | succ places =>
      by_contra hn
      rw [fractionDigits_succ places hn] at hnil
      cases hnil
  · rintro rfl
    exact fractionDigits_zero places

/-- The digits end with the last place that is not zero. -/
theorem getLast?_fractionDigits_ne (h : n < 10 ^ places) :
    (fractionDigits places n).getLast? ≠ some '0' := by
  induction places generalizing n with
  | zero => simp [fractionDigits]
  | succ places ih =>
    by_cases hn : n = 0
    · simp [hn, fractionDigits_zero]
    rw [fractionDigits_succ places hn]
    have hlater := laterPlaces_lt places n
    by_cases hrest : n % 10 ^ places = 0
    · -- the place is the last one, and the number has nothing beside it
      have hplace : n / 10 ^ places ≠ 0 := by
        intro hzero
        have hsplit := Nat.div_add_mod n (10 ^ places)
        rw [hzero, hrest] at hsplit
        exact hn hsplit.symm
      rw [hrest, fractionDigits_zero, List.getLast?_singleton]
      exact fun hlast => digitChar_ne_zero (firstPlace_lt h) hplace (Option.some.inj hlast)
    · have hne : fractionDigits places (n % 10 ^ places) ≠ [] :=
        mt (fractionDigits_eq_nil_iff hlater).1 hrest
      rw [List.getLast?_cons_of_ne_nil hne]
      exact ih hlater

/-- Behind a numeral of value `v`, the digits stand for the fraction as far as they go. -/
theorem ofDigitsFrom_fractionDigits (v : Nat) (h : n < 10 ^ places) :
    ∃ w, ofDigitsFrom 10 v (fractionDigits places n) = some w ∧
      w * 10 ^ (places - (fractionDigits places n).length) = v * 10 ^ places + n := by
  induction places generalizing v n with
  | zero =>
    obtain rfl : n = 0 := Nat.lt_one_iff.1 h
    exact ⟨v, rfl, rfl⟩
  | succ places ih =>
    by_cases hn : n = 0
    · rw [hn, fractionDigits_zero]
      exact ⟨v, rfl, rfl⟩
    have hdigit := firstPlace_lt h
    obtain ⟨w, hw, hvalue⟩ :=
      ih (v * 10 + n / 10 ^ places) (laterPlaces_lt places n)
    refine ⟨w, ?_, ?_⟩
    · rw [fractionDigits_succ places hn, ofDigitsFrom,
        digitValue?_digitChar (Nat.lt_trans hdigit (by decide)), Option.bind_some, if_pos hdigit]
      exact hw
    · rw [fractionDigits_succ places hn, List.length_cons, Nat.add_sub_add_right, hvalue,
        Nat.add_mul, Nat.add_assoc, Nat.mul_assoc, ← Nat.pow_succ', Nat.mul_comm (n / _),
        Nat.div_add_mod]

end

/-! ## Units -/

/-- The length of a unit in nanoseconds. -/
def Scale.nanos (u : Scale) : Nat := 10 ^ u.places

/-- A duration as a number of units. -/
def inUnits (d : Duration) (u : Scale) : ℚ := d.totalNanos / u.nanos

theorem one_le_inUnits_iff {d : Duration} {u : Scale} :
    1 ≤ d.inUnits u ↔ u.nanos ≤ d.totalNanos := by
  have hpos : (0 : ℚ) < u.nanos := Nat.cast_pos.2 (Nat.pow_pos (by decide))
  rw [inUnits, one_le_div hpos, Nat.cast_le]

theorem totalNanos_injective : Function.Injective totalNanos := by
  rintro ⟨s, n, hn⟩ ⟨s', n', hn'⟩ h
  simp only [totalNanos] at h
  obtain rfl : s = s' := UInt64.toNat_inj.1 (by omega)
  obtain rfl : n = n' := by omega
  rfl

/-- The unit of a duration, as its length decides on it. -/
theorem scale_eq (d : Duration) :
    d.scale = if Scale.second.nanos ≤ d.totalNanos then .second
      else if Scale.milli.nanos ≤ d.totalNanos then .milli
      else if Scale.micro.nanos ≤ d.totalNanos then .micro
      else .nano := by
  have hnanos := d.nanos_lt
  have hseconds : 0 < d.seconds ↔ 0 < d.seconds.toNat := UInt64.lt_iff_toNat_lt
  rw [scale]
  by_cases h : 0 < d.seconds
  · have hlong : Scale.second.nanos ≤ d.totalNanos := by
      rw [hseconds] at h
      simp only [Scale.nanos, Scale.places, totalNanos]
      omega
    rw [if_pos h, if_pos hlong]
  · have htotal : d.totalNanos = d.nanos := by
      rw [hseconds] at h
      rw [totalNanos]
      omega
    have hshort : ¬ Scale.second.nanos ≤ d.nanos := by
      simp only [Scale.nanos, Scale.places]
      omega
    rw [htotal, if_neg h, if_neg hshort]
    rfl

/-- The units that fit into a duration are those up to its own. -/
theorem nanos_le_totalNanos_iff {d : Duration} (hd : d.totalNanos ≠ 0) (u : Scale) :
    u.nanos ≤ d.totalNanos ↔ u.nanos ≤ d.scale.nanos := by
  rw [scale_eq]
  generalize d.totalNanos = total at hd
  -- which units fit is a comparison of numbers, whichever of them is the largest
  repeat' split
  all_goals cases u <;> simp only [Scale.nanos, Scale.places] at * <;> omega

theorem scale_of_totalNanos_eq_zero {d : Duration} (hd : d.totalNanos = 0) : d.scale = .nano := by
  rw [scale_eq, hd]
  rfl

/-! ## The text of a duration -/

/-- How a fraction stands behind a whole number. -/
def point : List Char → List Char
  | [] => []
  | ds => '.' :: ds

/-- The text is a decimal number and a unit, and says how long the duration is: the number has no
zero at the end of its fraction, and in no larger unit would it be at least one. -/
structure Shows (d : Duration) (cs whole fraction : List Char) (u : Scale) : Prop where
  text_eq : cs = whole ++ point fraction ++ u.name
  digits : ∀ c ∈ whole ++ fraction, isDigit c = true
  whole_ne_nil : whole ≠ []
  getLast?_ne : fraction.getLast? ≠ some '0'
  value : ∃ n : Nat, ofDigits? 10 (whole ++ fraction) = some n ∧
    (n : ℚ) / 10 ^ fraction.length = d.inUnits u
  largest : 1 ≤ d.inUnits u ∧ (∀ u' : Scale, 1 ≤ d.inUnits u' → u'.nanos ≤ u.nanos) ∨
    d.totalNanos = 0 ∧ u = .nano

/-- The whole units in a duration. -/
def whole (d : Duration) : List Char := decimal (d.totalNanos / d.scale.nanos)

/-- What is left of the unit, in decimal places. -/
def fraction (d : Duration) : List Char :=
  fractionDigits d.scale.places (d.totalNanos % d.scale.nanos)

theorem chars_eq (d : Duration) : d.chars = d.whole ++ point d.fraction ++ d.scale.name := rfl

theorem isDigit_of_mem_whole {d : Duration} {c : Char} (hc : c ∈ d.whole) : isDigit c = true :=
  isDigit_of_mem_decimal hc

theorem isDigit_of_mem_fraction {d : Duration} {c : Char} (hc : c ∈ d.fraction) :
    isDigit c = true :=
  isDigit_of_mem_fractionDigits (laterPlaces_lt _ _) hc

theorem length_fraction_le (d : Duration) : d.fraction.length ≤ d.scale.places :=
  length_fractionDigits_le _ _

/-- All digits together, filled up with zeros to the places of the unit, are the nanoseconds. -/
theorem exists_ofDigits?_eq (d : Duration) :
    ∃ n, ofDigits? 10 (d.whole ++ d.fraction) = some n ∧
      n * 10 ^ (d.scale.places - d.fraction.length) = d.totalNanos := by
  have hwhole : ofDigitsFrom 10 0 d.whole = some (d.totalNanos / d.scale.nanos) := by
    rw [← ofDigits?_eq]
    exact ofDigits?_digits (by decide) (by decide) _
  obtain ⟨n, hn, hvalue⟩ :=
    ofDigitsFrom_fractionDigits (d.totalNanos / d.scale.nanos) (laterPlaces_lt d.scale.places
      d.totalNanos)
  refine ⟨n, ?_, ?_⟩
  · rw [ofDigits?_eq, ofDigitsFrom_append, hwhole]
    exact hn
  · rw [fraction, Scale.nanos, hvalue, Nat.mul_comm]
    exact Nat.div_add_mod ..

theorem shows_chars (d : Duration) : d.Shows d.chars d.whole d.fraction d.scale where
  text_eq := d.chars_eq
  digits := by
    rw [List.forall_mem_append]
    exact ⟨fun _ => isDigit_of_mem_whole, fun _ => isDigit_of_mem_fraction⟩
  whole_ne_nil := decimal_ne_nil _
  getLast?_ne := getLast?_fractionDigits_ne (laterPlaces_lt _ _)
  value := by
    obtain ⟨n, hn, hvalue⟩ := d.exists_ofDigits?_eq
    refine ⟨n, hn, ?_⟩
    have hplaces : d.scale.nanos =
        10 ^ (d.scale.places - d.fraction.length) * 10 ^ d.fraction.length := by
      rw [← Nat.pow_add, Nat.sub_add_cancel d.length_fraction_le, Scale.nanos]
    have hpow : ((10 ^ (d.scale.places - d.fraction.length) : Nat) : ℚ) ≠ 0 :=
      Nat.cast_ne_zero.2 (Nat.pow_pos (by decide)).ne'
    rw [inUnits, hplaces, ← hvalue, Nat.cast_mul, Nat.cast_mul, mul_comm (n : ℚ),
      mul_div_mul_left _ _ hpow, Nat.cast_pow, Nat.cast_ofNat]
  largest := by
    by_cases hd : d.totalNanos = 0
    · exact .inr ⟨hd, scale_of_totalNanos_eq_zero hd⟩
    · simp only [one_le_inUnits_iff, nanos_le_totalNanos_iff hd]
      exact .inl ⟨Nat.le_refl _, fun _ hu => hu⟩

-- just below a second, and just below a microsecond
example : Duration.text { seconds := 0, nanos := 999999999 } = "999.999999ms" ∧
    Duration.text { seconds := 0, nanos := 999 } = "999ns" := by decide +kernel

/-! ## Reading -/

theorem ofName?_name (u : Scale) : Scale.ofName? u.name = some u := by
  cases u <;> rfl

theorem splitDecimal_append {whole fraction rest : List Char}
    (hwhole : ∀ c ∈ whole, isDigit c = true) (hfraction : ∀ c ∈ fraction, isDigit c = true)
    (hrest : ∀ c, rest.head? = some c → isDigit c = false ∧ c ≠ '.') :
    splitDecimal (whole ++ point fraction ++ rest) = (whole, fraction, rest) := by
  have hstop : ∀ c, rest.head? = some c → isDigit c = false := fun c hc => (hrest c hc).1
  rw [splitDecimal]
  cases fraction with
  | nil =>
    rw [point, List.append_nil, splitDigits_append hwhole hstop]
    cases rest with
    | nil => rfl
    | cons c rest =>
      have hne : c ≠ '.' := (hrest c rfl).2
      dsimp only
      split
      · next h => exact absurd (List.cons.inj h).1 hne
      · rfl
  | cons c fraction =>
    have hpoint : ∀ e, ('.' :: c :: fraction ++ rest).head? = some e → isDigit e = false := by
      rintro e ⟨⟩
      rfl
    have hpointed : point (c :: fraction) = '.' :: c :: fraction := rfl
    rw [hpointed, List.append_assoc, splitDigits_append hwhole hpoint]
    show (whole, splitDigits (c :: fraction ++ rest)) = _
    rw [splitDigits_append hfraction hstop]

/-- Reading the text gives the duration. -/
theorem read?_chars (d : Duration) : read? d.chars = some d.totalNanos := by
  have hname : ∀ c, d.scale.name.head? = some c → isDigit c = false ∧ c ≠ '.' := by
    cases d.scale <;> rintro c ⟨⟩ <;> decide
  have hsplit : splitDecimal d.chars = (d.whole, d.fraction, d.scale.name) :=
    splitDecimal_append (fun _ => isDigit_of_mem_whole) (fun _ => isDigit_of_mem_fraction) hname
  obtain ⟨n, hn, hvalue⟩ := d.exists_ofDigits?_eq
  have hwhole : d.whole.isEmpty = false := by
    rw [List.isEmpty_eq_false_iff]
    exact decimal_ne_nil _
  have hplaces : ¬ d.scale.places < d.fraction.length := Nat.not_lt.2 d.length_fraction_le
  rw [read?, hsplit, ← hvalue]
  simp [ofName?_name, hn, hwhole, hplaces]

theorem toList_text (d : Duration) : d.text.toList = d.chars := String.toList_ofList

theorem shows_text (d : Duration) : d.Shows d.text.toList d.whole d.fraction d.scale := by
  rw [toList_text]
  exact d.shows_chars

theorem read?_text (d : Duration) : read? d.text.toList = some d.totalNanos := by
  rw [toList_text]
  exact d.read?_chars

theorem text_injective : Function.Injective text := by
  intro d d' h
  have htotal : some d.totalNanos = some d'.totalNanos := by rw [← read?_text, h, read?_text]
  exact totalNanos_injective (Option.some.inj htotal)

end Duration

end OperatorRules
