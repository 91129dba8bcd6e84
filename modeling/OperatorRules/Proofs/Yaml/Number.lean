import Mathlib.Algebra.Order.Field.Power
import Mathlib.Data.List.Induction
import Mathlib.Data.Rat.Cast.Order
import Mathlib.Tactic.GCongr
import Mathlib.Tactic.Ring
import OperatorRules.Proofs.Text.Digits
import OperatorRules.Yaml.Resolve

/-!
# Numbers as plain scalars

The numerals, integers and decimal numbers that a plain scalar may show, each with its value. The
reader takes just the texts of this grammar for numbers whose number is within its range:
`isInteger_iff`, `isFiniteReal_iff`. That a decimal number stays finite in double precision is
decided by the number of its places wherever these suffice; `Decimal.isFinite_iff` says that this
makes no difference.
-/

namespace OperatorRules.Yaml

open Text (digitValue? ofDigitsFrom isDigit splitDigits_append)

/-! ## The grammar -/

/-- The digits stand for the number in base `b`. -/
inductive Numeral (b : Nat) : List Char → Nat → Prop
  | digit {c : Char} {d : Nat} (hc : digitValue? c = some d) (hd : d < b) : Numeral b [c] d
  | snoc {cs : List Char} {n : Nat} {c : Char} {d : Nat} (h : Numeral b cs n)
      (hc : digitValue? c = some d) (hd : d < b) : Numeral b (cs ++ [c]) (n * b + d)

/-- A sign as it is written; true for minus. -/
def signText : Option Bool → List Char
  | none => []
  | some true => ['-']
  | some false => ['+']

/-- A number behind a sign. -/
def signed (sign : Option Bool) (n : Nat) : Int := if sign = some true then -n else n

/-- The bases of integers, with what announces them. -/
def bases : List (List Char × Nat) :=
  [([], 10), (['0', 'x'], 16), (['0', 'o'], 8), (['0', 'b'], 2)]

/-- The text is an integer. -/
inductive IntegerText : List Char → Int → Prop
  | of (sign : Option Bool) {announced : List Char} {b : Nat} (hb : (announced, b) ∈ bases)
      {ds : List Char} {n : Nat} (h : Numeral b ds n) :
      IntegerText (signText sign ++ (announced ++ ds)) (signed sign n)

/-- The text is the exponent of a decimal number, or there is none. -/
inductive ExponentText : List Char → Int → Prop
  | absent : ExponentText [] 0
  | of {mark : Char} (hmark : mark = 'e' ∨ mark = 'E') (sign : Option Bool) {ds : List Char}
      {n : Nat} (h : Numeral 10 ds n) : ExponentText (mark :: (signText sign ++ ds)) (signed sign n)

/-- The text is a decimal number: digits with or without a point among them or next to them, and an
exponent. -/
inductive RealText : List Char → ℚ → Prop
  | of (sign : Option Bool) {whole point fraction rest : List Char} {n : Nat} {e : Int}
      (hpoint : point = ['.'] ∨ point = [] ∧ fraction = [])
      (hdigits : Numeral 10 (whole ++ fraction) n) (hrest : ExponentText rest e) :
      RealText (signText sign ++ (whole ++ (point ++ (fraction ++ rest))))
        (signed sign n * 10 ^ (e - fraction.length))

/-! ## Digits -/

theorem isDigit_of_digitValue? {c : Char} {d : Nat} (hc : digitValue? c = some d) (hd : d < 10) :
    isDigit c = true := by
  unfold digitValue? at hc
  split at hc
  · next h => simpa [isDigit] using h
  -- the letters stand for ten and more
  all_goals simp only [Char.le_def, UInt32.le_iff_toNat_le] at *
  split at hc
  · next h =>
    have h97 : 97 ≤ c.toNat := h.1
    have hval := Option.some.inj hc
    omega
  split at hc
  · next h =>
    have h65 : 65 ≤ c.toNat := h.1
    have hval := Option.some.inj hc
    omega
  · cases hc

theorem digitValue?_of_isDigit {c : Char} (hc : isDigit c = true) :
    ∃ d, digitValue? c = some d ∧ d < 10 := by
  simp only [isDigit, Bool.and_eq_true, decide_eq_true_eq] at hc
  refine ⟨c.toNat - 48, by rw [digitValue?, if_pos hc], ?_⟩
  have hle : c.toNat ≤ 57 := hc.2
  omega

theorem eq_zero_of_digitValue? {c : Char} (hc : digitValue? c = some 0) : c = '0' := by
  have hdigit := isDigit_of_digitValue? hc (by decide)
  simp only [isDigit, Bool.and_eq_true, decide_eq_true_eq] at hdigit
  rw [digitValue?, if_pos hdigit] at hc
  have hle : c.toNat ≤ 48 := by
    have hval := Option.some.inj hc
    omega
  have hge : 48 ≤ c.toNat := hdigit.1
  exact Char.toNat_inj.1 (Nat.le_antisymm hle hge)

namespace Numeral

variable {b n : Nat} {cs : List Char}

theorem ne_nil (h : Numeral b cs n) : cs ≠ [] := by
  cases h <;> simp

theorem ofDigitsFrom_eq (h : Numeral b cs n) : ofDigitsFrom b 0 cs = some n := by
  induction h with
  | digit hc hd => simp [ofDigitsFrom, hc, hd]
  | snoc _ hc hd ih =>
    rw [Text.ofDigitsFrom_append, ih, Option.bind_some]
    simp [ofDigitsFrom, hc, hd]

theorem of_ofDigitsFrom (hcs : cs ≠ []) (h : ofDigitsFrom b 0 cs = some n) : Numeral b cs n := by
  induction cs using List.reverseRecOn generalizing n with
  | nil => exact absurd rfl hcs
  | append_singleton cs c ih =>
    rw [Text.ofDigitsFrom_append] at h
    obtain ⟨m, hm, hlast⟩ := Option.bind_eq_some_iff.1 h
    obtain ⟨d, hc, hlast⟩ := Option.bind_eq_some_iff.1 hlast
    split at hlast
    · next hd =>
      obtain rfl : m * b + d = n := Option.some.inj hlast
      by_cases hnil : cs = []
      · subst hnil
        obtain rfl : 0 = m := Option.some.inj hm
        rw [Nat.zero_mul, Nat.zero_add]
        exact .digit hc hd
      · exact .snoc (ih hnil hm) hc hd
    · cases hlast

theorem natural?_eq (h : Numeral b cs n) : natural? b cs = some n := by
  obtain ⟨c, ds, rfl⟩ := List.exists_cons_of_ne_nil h.ne_nil
  rw [natural?, Text.ofDigits?_eq]
  · exact h.ofDigitsFrom_eq
  · simp

theorem of_natural? (h : natural? b cs = some n) : Numeral b cs n := by
  cases cs with
  | nil => cases h
  | cons c cs =>
    refine of_ofDigitsFrom (by simp) ?_
    rw [natural?, Text.ofDigits?_eq] at h
    · exact h
    · simp

theorem exists_of_isDigit (hcs : cs ≠ []) (h : ∀ c ∈ cs, Text.isDigit c = true) :
    ∃ n, Numeral 10 cs n := by
  induction cs using List.reverseRecOn with
  | nil => exact absurd rfl hcs
  | append_singleton cs c ih =>
    rw [List.forall_mem_append] at h
    obtain ⟨d, hc, hd⟩ := digitValue?_of_isDigit (h.2 c (List.mem_singleton_self c))
    by_cases hnil : cs = []
    · subst hnil
      exact ⟨d, .digit hc hd⟩
    · obtain ⟨n, hn⟩ := ih hnil h.1
      exact ⟨n * 10 + d, .snoc hn hc hd⟩

theorem isDigit (h : Numeral 10 cs n) : ∀ c ∈ cs, Text.isDigit c = true := by
  induction h with
  | digit hc hd => exact List.forall_mem_singleton.2 (isDigit_of_digitValue? hc hd)
  | snoc _ hc hd ih =>
    exact List.forall_mem_append.2 ⟨ih, List.forall_mem_singleton.2 (isDigit_of_digitValue? hc hd)⟩

theorem lt_pow (h : Numeral b cs n) : n < b ^ cs.length := by
  induction h with
  | digit _ hd => simpa using hd
  | @snoc cs n c d _ _ hd ih =>
    rw [List.length_append, List.length_singleton, Nat.pow_succ]
    calc n * b + d < n * b + b := by omega
      _ = (n + 1) * b := by rw [Nat.succ_mul]
      _ ≤ b ^ cs.length * b := Nat.mul_le_mul_right b ih

/-- A numeral without a zero in front has as many places as its number. -/
theorem pow_le (h : Numeral b cs n) (hzero : cs.head? ≠ some '0') : b ^ (cs.length - 1) ≤ n := by
  induction h with
  | @digit c d hc _ =>
    have hd : d ≠ 0 := by
      rintro rfl
      exact hzero (congrArg some (eq_zero_of_digitValue? hc))
    simpa using Nat.one_le_iff_ne_zero.2 hd
  | @snoc cs n c d h _ _ ih =>
    have hlength := List.length_pos_iff.2 h.ne_nil
    have hhead : (cs ++ [c]).head? = cs.head? := by
      obtain ⟨e, ds, rfl⟩ := List.exists_cons_of_ne_nil h.ne_nil
      rfl
    rw [hhead] at hzero
    have hpow : b ^ cs.length = b ^ (cs.length - 1) * b := by
      rw [← Nat.pow_succ]
      congr 1
      omega
    rw [List.length_append, List.length_singleton, Nat.add_sub_cancel, hpow]
    exact Nat.le_add_right_of_le (Nat.mul_le_mul_right b (ih hzero))

end Numeral

theorem ofDigitsFrom_dropWhile_zero {b : Nat} (hb : 0 < b) (cs : List Char) :
    ofDigitsFrom b 0 (cs.dropWhile (· == '0')) = ofDigitsFrom b 0 cs := by
  induction cs with
  | nil => rfl
  | cons c cs ih =>
    by_cases hc : c = '0'
    · subst hc
      have hzero : digitValue? '0' = some 0 := rfl
      rw [List.dropWhile_cons_of_pos (by simp), ih, ofDigitsFrom, hzero, Option.bind_some,
        if_pos hb, Nat.zero_mul]
    · rw [List.dropWhile_cons_of_neg (by simpa using hc)]

/-! ## Signs -/

theorem signText_append_splitSign (cs : List Char) :
    signText (splitSign cs).1 ++ (splitSign cs).2 = cs := by
  unfold splitSign
  split <;> rfl

theorem splitSign_append (sign : Option Bool) {c : Char} (hc : c ≠ '-' ∧ c ≠ '+')
    (cs : List Char) : splitSign (signText sign ++ c :: cs) = (sign, c :: cs) := by
  match sign with
  | some true => rfl
  | some false => rfl
  | none =>
    rw [signText, List.nil_append]
    unfold splitSign
    split
    · next h => exact absurd (List.cons.inj h).1 hc.1
    · next h => exact absurd (List.cons.inj h).1 hc.2
    · rfl

theorem ne_sign_of_isDigit {c : Char} (hc : isDigit c = true) : c ≠ '-' ∧ c ≠ '+' := by
  constructor <;> rintro rfl <;> exact absurd hc (by decide)

theorem Numeral.splitSign_append {n : Nat} {ds : List Char} (h : Numeral 10 ds n)
    (sign : Option Bool) : splitSign (signText sign ++ ds) = (sign, ds) := by
  obtain ⟨c, ds, rfl⟩ := List.exists_cons_of_ne_nil h.ne_nil
  exact Yaml.splitSign_append sign (ne_sign_of_isDigit (h.isDigit c (List.mem_cons_self ..))) ds

/-! ## Integers -/

theorem Numeral.splitBase_eq {n : Nat} {ds : List Char} (h : Numeral 10 ds n) :
    splitBase ds = none := by
  unfold splitBase
  split
  · exact absurd (h.isDigit 'x' (by simp)) (by decide)
  · exact absurd (h.isDigit 'o' (by simp)) (by decide)
  · exact absurd (h.isDigit 'b' (by simp)) (by decide)
  · rfl

theorem splitBase_eq_some {cs ds : List Char} {b : Nat} (h : splitBase cs = some (b, ds)) :
    ∃ d, cs = '0' :: d :: ds ∧ (['0', d], b) ∈ bases ∧ isDigit d = false := by
  unfold splitBase at h
  split at h <;> cases h
  · exact ⟨'x', rfl, by decide, by decide⟩
  · exact ⟨'o', rfl, by decide, by decide⟩
  · exact ⟨'b', rfl, by decide, by decide⟩

theorem fits_iff (sign : Option Bool) (n : Nat) :
    fits (sign == some true) n = true ↔ -2 ^ 127 ≤ signed sign n ∧ signed sign n < 2 ^ 128 := by
  have hlow : Nat.pow 2 127 = 2 ^ 127 := rfl
  have hhigh : Nat.pow 2 128 = 2 ^ 128 := rfl
  unfold fits signed
  by_cases hsign : sign = some true
  · simp only [hsign, beq_self_eq_true, if_true, decide_eq_true_eq, hlow]
    omega
  · have hsign' : (sign == some true) = false := by simpa using hsign
    simp only [hsign', if_neg hsign, Bool.false_eq_true, if_false, decide_eq_true_eq, hhigh]
    omega

/-- The integers of 128 bits are taken for integers, but not what has zeros in front. -/
theorem isInteger_iff {cs : List Char} : isInteger cs = true ↔
    isZeroLed cs = false ∧ ∃ z, IntegerText cs z ∧ -2 ^ 127 ≤ z ∧ z < 2 ^ 128 := by
  constructor
  · intro h
    have htext {announced ds : List Char} {b n : Nat} (hbody : (splitSign cs).2 = announced ++ ds)
        (hb : (announced, b) ∈ bases) (hn : natural? b ds = some n) :
        IntegerText cs (signed (splitSign cs).1 n) := by
      have hof := IntegerText.of (splitSign cs).1 hb (.of_natural? hn)
      rwa [← hbody, signText_append_splitSign] at hof
    simp only [isInteger] at h
    split at h
    · next b ds hbase =>
      obtain ⟨n, hn, hfits⟩ := (Option.any_eq_true _ _).1 h
      obtain ⟨d, hbody, hb, hd⟩ := splitBase_eq_some hbase
      exact ⟨by simp [isZeroLed, hbody, hd], _, htext hbody hb hn, (fits_iff ..).1 hfits⟩
    · rw [Bool.and_eq_true, Bool.not_eq_true'] at h
      obtain ⟨n, hn, hfits⟩ := (Option.any_eq_true _ _).1 h.2
      have hdecimal : ([], 10) ∈ bases := by decide
      exact ⟨h.1, _, htext (List.nil_append _).symm hdecimal hn, (fits_iff ..).1 hfits⟩
  · rintro ⟨hzero, z, @⟨sign, announced, b, hb, ds, n, h⟩, hrange⟩
    have hfits := (fits_iff sign n).2 hrange
    simp only [bases, List.mem_cons, List.not_mem_nil, or_false, Prod.mk.injEq] at hb
    rcases hb with ⟨rfl, rfl⟩ | ⟨rfl, rfl⟩ | ⟨rfl, rfl⟩ | ⟨rfl, rfl⟩
    · rw [List.nil_append] at hzero ⊢
      simp only [isInteger, h.splitSign_append, h.splitBase_eq, h.natural?_eq, hzero]
      simpa using hfits
    all_goals
      rw [isInteger, List.cons_append, splitSign_append sign (by decide)]
      show Option.any _ (natural? _ ds) = true
      rw [h.natural?_eq]
      exact hfits

/-! ## Decimal numbers -/

theorem ExponentText.head?_eq {cs : List Char} {e : Int} (h : ExponentText cs e) {c : Char}
    (hc : cs.head? = some c) : c = 'e' ∨ c = 'E' := by
  cases h with
  | absent => cases hc
  | of hmark => exact Option.some.inj hc ▸ hmark

theorem ExponentText.exponent?_eq {cs : List Char} {e : Int} (h : ExponentText cs e) :
    exponent? cs = some e := by
  cases h with
  | absent => rfl
  | @of mark hmark sign ds n h =>
    have hall : ds.all Text.isDigit = true := List.all_eq_true.2 h.isDigit
    simp only [exponent?, if_pos hmark, h.splitSign_append, hall, if_true, h.natural?_eq]
    rfl

theorem decimal?_eq {whole point fraction rest : List Char} {n : Nat} {e : Int}
    (hpoint : point = ['.'] ∨ point = [] ∧ fraction = [])
    (hdigits : Numeral 10 (whole ++ fraction) n) (hrest : ExponentText rest e) :
    decimal? (whole ++ (point ++ (fraction ++ rest))) = some ⟨whole, fraction, e⟩ := by
  have hwhole : ∀ c ∈ whole, isDigit c = true := fun c hc =>
    hdigits.isDigit c (List.mem_append_left _ hc)
  have hfraction : ∀ c ∈ fraction, isDigit c = true := fun c hc =>
    hdigits.isDigit c (List.mem_append_right _ hc)
  have hnodigit : ∀ c, rest.head? = some c → isDigit c = false := by
    intro c hc
    rcases hrest.head?_eq hc with rfl | rfl <;> decide
  have hsome : (whole.isEmpty && fraction.isEmpty) = false := by
    have hne := hdigits.ne_nil
    cases whole <;> cases fraction <;> simp_all
  rcases hpoint with rfl | ⟨rfl, rfl⟩
  · have hsplit : Text.splitDigits (whole ++ '.' :: (fraction ++ rest)) =
        (whole, '.' :: (fraction ++ rest)) := by
      refine splitDigits_append hwhole fun c hc => ?_
      cases hc
      decide
    rw [List.singleton_append, decimal?, hsplit]
    simp only [splitDigits_append hfraction hnodigit, hsome, hrest.exponent?_eq]
    rfl
  · -- `simp` chooses the branch by what the rest does not start with
    have hnopoint : ∀ t, rest ≠ '.' :: t := by
      rintro t rfl
      rcases hrest.head?_eq rfl with h | h <;> exact absurd h (by decide)
    rw [List.nil_append, List.nil_append, decimal?, splitDigits_append hwhole hnodigit]
    simp only [hsome, hrest.exponent?_eq]
    rfl

theorem exponentText_of_exponent? {cs : List Char} {e : Int} (h : exponent? cs = some e) :
    ExponentText cs e := by
  cases cs with
  | nil =>
    cases h
    exact .absent
  | cons c cs =>
    simp only [exponent?] at h
    split at h
    · next hmark =>
      split at h
      · obtain ⟨z, hz, rfl⟩ := Option.map_eq_some_iff.1 h
        obtain ⟨n, hn, hz⟩ := Option.bind_eq_some_iff.1 hz
        cases hz
        have hof := ExponentText.of hmark (splitSign cs).1 (.of_natural? hn)
        rwa [signText_append_splitSign] at hof
      · cases h
    · cases h

theorem splitDigits_spec (cs : List Char) :
    (Text.splitDigits cs).1 ++ (Text.splitDigits cs).2 = cs ∧
      ∀ c ∈ (Text.splitDigits cs).1, isDigit c = true :=
  ⟨List.takeWhile_append_dropWhile, List.all_eq_true.1 List.all_takeWhile⟩

/-- The parts of a decimal number. -/
theorem exists_of_decimal? {cs : List Char} {d : Decimal} (h : decimal? cs = some d) :
    ∃ point rest n, cs = d.whole ++ (point ++ (d.fraction ++ rest)) ∧
      (point = ['.'] ∨ point = [] ∧ d.fraction = []) ∧
      Numeral 10 (d.whole ++ d.fraction) n ∧ ExponentText rest d.exponent := by
  obtain ⟨hcs, hwhole⟩ := splitDigits_spec cs
  have hnumeral {fraction : List Char} (hfraction : ∀ c ∈ fraction, isDigit c = true)
      (hne : ¬ ((Text.splitDigits cs).1.isEmpty && fraction.isEmpty) = true) :
      ∃ n, Numeral 10 ((Text.splitDigits cs).1 ++ fraction) n :=
    Numeral.exists_of_isDigit (by simpa using hne) (List.forall_mem_append.2 ⟨hwhole, hfraction⟩)
  simp only [decimal?] at h
  split at h
  · next t hrest =>
    obtain ⟨ht, hfraction⟩ := splitDigits_spec t
    split at h
    · cases h
    · next hne =>
      obtain ⟨e, he, rfl⟩ := Option.map_eq_some_iff.1 h
      obtain ⟨n, hn⟩ := hnumeral hfraction hne
      refine ⟨['.'], _, n, ?_, .inl rfl, hn, exponentText_of_exponent? he⟩
      rw [List.singleton_append, ht, ← hrest, hcs]
  · split at h
    · cases h
    · next hne =>
      obtain ⟨e, he, rfl⟩ := Option.map_eq_some_iff.1 h
      obtain ⟨n, hn⟩ : ∃ n, Numeral 10 ((Text.splitDigits cs).1 ++ []) n := hnumeral (by simp) hne
      exact ⟨[], _, n, hcs.symm, .inr ⟨rfl, rfl⟩, hn, exponentText_of_exponent? he⟩

/-! ## Finite numbers -/

theorem ten_pow_le_overflowBound : 10 ^ 299 ≤ overflowBound := by decide +kernel

theorem overflowBound_le_ten_pow : overflowBound ≤ 10 ^ 320 := by decide +kernel

section
variable {n k : Nat} {shift : Int}

/-- So few places keep a number finite. -/
theorem mul_zpow_lt_overflowBound (hn : n < 10 ^ k) (hplaces : k + shift < 300) :
    (n : ℚ) * 10 ^ shift < overflowBound := by
  have hn' : (n : ℚ) < 10 ^ (k : Int) := by
    rw [zpow_natCast]
    exact_mod_cast hn
  calc (n : ℚ) * 10 ^ shift < 10 ^ (k : Int) * 10 ^ shift := by gcongr
    _ = 10 ^ (k + shift) := (zpow_add₀ (by decide) _ _).symm
    _ ≤ 10 ^ ((299 : Nat) : Int) := zpow_le_zpow_right₀ (by decide) (by omega)
    _ ≤ overflowBound := by
      rw [zpow_natCast]
      exact_mod_cast ten_pow_le_overflowBound

/-- So many places do not. -/
theorem overflowBound_le_mul_zpow (hn : 10 ^ (k - 1) ≤ n) (hk : 0 < k) (hplaces : 320 < k + shift) :
    (overflowBound : ℚ) ≤ n * 10 ^ shift := by
  have hn' : (10 : ℚ) ^ (((k - 1 : Nat) : Int)) ≤ n := by
    rw [zpow_natCast]
    exact_mod_cast hn
  calc (overflowBound : ℚ) ≤ 10 ^ ((320 : Nat) : Int) := by
        rw [zpow_natCast]
        exact_mod_cast overflowBound_le_ten_pow
    _ ≤ 10 ^ (((k - 1 : Nat) : Int) + shift) := zpow_le_zpow_right₀ (by decide) (by omega)
    _ = 10 ^ ((k - 1 : Nat) : Int) * 10 ^ shift := zpow_add₀ (by decide) _ _
    _ ≤ n * 10 ^ shift := by gcongr

/-- The comparison without fractions. -/
theorem mul_zpow_lt_iff (n b : Nat) (shift : Int) :
    (n : ℚ) * 10 ^ shift < b ↔ n * 10 ^ shift.toNat < b * 10 ^ (-shift).toNat := by
  obtain ⟨k, rfl | rfl⟩ := shift.eq_nat_or_neg
  · rw [zpow_natCast, Int.toNat_natCast, Int.toNat_neg_natCast, pow_zero, mul_one]
    exact_mod_cast Iff.rfl
  · rw [zpow_neg, zpow_natCast, neg_neg, Int.toNat_natCast, Int.toNat_neg_natCast, pow_zero, mul_one,
      ← div_eq_mul_inv, div_lt_iff₀ (pow_pos (by decide) k)]
    exact_mod_cast Iff.rfl

end

/-- The bounds on the places of a number make no difference to whether it stays finite. -/
theorem Decimal.isFinite_iff {d : Decimal} {n : Nat}
    (h : Numeral 10 (d.whole ++ d.fraction) n) :
    d.isFinite = true ↔ (n : ℚ) * 10 ^ (d.exponent - d.fraction.length) < overflowBound := by
  have hvalue : ofDigitsFrom 10 0 ((d.whole ++ d.fraction).dropWhile (· == '0')) = some n := by
    rw [ofDigitsFrom_dropWhile_zero (by decide), h.ofDigitsFrom_eq]
  have hhead : ((d.whole ++ d.fraction).dropWhile (· == '0')).head? ≠ some '0' := by
    intro hzero
    have hnot := List.head?_dropWhile_not (· == '0') (d.whole ++ d.fraction)
    rw [hzero] at hnot
    cases hnot
  rw [isFinite]
  generalize d.exponent - d.fraction.length = shift
  generalize (d.whole ++ d.fraction).dropWhile (· == '0') = ds at hvalue hhead
  cases ds with
  | nil =>
    obtain rfl : 0 = n := Option.some.inj hvalue
    have hpos : (0 : ℚ) < overflowBound := by
      exact_mod_cast (Nat.pow_pos (by decide)).trans_le ten_pow_le_overflowBound
    refine iff_of_true rfl ?_
    rwa [Nat.cast_zero, zero_mul]
  | cons c ds =>
    have hdigits : Numeral 10 (c :: ds) n := .of_ofDigitsFrom (by simp) hvalue
    dsimp only
    rw [hdigits.natural?_eq]
    split
    · next hfew =>
      have hplaces : ((c :: ds).length : Int) + shift < 300 := by simpa using hfew
      exact iff_of_true rfl (mul_zpow_lt_overflowBound hdigits.lt_pow hplaces)
    split
    · next hmany =>
      refine iff_of_false (by simp) (not_lt.2 ?_)
      exact overflowBound_le_mul_zpow (hdigits.pow_le hhead) (by simp) hmany
    · rw [mul_zpow_lt_iff]
      exact decide_eq_true_iff

theorem abs_signed_mul (sign : Option Bool) (n : Nat) (k : Int) :
    |(signed sign n : ℚ) * 10 ^ k| = n * 10 ^ k := by
  have hpow : (0 : ℚ) < 10 ^ k := zpow_pos (by decide) _
  rw [abs_mul, abs_of_pos hpow, signed]
  split <;> simp

/-- The decimal numbers below what rounds to infinity are taken for numbers. -/
theorem isFiniteReal_iff {cs : List Char} :
    isFiniteReal cs = true ↔ ∃ q, RealText cs q ∧ |q| < overflowBound := by
  constructor
  · intro h
    obtain ⟨d, hd, hfinite⟩ := (Option.any_eq_true _ _).1 h
    obtain ⟨point, rest, n, hbody, hpoint, hdigits, hrest⟩ := exists_of_decimal? hd
    refine ⟨_, ?_, (abs_signed_mul (splitSign cs).1 n _).trans_lt
      ((Decimal.isFinite_iff hdigits).1 hfinite)⟩
    have hof := RealText.of (splitSign cs).1 hpoint hdigits hrest
    rwa [← hbody, signText_append_splitSign] at hof
  · rintro ⟨q, @⟨sign, whole, point, fraction, rest, n, e, hpoint, hdigits, hrest⟩, hq⟩
    rw [abs_signed_mul] at hq
    have hfirst : ∃ c t, whole ++ (point ++ (fraction ++ rest)) = c :: t ∧ c ≠ '-' ∧ c ≠ '+' := by
      cases whole with
      | cons c whole =>
        exact ⟨c, _, rfl, ne_sign_of_isDigit (hdigits.isDigit c (by simp))⟩
      | nil =>
        rcases hpoint with rfl | ⟨rfl, rfl⟩
        · exact ⟨'.', _, rfl, by decide⟩
        · exact absurd rfl hdigits.ne_nil
    obtain ⟨c, t, heq, hc⟩ := hfirst
    rw [isFiniteReal, heq, splitSign_append sign hc, ← heq, decimal?_eq hpoint hdigits hrest,
      Option.any_some]
    exact (Decimal.isFinite_iff hdigits).2 hq

end OperatorRules.Yaml
