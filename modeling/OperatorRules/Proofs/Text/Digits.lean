import Mathlib.Algebra.Group.Nat.Defs
import OperatorRules.Text.Digits

/-!
# Numerals and their values

The digits of a number stand for that number (`ofDigits?_digits`), zeros in front and upper case
change nothing about it, and a number below a power of the base has no more digits than the power
says (`length_digits_le`). A numeral in decimal is split off from whatever follows it
(`splitDigits_append`).
-/

namespace OperatorRules.Text

theorem toNat_lt (c : Char) : c.val.toNat < 0x110000 := by
  have h := c.valid
  simp only [UInt32.isValidChar, Nat.isValidChar] at h
  omega

/-- The number that digits in base `b` stand for behind a numeral of value `v`. -/
def ofDigitsFrom (b : Nat) : (v : Nat) → List Char → Option Nat
  | v, [] => some v
  | v, c :: cs =>
    (digitValue? c).bind fun d => if d < b then ofDigitsFrom b (v * b + d) cs else none

theorem ofDigits?_eq (b : Nat) (cs : List Char) : ofDigits? b cs = ofDigitsFrom b 0 cs := by
  have hnone (cs : List Char) (f : Option Nat → Char → Option Nat) (hf : ∀ c, f none c = none) :
      cs.foldl f none = none := by
    induction cs with
    | nil => rfl
    | cons c cs ih => rw [List.foldl_cons, hf, ih]
  suffices h : ∀ v, cs.foldl (fun acc c => do
      let n ← acc
      let d ← digitValue? c
      if d < b then some (n * b + d) else none) (some v) = ofDigitsFrom b v cs from h 0
  induction cs with
  | nil => intro v; rfl
  | cons c cs ih =>
    intro v
    rw [List.foldl_cons, ofDigitsFrom]
    cases hc : digitValue? c with
    | none => exact hnone cs _ fun _ => rfl
    | some d =>
      by_cases hd : d < b
      · simp only [Option.bind_eq_bind, Option.bind_some, if_pos hd]
        exact ih _
      · simp only [Option.bind_eq_bind, Option.bind_some, if_neg hd]
        exact hnone cs _ fun _ => rfl

theorem ofDigitsFrom_append (b v : Nat) (cs ds : List Char) :
    ofDigitsFrom b v (cs ++ ds) = (ofDigitsFrom b v cs).bind (ofDigitsFrom b · ds) := by
  induction cs generalizing v with
  | nil => rfl
  | cons c cs ih =>
    rw [List.cons_append, ofDigitsFrom, ofDigitsFrom, Option.bind_assoc]
    congr 1
    funext d
    split
    · exact ih _
    · rfl

theorem isSome_digitValue?_of_mem {b v n : Nat} {cs : List Char} (h : ofDigitsFrom b v cs = some n)
    {c : Char} (hc : c ∈ cs) : (digitValue? c).isSome = true := by
  induction cs generalizing v with
  | nil => cases hc
  | cons e cs ih =>
    obtain ⟨d, hd, hrest⟩ := Option.bind_eq_some_iff.1 h
    split at hrest
    · rcases List.mem_cons.1 hc with rfl | hc
      · rw [hd]
        rfl
      · exact ih hrest hc
    · cases hrest

/-! ## Digits -/

theorem digitValue?_digitChar {n : Nat} (h : n < 16) : digitValue? (digitChar n) = some n := by
  have hall : ∀ n : Fin 16, digitValue? (digitChar n) = some n.val := by decide
  exact hall ⟨n, h⟩

theorem digitValue?_toUpper_digitChar {n : Nat} (h : n < 16) :
    digitValue? (digitChar n).toUpper = some n := by
  have hall : ∀ n : Fin 16, digitValue? (digitChar n).toUpper = some n.val := by decide
  exact hall ⟨n, h⟩

theorem exists_digitChar_of_mem_digits {b n : Nat} (hb : 2 ≤ b) {c : Char} (hc : c ∈ digits b n) :
    ∃ d < b, c = digitChar d := by
  induction n using Nat.strongRecOn with
  | _ n ih =>
    rw [digits] at hc
    split at hc
    · exact ⟨n, by omega, List.mem_singleton.1 hc⟩
    · rcases List.mem_append.1 hc with hc | hc
      · exact ih (n / b) (Nat.div_lt_self (by omega) hb) hc
      · exact ⟨n % b, Nat.mod_lt n (by omega), List.mem_singleton.1 hc⟩

/-- Digits in any spelling that keeps their values stand for their number. -/
theorem ofDigitsFrom_map_digits {b : Nat} (hb : 2 ≤ b) {spell : Char → Char}
    (hspell : ∀ d, d < b → digitValue? (spell (digitChar d)) = some d) (n : Nat) :
    ofDigitsFrom b 0 ((digits b n).map spell) = some n := by
  induction n using Nat.strongRecOn with
  | _ n ih =>
    rw [digits]
    split
    · next h =>
      have hn : n < b := by omega
      simp [ofDigitsFrom, hspell n hn, hn]
    · next h =>
      have hdiv : n / b < n := Nat.div_lt_self (by omega) hb
      have hmod : n % b < b := Nat.mod_lt n (by omega)
      have hsplit : n / b * b + n % b = n := by
        rw [Nat.mul_comm]
        exact Nat.div_add_mod n b
      rw [List.map_append, ofDigitsFrom_append, ih _ hdiv]
      simp [ofDigitsFrom, hspell _ hmod, hmod, hsplit]

theorem ofDigits?_digits {b : Nat} (hb : 2 ≤ b) (hb' : b ≤ 16) (n : Nat) :
    ofDigits? b (digits b n) = some n := by
  have hspell (d : Nat) (hd : d < b) : digitValue? (id (digitChar d)) = some d :=
    digitValue?_digitChar (Nat.lt_of_lt_of_le hd hb')
  rw [ofDigits?_eq, ← List.map_id (digits b n)]
  exact ofDigitsFrom_map_digits hb hspell n

theorem ofDigitsFrom_replicate_zero {b : Nat} (hb : 0 < b) {z : Char}
    (hz : digitValue? z = some 0) (k : Nat) (cs : List Char) :
    ofDigitsFrom b 0 (List.replicate k z ++ cs) = ofDigitsFrom b 0 cs := by
  induction k with
  | zero => rfl
  | succ k ih =>
    rw [List.replicate_succ, List.cons_append, ofDigitsFrom, hz, Option.bind_some, if_pos hb,
      Nat.zero_mul]
    exact ih

/-- So do digits that are filled up with zeros. -/
theorem ofDigitsFrom_map_paddedDigits {b : Nat} (hb : 2 ≤ b) {spell : Char → Char}
    (hspell : ∀ d, d < b → digitValue? (spell (digitChar d)) = some d) (w n : Nat) :
    ofDigitsFrom b 0 ((paddedDigits b w n).map spell) = some n := by
  have hzero : digitValue? (spell '0') = some 0 := hspell 0 (by omega)
  rw [paddedDigits, List.map_append, List.map_replicate,
    ofDigitsFrom_replicate_zero (by omega) hzero, ofDigitsFrom_map_digits hb hspell]

theorem length_digits_le {b w n : Nat} (hb : 2 ≤ b) (hw : 0 < w) (hn : n < b ^ w) :
    (digits b n).length ≤ w := by
  induction w generalizing n with
  | zero => omega
  | succ w ih =>
    rw [digits]
    split
    · simp
    · next h =>
      have hdiv : n / b < b ^ w := by
        rw [Nat.div_lt_iff_lt_mul (by omega), ← Nat.pow_succ]
        exact hn
      have hw' : 0 < w := by
        rcases Nat.eq_zero_or_pos w with rfl | h0
        · simp at hn
          omega
        · exact h0
      have hlen := ih hw' hdiv
      rw [List.length_append, List.length_singleton]
      omega

theorem length_paddedDigits {b w n : Nat} (hb : 2 ≤ b) (hw : 0 < w) (hn : n < b ^ w) :
    (paddedDigits b w n).length = w := by
  have hlen := length_digits_le hb hw hn
  rw [paddedDigits, List.length_append, List.length_replicate]
  omega

/-! ## Decimal numerals -/

theorem isDigit_digitChar {d : Nat} (hd : d < 10) : isDigit (digitChar d) = true := by
  have hall : ∀ d : Fin 10, isDigit (digitChar d) = true := by decide
  exact hall ⟨d, hd⟩

theorem digitChar_ne_zero {d : Nat} (hd : d < 10) (hne : d ≠ 0) : digitChar d ≠ '0' := by
  have hall : ∀ d : Fin 10, d.val ≠ 0 → digitChar d ≠ '0' := by decide
  exact hall ⟨d, hd⟩ hne

theorem isDigit_of_mem_decimal {n : Nat} {c : Char} (hc : c ∈ decimal n) : isDigit c = true := by
  obtain ⟨d, hd, rfl⟩ := exists_digitChar_of_mem_digits (by decide) hc
  exact isDigit_digitChar hd

theorem decimal_injective : Function.Injective decimal := by
  intro m n h
  have hvalue (n : Nat) : ofDigits? 10 (decimal n) = some n :=
    ofDigits?_digits (by decide) (by decide) n
  have hsome : some m = some n := by rw [← hvalue m, h, hvalue]
  exact Option.some.inj hsome

theorem decimal_ne_nil (n : Nat) : decimal n ≠ [] := by
  rw [decimal, digits]
  split <;> simp

/-- No zero stands in front of a number other than zero. -/
theorem head?_decimal_ne {n : Nat} (hn : n ≠ 0) : (decimal n).head? ≠ some '0' := by
  induction n using Nat.strongRecOn with
  | _ n ih =>
    rw [decimal, digits]
    split
    · exact fun hhead => digitChar_ne_zero (by omega) hn (Option.some.inj hhead)
    · have hne : digits 10 (n / 10) ≠ [] := decimal_ne_nil (n / 10)
      rw [List.head?_append, Option.or_of_isSome (by simp [hne])]
      exact ih (n / 10) (Nat.div_lt_self (by omega) (by decide)) (by omega)

theorem splitDigits_append {ds rest : List Char} (hds : ∀ c ∈ ds, isDigit c = true)
    (hrest : ∀ c, rest.head? = some c → isDigit c = false) :
    splitDigits (ds ++ rest) = (ds, rest) := by
  have htake : rest.takeWhile isDigit = [] := by
    cases rest with
    | nil => rfl
    | cons c rest => exact List.takeWhile_cons_of_neg (by simp [hrest c rfl])
  have hdrop : rest.dropWhile isDigit = rest := by
    cases rest with
    | nil => rfl
    | cons c rest => exact List.dropWhile_cons_of_neg (by simp [hrest c rfl])
  rw [splitDigits, List.takeWhile_append_of_pos hds, List.dropWhile_append_of_pos hds, htake,
    hdrop, List.append_nil]

end OperatorRules.Text
