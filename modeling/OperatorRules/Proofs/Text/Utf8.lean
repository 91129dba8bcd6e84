import OperatorRules.Proofs.Text.ByteOrder
import OperatorRules.Text.Lossy

/-!
# Well-formed UTF-8

Which bytes are a text, told by ranges of bytes: `Coded` lists the shapes that a character may have,
and a text is any number of characters (`WellFormed`). The encoder reaches each of these shapes and
nothing else (`isValidUTF8_iff`). A byte that does not go on with a character starts one
(`WellFormed.of_append`), so that overlong forms, surrogates, code points beyond the last one and
characters that are cut off make bytes no text wherever they stand (`not_wellFormed_of_malformed`).
-/

namespace OperatorRules.Text

/-- The bytes of one character. -/
inductive Coded : List UInt8 → Prop
  | one {a : UInt8} (ha : a < 0x80) : Coded [a]
  | two {a b : UInt8} (ha : 0xc2 ≤ a ∧ a ≤ 0xdf) (hb : isContinuation b = true) : Coded [a, b]
  | three {a b c : UInt8} (hab : followsThree a b = true) (hc : isContinuation c = true) :
    Coded [a, b, c]
  | four {a b c d : UInt8} (hab : followsFour a b = true) (hc : isContinuation c = true)
    (hd : isContinuation d = true) : Coded [a, b, c, d]

/-- The bytes of characters, one after the other. -/
inductive WellFormed : List UInt8 → Prop
  | nil : WellFormed []
  | cons {c rest : List UInt8} (hc : Coded c) (hrest : WellFormed rest) : WellFormed (c ++ rest)

/-! ## Ranges of bytes -/

theorem isContinuation_iff {b : UInt8} :
    isContinuation b = true ↔ 0x80 ≤ b.toNat ∧ b.toNat ≤ 0xbf := by
  simp [isContinuation, UInt8.le_iff_toNat_le]

theorem followsThree_iff {a b : UInt8} :
    followsThree a b = true ↔ 0xe0 ≤ a.toNat ∧ a.toNat ≤ 0xef ∧ 0x80 ≤ b.toNat ∧ b.toNat ≤ 0xbf ∧
      (a.toNat = 0xe0 → 0xa0 ≤ b.toNat) ∧ (a.toNat = 0xed → b.toNat ≤ 0x9f) := by
  simp only [followsThree, isContinuation, Bool.or_eq_true, Bool.and_eq_true, beq_iff_eq,
    decide_eq_true_eq, UInt8.le_iff_toNat_le, ← UInt8.toNat_inj, UInt8.reduceToNat]
  omega

theorem followsFour_iff {a b : UInt8} :
    followsFour a b = true ↔ 0xf0 ≤ a.toNat ∧ a.toNat ≤ 0xf4 ∧ 0x80 ≤ b.toNat ∧ b.toNat ≤ 0xbf ∧
      (a.toNat = 0xf0 → 0x90 ≤ b.toNat) ∧ (a.toNat = 0xf4 → b.toNat ≤ 0x8f) := by
  simp only [followsFour, isContinuation, Bool.or_eq_true, Bool.and_eq_true, beq_iff_eq,
    decide_eq_true_eq, UInt8.le_iff_toNat_le, ← UInt8.toNat_inj, UInt8.reduceToNat]
  omega

/-! ## The encoder -/

theorem val_toNat_ofNat {n : Nat} (h : n.isValidChar) : (Char.ofNat n).val.toNat = n := by
  rw [Char.ofNat, dif_pos h]
  rfl

theorem coded_utf8EncodeChar (c : Char) : Coded (String.utf8EncodeChar c) := by
  have hvalid : c.val.toNat.isValidChar := c.valid
  rw [Nat.isValidChar] at hvalid
  rw [String.utf8EncodeChar]
  generalize c.val.toNat = n at hvalid
  have hbyte (k : Nat) (hk : k < 256) : (UInt8.ofNat k).toNat = k := UInt8.toNat_ofNat_of_lt' hk
  have htail (k : Nat) : isContinuation (UInt8.ofNat (k % 64 + 128)) = true := by
    rw [isContinuation_iff, hbyte _ (by omega)]
    omega
  split
  · refine .one ?_
    simp only [UInt8.lt_iff_toNat_lt, hbyte n (by omega), UInt8.reduceToNat]
    omega
  split
  · refine .two ?_ (htail _)
    simp only [UInt8.le_iff_toNat_le, hbyte (n / 64 % 32 + 192) (by omega), UInt8.reduceToNat]
    omega
  split
  · refine .three ?_ (htail _)
    rw [followsThree_iff, hbyte _ (by omega), hbyte _ (by omega)]
    omega
  · refine .four ?_ (htail _) (htail _)
    rw [followsFour_iff, hbyte _ (by omega), hbyte _ (by omega)]
    omega

/-- Each shape of a character is the encoding of one. -/
theorem exists_of_coded {bytes : List UInt8} (h : Coded bytes) :
    ∃ c, String.utf8EncodeChar c = bytes := by
  have hbyte {k : Nat} {b : UInt8} (hk : k = b.toNat) : UInt8.ofNat k = b := by
    rw [hk, UInt8.ofNat_toNat]
  cases h with
  | @one a ha =>
    simp only [UInt8.lt_iff_toNat_lt, UInt8.reduceToNat] at ha
    refine ⟨Char.ofNat a.toNat, ?_⟩
    rw [String.utf8EncodeChar, val_toNat_ofNat (by rw [Nat.isValidChar]; omega)]
    rw [if_pos (by omega), UInt8.ofNat_toNat]
  | @two a b ha hb =>
    simp only [UInt8.le_iff_toNat_le, UInt8.reduceToNat] at ha
    rw [isContinuation_iff] at hb
    refine ⟨Char.ofNat ((a.toNat - 0xc0) * 64 + (b.toNat - 0x80)), ?_⟩
    rw [String.utf8EncodeChar, val_toNat_ofNat (by rw [Nat.isValidChar]; omega)]
    rw [if_neg (by omega), if_pos (by omega), hbyte (b := a) (by omega), hbyte (b := b) (by omega)]
  | @three a b c hab hc =>
    rw [followsThree_iff] at hab
    rw [isContinuation_iff] at hc
    refine ⟨Char.ofNat ((a.toNat - 0xe0) * 4096 + (b.toNat - 0x80) * 64 + (c.toNat - 0x80)), ?_⟩
    rw [String.utf8EncodeChar, val_toNat_ofNat (by rw [Nat.isValidChar]; omega)]
    rw [if_neg (by omega), if_neg (by omega), if_pos (by omega), hbyte (b := a) (by omega),
      hbyte (b := b) (by omega), hbyte (b := c) (by omega)]
  | @four a b c d hab hc hd =>
    rw [followsFour_iff] at hab
    rw [isContinuation_iff] at hc hd
    refine ⟨Char.ofNat ((a.toNat - 0xf0) * 262144 + (b.toNat - 0x80) * 4096 +
      (c.toNat - 0x80) * 64 + (d.toNat - 0x80)), ?_⟩
    rw [String.utf8EncodeChar, val_toNat_ofNat (by rw [Nat.isValidChar]; omega)]
    rw [if_neg (by omega), if_neg (by omega), if_neg (by omega), hbyte (b := a) (by omega),
      hbyte (b := b) (by omega), hbyte (b := c) (by omega), hbyte (b := d) (by omega)]

theorem wellFormed_flatMap (cs : List Char) : WellFormed (cs.flatMap String.utf8EncodeChar) := by
  induction cs with
  | nil => exact .nil
  | cons c cs ih => exact .cons (coded_utf8EncodeChar c) ih

theorem exists_of_wellFormed {bytes : List UInt8} (h : WellFormed bytes) :
    ∃ cs : List Char, cs.flatMap String.utf8EncodeChar = bytes := by
  induction h with
  | nil => exact ⟨[], rfl⟩
  | cons hc _ ih =>
    obtain ⟨c, rfl⟩ := exists_of_coded hc
    obtain ⟨cs, rfl⟩ := ih
    exact ⟨c :: cs, rfl⟩

/-- The bytes that are the encoding of some text are those that are well formed. -/
theorem isValidUTF8_iff (bytes : ByteArray) :
    bytes.IsValidUTF8 ↔ WellFormed bytes.data.toList := by
  constructor
  · rintro ⟨cs, rfl⟩
    rw [List.utf8Encode, List.toList_data_toByteArray]
    exact wellFormed_flatMap cs
  · intro h
    obtain ⟨cs, hcs⟩ := exists_of_wellFormed h
    refine ⟨cs, ?_⟩
    rw [List.utf8Encode, hcs]
    exact ByteArray.ext (Array.toList_inj.1 List.toList_data_toByteArray.symm)

/-! ## Where characters start -/

theorem Coded.ne_nil {c : List UInt8} (h : Coded c) : c ≠ [] := by
  cases h <;> exact List.cons_ne_nil _ _

theorem isContinuation_of_follows {a b : UInt8}
    (h : followsThree a b = true ∨ followsFour a b = true) : isContinuation b = true := by
  rw [followsThree_iff, followsFour_iff] at h
  rw [isContinuation_iff]
  omega

theorem Coded.tail {a : UInt8} {t : List UInt8} (h : Coded (a :: t)) :
    ∀ b ∈ t, isContinuation b = true := by
  cases h with
  | one => simp
  | two _ hb => simpa using hb
  | three hab hc => simpa using ⟨isContinuation_of_follows (.inl hab), hc⟩
  | four hab hc hd => simpa using ⟨isContinuation_of_follows (.inr hab), hc, hd⟩

theorem Coded.head {a : UInt8} {t : List UInt8} (h : Coded (a :: t)) :
    isContinuation a = false := by
  rw [Bool.eq_false_iff, Ne, isContinuation_iff]
  cases h <;>
    simp only [followsThree_iff, followsFour_iff, UInt8.lt_iff_toNat_lt, UInt8.le_iff_toNat_le,
      UInt8.reduceToNat] at * <;> omega

/-- A byte that does not go on with a character starts one. -/
theorem WellFormed.of_append {x y : List UInt8} {b : UInt8} (hb : isContinuation b = false)
    (h : WellFormed (x ++ b :: y)) : WellFormed (b :: y) := by
  generalize hl : x ++ b :: y = l at h
  induction h generalizing x with
  | nil => simp at hl
  | @cons c rest hc hrest ih =>
    rcases List.append_eq_append_iff.1 hl with ⟨z, rfl, hz⟩ | ⟨z, rfl, hz⟩
    · cases z with
      | nil => exact hz ▸ hrest
      | cons d z =>
        obtain ⟨rfl, htail⟩ := List.cons.inj hz
        -- the byte is one of a character, so it has to be the first of it
        cases x with
        | nil => exact htail ▸ .cons hc hrest
        | cons a x =>
          rw [hc.tail b (by simp)] at hb
          cases hb
    · exact ih hz.symm

/-- The first byte tells how long a character is. -/
theorem Coded.length_eq {a : UInt8} {s t : List UInt8} (hs : Coded (a :: s))
    (ht : Coded (a :: t)) : s.length = t.length := by
  cases hs <;> cases ht <;>
    simp only [followsThree_iff, followsFour_iff, UInt8.lt_iff_toNat_lt, UInt8.le_iff_toNat_le,
      UInt8.reduceToNat] at * <;> first | rfl | omega

/-- The ranges of the first two bytes of a character of more than one. -/
theorem WellFormed.first {a b : UInt8} {y : List UInt8} (h : WellFormed (a :: b :: y))
    (ha : 0x80 ≤ a.toNat) :
    0xc2 ≤ a.toNat ∧ a.toNat ≤ 0xf4 ∧ (a.toNat = 0xe0 → 0xa0 ≤ b.toNat) ∧
      (a.toNat = 0xed → b.toNat ≤ 0x9f) ∧ (a.toNat = 0xf0 → 0x90 ≤ b.toNat) ∧
      (a.toNat = 0xf4 → b.toNat ≤ 0x8f) := by
  generalize hl : a :: b :: y = l at h
  cases h with
  | nil => cases hl
  | cons hc hrest =>
    cases hc <;> cases hl <;>
      simp only [followsThree_iff, followsFour_iff, UInt8.lt_iff_toNat_lt, UInt8.le_iff_toNat_le,
        UInt8.reduceToNat] at * <;> omega

/-! ## Bytes that are no text -/

/-- Two bytes that carry eleven bits. -/
def twoBytes (n : Nat) : List UInt8 := [.ofNat (n / 64 % 32 + 0xc0), .ofNat (n % 64 + 0x80)]

/-- Three bytes that carry sixteen bits. -/
def threeBytes (n : Nat) : List UInt8 :=
  [.ofNat (n / 4096 % 16 + 0xe0), .ofNat (n / 64 % 64 + 0x80), .ofNat (n % 64 + 0x80)]

/-- Four bytes that carry twenty-one bits. -/
def fourBytes (n : Nat) : List UInt8 :=
  [.ofNat (n / 262144 % 8 + 0xf0), .ofNat (n / 4096 % 64 + 0x80), .ofNat (n / 64 % 64 + 0x80),
    .ofNat (n % 64 + 0x80)]

/-- Bytes that go wrong where they start, whatever stands in front of them. -/
inductive Malformed : List UInt8 → Prop
  | overlongTwo {n : Nat} (h : n < 0x80) (rest : List UInt8) : Malformed (twoBytes n ++ rest)
  | overlongThree {n : Nat} (h : n < 0x800) (rest : List UInt8) : Malformed (threeBytes n ++ rest)
  | overlongFour {n : Nat} (h : n < 0x10000) (rest : List UInt8) : Malformed (fourBytes n ++ rest)
  | surrogate {n : Nat} (h : 0xd800 ≤ n ∧ n ≤ 0xdfff) (rest : List UInt8) :
    Malformed (threeBytes n ++ rest)
  | beyond {n : Nat} (h : 0x10ffff < n ∧ n < 0x200000) (rest : List UInt8) :
    Malformed (fourBytes n ++ rest)
  /-- A character that is cut off, at the end or before a byte that does not go on with it. -/
  | truncated {c : Char} {start missing : List UInt8} (h : String.utf8EncodeChar c = start ++ missing)
    (hstart : start ≠ []) (hmissing : missing ≠ []) {rest : List UInt8}
    (hrest : ∀ b ∈ rest.head?, isContinuation b = false) : Malformed (start ++ rest)

theorem not_wellFormed_of_first {j k : Nat} (hj : 0xc0 ≤ j ∧ j < 256) (hk : k < 256)
    (h : j < 0xc2 ∨ 0xf4 < j ∨ j = 0xe0 ∧ k < 0xa0 ∨ j = 0xed ∧ 0x9f < k ∨ j = 0xf0 ∧ k < 0x90 ∨
      j = 0xf4 ∧ 0x8f < k) (x y : List UInt8) :
    ¬ WellFormed (x ++ UInt8.ofNat j :: UInt8.ofNat k :: y) := by
  intro hwell
  have hbyte {k : Nat} (hk : k < 256) : (UInt8.ofNat k).toNat = k := UInt8.toNat_ofNat_of_lt' hk
  have hhead : isContinuation (UInt8.ofNat j) = false := by
    rw [Bool.eq_false_iff, Ne, isContinuation_iff, hbyte hj.2]
    omega
  have hfirst := (hwell.of_append hhead).first
  rw [hbyte hj.2, hbyte hk] at hfirst
  have hranges := hfirst (by omega)
  omega

theorem not_wellFormed_truncated {c : Char} {start missing rest : List UInt8}
    (h : String.utf8EncodeChar c = start ++ missing) (hstart : start ≠ []) (hmissing : missing ≠ [])
    (hrest : ∀ b ∈ rest.head?, isContinuation b = false) (x : List UInt8) :
    ¬ WellFormed (x ++ (start ++ rest)) := by
  intro hwell
  obtain ⟨a, s, rfl⟩ := List.exists_cons_of_ne_nil hstart
  have hcoded : Coded (a :: (s ++ missing)) := by
    rw [← List.cons_append, ← h]
    exact coded_utf8EncodeChar c
  have hwell := hwell.of_append hcoded.head
  generalize hl : a :: s.append rest = l at hwell
  cases hwell with
  | nil => cases hl
  | @cons d tail hd _ =>
    obtain ⟨e, t, rfl⟩ := List.exists_cons_of_ne_nil hd.ne_nil
    obtain ⟨rfl, htail⟩ := List.cons.inj hl
    have hlength := hcoded.length_eq hd
    have hshort : 0 < missing.length := List.length_pos_iff.2 hmissing
    rw [List.length_append] at hlength
    -- the character has more bytes than `start`, so the next of them stands first in `rest`
    rcases List.append_eq_append_iff.1 htail with ⟨z, rfl, hz⟩ | ⟨z, rfl, hz⟩
    · rw [List.length_append] at hlength
      cases z with
      | nil =>
        rw [List.length_nil] at hlength
        omega
      | cons b z =>
        have hb := hrest b (by rw [hz]; rfl)
        rw [hd.tail b (by simp)] at hb
        cases hb
    · rw [List.length_append] at hlength
      omega

/-- What is malformed stands nowhere in a text. -/
theorem not_wellFormed_of_malformed {m : List UInt8} (h : Malformed m) (x : List UInt8) :
    ¬ WellFormed (x ++ m) := by
  cases h with
  | overlongTwo h rest => exact not_wellFormed_of_first (by omega) (by omega) (by omega) x _
  | overlongThree h rest => exact not_wellFormed_of_first (by omega) (by omega) (by omega) x _
  | overlongFour h rest => exact not_wellFormed_of_first (by omega) (by omega) (by omega) x _
  | surrogate h rest => exact not_wellFormed_of_first (by omega) (by omega) (by omega) x _
  | beyond h rest => exact not_wellFormed_of_first (by omega) (by omega) (by omega) x _
  | truncated h hstart hmissing hrest => exact not_wellFormed_truncated h hstart hmissing hrest x

end OperatorRules.Text
