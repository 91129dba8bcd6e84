import Mathlib.Data.List.Basic
import OperatorRules.Proofs.Text.Digits

/-!
# The order of UTF-8 encodings

Texts are compared by their code points. The bytes of their UTF-8 encodings compare alike
(`utf8Bytes_lt`): a greater code point has a longer encoding or a greater byte where two of equal
length differ first.
-/

namespace OperatorRules.Text

/-- The bytes of the UTF-8 encoding of a text. -/
def utf8Bytes (s : String) : List UInt8 := s.toUTF8.data.toList

theorem utf8Bytes_eq_flatMap (s : String) :
    utf8Bytes s = s.toList.flatMap String.utf8EncodeChar := by
  rw [utf8Bytes, String.toUTF8_eq_toByteArray, ← String.utf8Encode_toList, List.utf8Encode]
  exact List.toList_data_toByteArray

/-- Below 2^21, numbers compare as their digits of three and three times six bits. -/
theorem sixBitDigits_lt {m n : Nat} (h : m < n) (hn : n < 0x200000) :
    m / 262144 % 8 < n / 262144 % 8 ∨ m / 262144 % 8 = n / 262144 % 8 ∧
      (m / 4096 % 64 < n / 4096 % 64 ∨ m / 4096 % 64 = n / 4096 % 64 ∧
        (m / 64 % 64 < n / 64 % 64 ∨ m / 64 % 64 = n / 64 % 64 ∧ m % 64 < n % 64)) := by
  have hsplit {k : Nat} (hk : k < 0x200000) :
      k = 262144 * (k / 262144 % 8) + 4096 * (k / 4096 % 64) + 64 * (k / 64 % 64) + k % 64 := by
    omega
  have hm := hsplit (Nat.lt_trans h hn)
  have hn := hsplit hn
  have hb (k : Nat) : k % 64 < 64 := Nat.mod_lt _ (by decide)
  have h1 := hb (m / 4096); have h2 := hb (m / 64); have h3 := hb m
  have h4 := hb (n / 4096); have h5 := hb (n / 64); have h6 := hb n
  generalize m / 262144 % 8 = a at *
  generalize m / 4096 % 64 = b at *
  generalize m / 64 % 64 = c at *
  generalize m % 64 = e at *
  generalize n / 262144 % 8 = a' at *
  generalize n / 4096 % 64 = b' at *
  generalize n / 64 % 64 = c' at *
  generalize n % 64 = e' at *
  omega

theorem utf8EncodeChar_append_lt {c d : Char} (h : c < d) (x y : List UInt8) :
    String.utf8EncodeChar c ++ x < String.utf8EncodeChar d ++ y := by
  have hcd : c.val.toNat < d.val.toNat := h
  have hd := toNat_lt d
  have hdigits := sixBitDigits_lt hcd (by omega)
  simp only [String.utf8EncodeChar]
  -- the number of bytes grows with the code point, and so does the first byte
  repeat' split
  all_goals simp only [List.cons_append, List.nil_append, List.cons_lt_cons_iff,
    UInt8.lt_iff_toNat_lt, ← UInt8.toNat_inj, UInt8.toNat_ofNat']
  all_goals simp (disch := omega) only [Nat.mod_eq_of_lt, Nat.add_lt_add_iff_right,
    Nat.add_right_cancel_iff]
  all_goals omega

theorem flatMap_utf8EncodeChar_lt {s t : List Char} (h : s < t) :
    s.flatMap String.utf8EncodeChar < t.flatMap String.utf8EncodeChar := by
  induction s generalizing t with
  | nil =>
    cases t with
    | nil => exact absurd h (List.lt_irrefl _)
    | cons d t =>
      obtain ⟨b, l, e⟩ := List.exists_cons_of_ne_nil (String.utf8EncodeChar_ne_nil (c := d))
      rw [List.flatMap_cons, List.flatMap_nil, e]
      exact List.nil_lt_cons ..
  | cons c s ih =>
    cases t with
    | nil => exact absurd h (List.not_lt_nil _)
    | cons d t =>
      rw [List.flatMap_cons, List.flatMap_cons]
      rcases List.cons_lt_cons_iff.1 h with hlt | ⟨rfl, hlt⟩
      · exact utf8EncodeChar_append_lt hlt _ _
      · exact List.append_left_lt (ih hlt)

/-- The order of texts is the order of the bytes of their UTF-8 encodings. -/
theorem utf8Bytes_lt {s t : String} (h : s < t) : utf8Bytes s < utf8Bytes t := by
  rw [utf8Bytes_eq_flatMap, utf8Bytes_eq_flatMap]
  exact flatMap_utf8EncodeChar_lt h

end OperatorRules.Text
