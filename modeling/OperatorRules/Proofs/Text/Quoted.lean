import Mathlib.Algebra.Ring.Parity
import Mathlib.Data.List.TakeWhile
import OperatorRules.Proofs.Text.Digits
import OperatorRules.Text.Quoted

/-!
# Quoted text read back

Reading the escapes back gives the text that was quoted (`unescape_escape`). What stands between the
quotes is escaped: no quote in it ends the text (`Escaped.odd_backslashes`), so a quoted text tells
where it ends and which text it is, whatever follows it (`quoted_append_inj`). Every character of it
is visible (`isUnprintable_of_mem_quoted`).
-/

namespace OperatorRules.Text

/-! ## Reading escapes -/

theorem scalar?_toNat (c : Char) : scalar? c.toNat = some c := by
  have hvalid : c.toNat.isValidChar := c.valid
  rw [scalar?, if_pos hvalid, Char.ofNat_toNat]

/-- A code point is written with digits only. -/
theorem not_mem_hexadecimal {c : Char} (hc : digitValue? c = none) (n : Nat) :
    c ∉ hexadecimal n := by
  intro hmem
  obtain ⟨d, hd, rfl⟩ := exists_digitChar_of_mem_digits (by decide) hmem
  rw [digitValue?_digitChar hd] at hc
  cases hc

/-- The digits of a code point are gathered up to the brace that closes it. -/
theorem unescapeFrom_code (ds : List Char) {hs : List Char} (hclosing : '\x7d' ∉ hs)
    (cs : List Char) :
    unescapeFrom (.code ds) (hs ++ '\x7d' :: cs) =
      ((ofDigits? 16 (ds ++ hs)).bind scalar?).bind fun d =>
        (unescapeFrom .plain cs).map (d :: ·) := by
  induction hs generalizing ds with
  | nil => rw [List.append_nil, List.nil_append, unescapeFrom, if_pos rfl]
  | cons c hs ih =>
    have hne : c ≠ '\x7d' := fun h => hclosing (h ▸ List.mem_cons_self ..)
    have hrest : '\x7d' ∉ hs := fun h => hclosing (List.mem_cons_of_mem _ h)
    rw [List.cons_append, unescapeFrom, if_neg hne, ih _ hrest, List.append_assoc,
      List.singleton_append]

/-- What is written for a character is read as that character. -/
theorem unescapeFrom_escapeChar (c : Char) (cs : List Char) :
    unescapeFrom .plain (escapeChar c ++ cs) = (unescapeFrom .plain cs).map (c :: ·) := by
  by_cases hquote : c = '"'
  · subst hquote; rfl
  by_cases hbackslash : c = '\\'
  · subst hbackslash; rfl
  by_cases hn : c = '\n'
  · subst hn; rfl
  by_cases hr : c = '\r'
  · subst hr; rfl
  by_cases ht : c = '\t'
  · subst ht; rfl
  by_cases hzero : c = '\x00'
  · subst hzero; rfl
  rw [escapeChar, if_neg hquote, if_neg hbackslash, if_neg hn, if_neg hr, if_neg ht, if_neg hzero]
  split
  · show unescapeFrom (.code []) (hexadecimal c.toNat ++ ['\x7d'] ++ cs) = _
    have hcode : ofDigits? 16 (hexadecimal c.toNat) = some c.toNat :=
      ofDigits?_digits (by decide) (by decide) _
    rw [List.append_assoc, List.singleton_append,
      unescapeFrom_code [] (not_mem_hexadecimal (by decide) _), List.nil_append, hcode,
      Option.bind_some, scalar?_toNat, Option.bind_some]
  · rw [List.singleton_append, unescapeFrom, if_neg hbackslash, if_neg hquote]

theorem unescape_escape (cs : List Char) : unescape (escape cs) = some cs := by
  induction cs with
  | nil => rfl
  | cons c cs ih =>
    rw [unescape, escape, List.flatMap_cons, unescapeFrom_escapeChar, ← escape, ← unescape, ih]
    rfl

/-! ## Escaped text -/

/-- Text in which a backslash escapes what follows it, and a double quote stands nowhere else. -/
inductive Escaped : List Char → Prop
  | nil : Escaped []
  | plain {c : Char} {cs : List Char} (hquote : c ≠ '"') (hbackslash : c ≠ '\\') (h : Escaped cs) :
    Escaped (c :: cs)
  | pair {c : Char} {cs : List Char} (h : Escaped cs) : Escaped ('\\' :: c :: cs)

theorem Escaped.append {cs ds : List Char} (h : Escaped cs) (h' : Escaped ds) :
    Escaped (cs ++ ds) := by
  induction h with
  | nil => exact h'
  | plain hquote hbackslash _ ih => exact .plain hquote hbackslash ih
  | pair _ ih => exact .pair ih

theorem escaped_of_notMem {cs : List Char} (hquote : '"' ∉ cs) (hbackslash : '\\' ∉ cs) :
    Escaped cs := by
  induction cs with
  | nil => exact .nil
  | cons c cs ih =>
    rw [List.mem_cons, not_or] at hquote hbackslash
    exact .plain (Ne.symm hquote.1) (Ne.symm hbackslash.1) (ih hquote.2 hbackslash.2)

theorem escaped_escapeChar (c : Char) : Escaped (escapeChar c) := by
  by_cases hquote : c = '"'
  · subst hquote; exact .pair .nil
  by_cases hbackslash : c = '\\'
  · subst hbackslash; exact .pair .nil
  rw [escapeChar, if_neg hquote, if_neg hbackslash]
  -- four short escapes, a code point, or the character itself
  split_ifs
  iterate 4 exact .pair .nil
  · have hcode : Escaped ('\x7b' :: (hexadecimal c.toNat ++ ['\x7d'])) := by
      refine escaped_of_notMem ?_ ?_
      · simp [not_mem_hexadecimal (c := '"') (by decide)]
      · simp [not_mem_hexadecimal (c := '\\') (by decide)]
    exact .pair hcode
  · exact .plain hquote hbackslash .nil

theorem escaped_escape (cs : List Char) : Escaped (escape cs) := by
  induction cs with
  | nil => exact .nil
  | cons c cs ih => exact (escaped_escapeChar c).append ih

/-- The number of backslashes at the end of a text. -/
def backslashes (cs : List Char) : Nat := (cs.reverse.takeWhile (· == '\\')).length

theorem backslashes_of_forall {cs : List Char} (h : ∀ c ∈ cs, c = '\\') :
    backslashes cs = cs.length := by
  have hself : cs.reverse.takeWhile (· == '\\') = cs.reverse :=
    List.takeWhile_eq_self_iff.2 (by simpa using h)
  rw [backslashes, hself, List.length_reverse]

/-- A character in front has no say, unless there are backslashes only. -/
theorem backslashes_cons {c : Char} {cs : List Char} (h : ¬ ∀ d ∈ c :: cs, d = '\\') :
    backslashes (c :: cs) = backslashes cs := by
  rw [backslashes, backslashes, List.reverse_cons, List.takeWhile_append]
  split
  · next hlength =>
    have hself : cs.reverse.takeWhile (· == '\\') = cs.reverse :=
      (List.takeWhile_prefix _).eq_of_length hlength
    have hall : ∀ d ∈ cs, d = '\\' := by
      have hall := List.all_takeWhile (p := (· == '\\')) (l := cs.reverse)
      rw [hself] at hall
      simpa using hall
    have hne : c ≠ '\\' := fun hc => h (List.forall_mem_cons.2 ⟨hc, hall⟩)
    rw [hself, List.takeWhile_cons_of_neg (by simpa using hne), List.append_nil]
  · rfl

/-- A backslash and what follows it have no say in whether their number is odd. -/
theorem odd_backslashes_pair (c : Char) (cs : List Char) :
    Odd (backslashes ('\\' :: c :: cs)) ↔ Odd (backslashes cs) := by
  by_cases h : ∀ d ∈ c :: cs, d = '\\'
  · have hpair : ∀ d ∈ '\\' :: c :: cs, d = '\\' := List.forall_mem_cons.2 ⟨rfl, h⟩
    rw [backslashes_of_forall hpair, backslashes_of_forall (List.forall_mem_cons.1 h).2,
      List.length_cons, List.length_cons, Nat.odd_add_one, Nat.odd_add_one, not_not]
  · rw [backslashes_cons (mt (fun hpair => (List.forall_mem_cons.1 hpair).2) h),
      backslashes_cons h]

/-- In escaped text, an odd number of backslashes stands before a double quote. -/
theorem Escaped.odd_backslashes {before after : List Char}
    (h : Escaped (before ++ '"' :: after)) : Odd (backslashes before) := by
  generalize hcs : before ++ '"' :: after = cs at h
  induction h generalizing before with
  | nil => cases before <;> cases hcs
  | @plain c cs hquote hbackslash _ ih =>
    cases before with
    | nil =>
      cases hcs
      exact absurd rfl hquote
    | cons d before =>
      obtain ⟨rfl, hrest⟩ := List.cons.inj hcs
      rw [backslashes_cons fun hall => hbackslash (hall d (List.mem_cons_self ..))]
      exact ih hrest
  | @pair c cs _ ih =>
    match before with
    | [] => cases hcs
    | [d] =>
      obtain ⟨rfl, -⟩ := List.cons.inj hcs
      exact ⟨0, rfl⟩
    | d :: e :: before =>
      obtain ⟨rfl, hrest⟩ := List.cons.inj hcs
      rw [odd_backslashes_pair]
      exact ih (List.cons.inj hrest).2

/-- At its end there is an even number, so what follows is not escaped. -/
theorem Escaped.not_odd_backslashes {cs : List Char} (h : Escaped cs) :
    ¬ Odd (backslashes cs) := by
  induction h with
  | nil => decide
  | @plain c cs _ hbackslash _ ih =>
    rwa [backslashes_cons fun hall => hbackslash (hall c (List.mem_cons_self ..))]
  | pair _ ih => rwa [odd_backslashes_pair]

/-- Escaped text ends at the first double quote that is not escaped. -/
theorem Escaped.append_quote_inj {cs cs' rest rest' : List Char} (h : Escaped cs)
    (h' : Escaped cs') (heq : cs ++ '"' :: rest = cs' ++ '"' :: rest') :
    cs = cs' ∧ rest = rest' := by
  -- a text that goes on behind the quote would have a quote that is not escaped
  have hend {cs ds rest rest' : List Char} (h : Escaped cs) (h' : Escaped (cs ++ ds))
      (heq : '"' :: rest = ds ++ '"' :: rest') : ds = [] := by
    cases ds with
    | nil => rfl
    | cons c ds =>
      obtain ⟨rfl, -⟩ := List.cons.inj heq
      exact absurd h'.odd_backslashes h.not_odd_backslashes
  rcases List.append_eq_append_iff.1 heq with ⟨ds, rfl, hds⟩ | ⟨ds, rfl, hds⟩
  · obtain rfl := hend h h' hds
    exact ⟨(List.append_nil cs).symm, (List.cons.inj hds).2⟩
  · obtain rfl := hend h' h hds
    exact ⟨List.append_nil cs', ((List.cons.inj hds).2).symm⟩

/-! ## Quoted text -/

/-- A quoted text tells where it ends and which text it is. -/
theorem quoted_append_inj {cs cs' rest rest' : List Char} :
    quoted cs ++ rest = quoted cs' ++ rest' ↔ cs = cs' ∧ rest = rest' := by
  constructor
  · intro h
    have hlists : escape cs ++ '"' :: rest = escape cs' ++ '"' :: rest' := by
      simpa [quoted] using h
    obtain ⟨hescape, hrest⟩ := (escaped_escape cs).append_quote_inj (escaped_escape cs') hlists
    have hcs : some cs = some cs' := by rw [← unescape_escape, hescape, unescape_escape]
    exact ⟨Option.some.inj hcs, hrest⟩
  · rintro ⟨rfl, rfl⟩
    rfl

theorem toList_quote (s : String) : (quote s).toList = quoted s.toList := String.toList_ofList

theorem quote_append_inj {s t rest rest' : String} :
    quote s ++ rest = quote t ++ rest' ↔ s = t ∧ rest = rest' := by
  rw [← String.toList_inj, String.toList_append, String.toList_append, toList_quote, toList_quote,
    quoted_append_inj, String.toList_inj, String.toList_inj]

theorem quote_inj {s t : String} : quote s = quote t ↔ s = t := by
  have h : quote s ++ "" = quote t ++ "" ↔ s = t ∧ "" = "" := quote_append_inj
  simpa using h

theorem unquoted?_quoted (cs : List Char) : unquoted? (quoted cs) = some cs := by
  have hlast : (escape cs ++ ['"']).getLast? = some '"' := List.getLast?_concat ..
  rw [quoted, List.cons_append, unquoted?, if_pos hlast, List.dropLast_concat, unescape_escape]

/-! ## Visible characters -/

theorem isUnprintable_of_mem_hexadecimal {n : Nat} {c : Char} (hc : c ∈ hexadecimal n) :
    isUnprintable c = false := by
  have hall : ∀ d : Fin 16, isUnprintable (digitChar d) = false := by decide
  obtain ⟨d, hd, rfl⟩ := exists_digitChar_of_mem_digits (by decide) hc
  exact hall ⟨d, hd⟩

/-- What escapes are made of beside digits. -/
def escapeMarks : List Char := ['\\', '"', 'n', 'r', 't', '0', 'u', '\x7b', '\x7d']

theorem mem_escapeChar {c d : Char} (hd : d ∈ escapeChar c) :
    d ∈ escapeMarks ∨ d ∈ hexadecimal c.toNat ∨ d = c ∧ isUnprintable c = false := by
  have hshort {e : Char} (he : e ∈ escapeMarks) (hd : d ∈ ['\\', e]) : d ∈ escapeMarks := by
    rw [List.mem_cons, List.mem_singleton] at hd
    rcases hd with rfl | rfl
    · decide
    · exact he
  rw [escapeChar] at hd
  split_ifs at hd with _ _ _ _ _ _ hc
  iterate 6 exact .inl (hshort (by decide) hd)
  · rw [List.mem_append, List.mem_append] at hd
    have hopening : ['\\', 'u', '\x7b'] ⊆ escapeMarks := by decide
    have hclosing : ['\x7d'] ⊆ escapeMarks := by decide
    rcases hd with (hd | hd) | hd
    · exact .inl (hopening hd)
    · exact .inr (.inl hd)
    · exact .inl (hclosing hd)
  · exact .inr (.inr ⟨List.mem_singleton.1 hd, Bool.eq_false_iff.2 hc⟩)

theorem isUnprintable_of_mem_escapeChar {c d : Char} (hd : d ∈ escapeChar c) :
    isUnprintable d = false := by
  have hmarks : escapeMarks.all (fun e => !isUnprintable e) = true := by decide
  rcases mem_escapeChar hd with hd | hd | ⟨rfl, hc⟩
  · simpa using List.all_eq_true.1 hmarks d hd
  · exact isUnprintable_of_mem_hexadecimal hd
  · exact hc

theorem isUnprintable_of_mem_quoted {cs : List Char} {c : Char} (hc : c ∈ quoted cs) :
    isUnprintable c = false := by
  rcases List.mem_append.1 hc with hc | hc
  · rcases List.mem_cons.1 hc with rfl | hc
    · decide
    · obtain ⟨d, -, hd⟩ := List.mem_flatMap.1 hc
      exact isUnprintable_of_mem_escapeChar hd
  · obtain rfl := List.mem_singleton.1 hc
    decide

end OperatorRules.Text
