import OperatorRules.Proofs.Yaml.Layout
import OperatorRules.Yaml.Node

/-!
# Entries of a mapping

Where a scalar ends, no other can go on with a colon and a space (`scalar_ne_append_colon`), so a
key is told apart from its value; a key that is announced by a question mark is told apart by its
lines. An entry is determined by its text (`entryLines_append_inj`).
-/

namespace OperatorRules.Yaml

/-! ## The first character of a scalar -/

/-- Starts like a scalar: visible and not like an empty mapping or list. -/
def StartsScalar (cs : List Char) : Prop :=
  ∃ c t, cs = c :: t ∧ isSpaceOrBreak c = false ∧ c ≠ '\x7b' ∧ c ≠ '['

theorem StartsScalar.visible {cs : List Char} (h : StartsScalar cs) : Visible cs := by
  obtain ⟨c, t, rfl, hc, -⟩ := h
  exact ⟨c, t, rfl, hc⟩

theorem StartsScalar.append {cs : List Char} (h : StartsScalar cs) (t : List Char) :
    StartsScalar (cs ++ t) := by
  obtain ⟨c, s, rfl, hc⟩ := h
  exact ⟨c, s ++ t, rfl, hc⟩

theorem startsScalar_scalar (n : Nat) (cs : List Char) : StartsScalar (scalar n cs) := by
  rw [scalar]
  cases hstyle : styleOf cs with
  | plain =>
    obtain ⟨c, t, rfl⟩ := List.exists_cons_of_ne_nil (ne_nil_of_styleOf_plain hstyle)
    have hplain := (plainAllowed_of_styleOf hstyle).2
    have hstarts := not_startsIndicator_of_plainAllowed hplain
    have hedge : isSpaceOrBreak c = false := by
      simp only [plainAllowed, hasOpenEdge, List.head?_cons, Option.any_some] at hplain
      simp_all
    refine ⟨c, t, rfl, hedge, ?_, ?_⟩
    · rintro rfl
      cases hstarts
    · rintro rfl
      cases hstarts
  | single => exact ⟨'\'', _, rfl, by decide, by decide, by decide⟩
  | double => exact ⟨'"', _, rfl, by decide, by decide, by decide⟩
  | literal => exact ⟨'|', _, rfl, by decide, by decide, by decide⟩

/-! ## Where a key ends -/

theorem readSingleFrom_append_colon {fresh : Bool} {x a : List Char}
    (h : readSingleFrom fresh x = some a) (t : List Char) :
    readSingleFrom fresh (x ++ ':' :: t) = none := by
  fun_induction readSingleFrom fresh x generalizing a with
  | case1 => rfl
  | case2 fresh cs ih =>
    obtain ⟨b, hb, -⟩ := Option.map_eq_some_iff.1 h
    show (readSingleFrom false (cs ++ ':' :: t)).map _ = none
    rw [ih hb]
    rfl
  | case4 fresh c cs _ _ hquote hskip ih =>
    rw [List.cons_append, readSingleFrom_cons hquote, if_pos hskip]
    exact ih h
  | case5 fresh c cs _ _ hquote hskip ih =>
    obtain ⟨b, hb, -⟩ := Option.map_eq_some_iff.1 h
    rw [List.cons_append, readSingleFrom_cons hquote, if_neg hskip, ih hb]
    rfl
  | case3 | case6 => cases h

theorem readDoubleFrom_append {state : DoubleState} {x a : List Char}
    (h : readDoubleFrom state x = some a) {t : List Char} (ht : t ≠ []) :
    readDoubleFrom state (x ++ t) = none := by
  fun_induction readDoubleFrom state x generalizing a with
  | case1 cs hcs =>
    obtain rfl : cs = [] := by simpa using hcs
    rw [List.singleton_append, readDoubleFrom, if_pos rfl, if_neg (by simpa using ht)]
  | case3 cs _ ih =>
    rw [List.cons_append, readDoubleFrom, if_neg (by decide), if_pos rfl]
    exact ih h
  | case4 c cs hquote hslash ih =>
    obtain ⟨b, hb, -⟩ := Option.map_eq_some_iff.1 h
    rw [List.cons_append, readDoubleFrom, if_neg hquote, if_neg hslash, ih hb]
    rfl
  | case5 c cs width hwidth ih =>
    rw [List.cons_append, readDoubleFrom, hwidth]
    exact ih h
  | case6 c cs hwidth ih =>
    obtain ⟨d, hd, hrest⟩ := Option.bind_eq_some_iff.1 h
    obtain ⟨b, hb, -⟩ := Option.map_eq_some_iff.1 hrest
    rw [List.cons_append, readDoubleFrom, hwidth]
    show (unescapeLetter? c).bind _ = none
    rw [hd, Option.bind_some, ih hb]
    rfl
  | case7 left value c cs ihplain ihcode =>
    obtain ⟨d, hd, hrest⟩ := Option.bind_eq_some_iff.1 h
    rw [List.cons_append, readDoubleFrom, hd, Option.bind_some]
    cases left with
    | zero =>
      obtain ⟨b, hb, -⟩ := Option.map_eq_some_iff.1 hrest
      show (readDoubleFrom .plain (cs ++ t)).map _ = none
      rw [ihplain hb]
      rfl
    | succ left => exact ihcode d left hrest
  | case2 | case8 => cases h

theorem shownStyle_append {x : List Char} (hx : x ≠ []) (t : List Char) :
    shownStyle (x ++ t) = shownStyle x := by
  obtain ⟨c, x, rfl⟩ := List.exists_cons_of_ne_nil hx
  unfold shownStyle
  rw [List.cons_append]
  split <;> simp_all

/-- No scalar on one line goes on where another has ended, with a colon and a space. -/
theorem scalar_ne_append_colon (column : Nat) {cs ds : List Char} (hds : ds.any isBreak = false)
    (t : List Char) :
    scalar (column + 2) ds ≠ scalar (column + 2) cs ++ ':' :: ' ' :: t := by
  intro h
  obtain ⟨c, x, hx, -⟩ := startsScalar_scalar (column + 2) cs
  have hshown : shownStyle (scalar (column + 2) cs ++ ':' :: ' ' :: t) = styleOf cs := by
    rw [shownStyle_append (by simp [hx]), shownStyle_scalar]
  have hstyle : styleOf ds = styleOf cs := by
    rw [← shownStyle_scalar (column + 2) ds, h, hshown]
  have hreadc := readScalar_scalar column cs
  have hreadd := readScalar_scalar column ds
  rw [h, readScalar, hshown, hx] at hreadd
  rw [readScalar, shownStyle_scalar, hx] at hreadc
  cases hcs : styleOf cs with
  | plain =>
    rw [scalar, scalar, hstyle, hcs] at h
    have hcolon := (plainAllowed_of_styleOf (hstyle.trans hcs)).2
    simp only [scalarIn] at h
    rw [plainAllowed, h, hasColonBlank_append cs (y := ' ' :: t) rfl] at hcolon
    simp at hcolon
  | single =>
    rw [hcs] at hreadc hreadd
    have hnone := readSingleFrom_append_colon (x := x) hreadc (' ' :: t)
    exact Option.some_ne_none _ (hreadd.symm.trans hnone)
  | double =>
    rw [hcs] at hreadc hreadd
    have hnone := readDoubleFrom_append (x := x) hreadc (List.cons_ne_nil ':' (' ' :: t))
    exact Option.some_ne_none _ (hreadd.symm.trans hnone)
  | literal =>
    have hmem := (literalAllowed_of_styleOf (hstyle.trans hcs)).1
    have hbreak := List.any_eq_false.1 hds _ hmem
    exact hbreak (by decide)

theorem scalar_append_inj (column : Nat) {cs ds r s : List Char} (hcs : cs.any isBreak = false)
    (hds : ds.any isBreak = false)
    (h : scalar (column + 2) cs ++ ':' :: ' ' :: r = scalar (column + 2) ds ++ ':' :: ' ' :: s) :
    cs = ds ∧ r = s := by
  -- what one text has more than the other begins where the other has its colon
  have hequal {cs ds z r s : List Char} (hds : ds.any isBreak = false)
      (hlonger : scalar (column + 2) ds = scalar (column + 2) cs ++ z)
      (h : ':' :: ' ' :: r = z ++ ':' :: ' ' :: s) : z = [] := by
    match z, h with
    | [], _ => rfl
    | [_], h => cases h
    | _ :: _ :: z, h =>
      cases h
      exact absurd hlonger (scalar_ne_append_colon column hds z)
  have hinj (h : scalar (column + 2) cs = scalar (column + 2) ds) : cs = ds := by
    have hread := readScalar_scalar column cs
    rw [h, readScalar_scalar] at hread
    exact (Option.some.inj hread).symm
  rcases List.append_eq_append_iff.1 h with ⟨z, hlonger, hrest⟩ | ⟨z, hlonger, hrest⟩
  · obtain rfl := hequal hds hlonger hrest
    rw [List.append_nil] at hlonger
    cases hrest
    exact ⟨hinj hlonger.symm, rfl⟩
  · obtain rfl := hequal hcs hlonger hrest
    rw [List.append_nil] at hlonger
    cases hrest
    exact ⟨hinj hlonger, rfl⟩

/-! ## Entries -/

theorem startsScalar_entryLines (column : Nat) (k v : String) :
    StartsScalar (entryLines column k v) := by
  rw [entryLines]
  split
  · rw [List.append_assoc]
    exact (startsScalar_scalar _ _).append _
  · exact ⟨'?', _, rfl, by decide, by decide, by decide⟩

theorem scalar_ne_question (n : Nat) (cs r s : List Char) :
    scalar n cs ++ ':' :: ' ' :: r ≠ '?' :: ' ' :: s := by
  intro h
  rw [scalar] at h
  cases hstyle : styleOf cs with
  | plain =>
    rw [hstyle] at h
    have hstarts := not_startsIndicator_of_plainAllowed (plainAllowed_of_styleOf hstyle).2
    rcases cs with _ | ⟨c, _ | ⟨c', cs⟩⟩
    · cases h
    · cases h
    · cases h
      cases hstarts
  | single | double | literal =>
    rw [hstyle] at h
    cases h

theorem dedented_colon (column : Nat) (t : List Char) :
    Dedented (column + 2) (spaces column ++ ':' :: t) :=
  .inr ⟨column, _, by omega, ⟨':', t, rfl, by decide⟩, rfl⟩

/-- An entry is determined by its text, where what follows is indented less. -/
theorem entryLines_append_inj {column : Nat} {k l v w : String} {r s : List Char}
    (hr : Dedented (column + 2) r) (hs : Dedented (column + 2) s)
    (h : entryLines column k v ++ r = entryLines column l w ++ s) :
    k = l ∧ v = w ∧ r = s := by
  have hvalue {x y : List Char} (hkey : k.toList = l.toList ∧ x = y)
      (hx : x = scalarLines (column + 2) v.toList ++ r)
      (hy : y = scalarLines (column + 2) w.toList ++ s) : k = l ∧ v = w ∧ r = s := by
    obtain ⟨hvw, hrs⟩ := scalarLines_append_inj hr hs (hx.symm.trans (hkey.2.trans hy))
    exact ⟨String.toList_inj.1 hkey.1, String.toList_inj.1 hvw, hrs⟩
  have hunbroken {k : String} (hk : isSimpleKey k = true) : k.toList.any isBreak = false := by
    rw [isSimpleKey] at hk
    simp_all
  rw [entryLines, entryLines] at h
  by_cases hk : isSimpleKey k = true <;> by_cases hl : isSimpleKey l = true
  · rw [if_pos hk, if_pos hl, List.append_assoc, List.append_assoc, List.append_assoc,
      List.append_assoc] at h
    exact hvalue (scalar_append_inj column (hunbroken hk) (hunbroken hl) h) rfl rfl
  · rw [if_pos hk, if_neg hl] at h
    simp only [List.append_assoc] at h
    exact (scalar_ne_question _ _ _ _ h).elim
  · rw [if_neg hk, if_pos hl] at h
    simp only [List.append_assoc] at h
    exact (scalar_ne_question _ _ _ _ h.symm).elim
  · rw [if_neg hk, if_neg hl] at h
    simp only [List.append_assoc, List.append_cancel_left_eq] at h
    obtain ⟨hkey, hrest⟩ := scalarLines_append_inj (dedented_colon ..) (dedented_colon ..) h
    rw [List.append_cancel_left_eq] at hrest
    exact hvalue ⟨hkey, (List.cons.inj (List.cons.inj hrest).2).2⟩ rfl rfl

end OperatorRules.Yaml
