import OperatorRules.Proofs.Json.Numerals
import OperatorRules.Proofs.Json.Strings

/-!
# Texts of a document

`Written` says which texts are texts of a document, with blanks wherever the grammar allows them
between two tokens. Whatever text of a document is read, it is read as that document
(`Written.reads`); the compact and the pretty form of a value are both texts of the value laid out
(`written_compact`, `written_prettyAt`), with each number as it is read back from its own text.
-/

namespace OperatorRules.Json

/-- A document, or what follows the first item of an array or the first member of an object. -/
inductive Part where
  | document (d : Document)
  | items (ds : List Document)
  | members (ms : List (Except Fault String × Document))

/-- Nothing but blanks. -/
def Blanks (cs : List Char) : Prop := cs.all isBlank = true

/-- The texts of a document. -/
inductive Written : Part → List Char → Prop where
  | null : Written (.document .null) ['n', 'u', 'l', 'l']
  | trueWord : Written (.document (.bool true)) ['t', 'r', 'u', 'e']
  | falseWord : Written (.document (.bool false)) ['f', 'a', 'l', 's', 'e']
  | number {n : Numeral} (hn : n.Regular) : Written (.document (.number n.value none)) n.chars
  | string (s : String) : Written (.document (.string (.ok s) none)) (stringChars s)
  | emptyArray : Written (.document (.array [] .closed)) ['[', ']']
  | array {b t u : List Char} {d : Document} {ds : List Document} (hb : Blanks b)
      (hd : Written (.document d) t) (hds : Written (.items ds) u) :
      Written (.document (.array (d :: ds) .closed)) ('[' :: (b ++ (t ++ u)))
  | emptyObject : Written (.document (.object [] .closed)) ['\x7b', '\x7d']
  | object {b c t u : List Char} {d : Document} {ms : List (Except Fault String × Document)}
      (k : String) (hb : Blanks b) (hc : Blanks c) (hd : Written (.document d) t)
      (hms : Written (.members ms) u) :
      Written (.document (.object ((.ok k, d) :: ms) .closed))
        ('\x7b' :: (b ++ (stringChars k ++ (':' :: (c ++ (t ++ u))))))
  | lastItem {b : List Char} (hb : Blanks b) : Written (.items []) (b ++ [']'])
  | nextItem {b t u : List Char} {d : Document} {ds : List Document} (hb : Blanks b)
      (hd : Written (.document d) t) (hds : Written (.items ds) u) :
      Written (.items (d :: ds)) (',' :: (b ++ (t ++ u)))
  | lastMember {b : List Char} (hb : Blanks b) : Written (.members []) (b ++ ['\x7d'])
  | nextMember {b c t u : List Char} {d : Document} {ms : List (Except Fault String × Document)}
      (k : String) (hb : Blanks b) (hc : Blanks c) (hd : Written (.document d) t)
      (hms : Written (.members ms) u) :
      Written (.members ((.ok k, d) :: ms))
        (',' :: (b ++ (stringChars k ++ (':' :: (c ++ (t ++ u))))))

/-! ## Reading -/

/-- A part is read from its text, whatever follows, if there are three steps for a character; only
a document may be a number, with which what follows must not go on. -/
def Reads : Part → List Char → Prop
  | .document d, t => ∀ {fuel : Nat} (r : List Char), EndsNumeral r → 3 * t.length ≤ fuel →
      scanDocument fuel (t ++ r) = (d, some r)
  | .items ds, t => ∀ {fuel : Nat} (r : List Char), 3 * t.length ≤ fuel →
      scanItems fuel false (t ++ r) = (ds, .closed, some r)
  | .members ms, t => ∀ {fuel : Nat} (r : List Char), 3 * t.length ≤ fuel →
      scanMembers fuel false (t ++ r) = (ms, .closed, some r)

theorem skipBlanks_append {b : List Char} (hb : Blanks b) (cs : List Char) :
    skipBlanks (b ++ cs) = skipBlanks cs :=
  List.dropWhile_append_of_pos (List.all_eq_true.1 hb)

theorem skipBlanks_cons {c : Char} (hc : isBlank c = false) (cs : List Char) :
    skipBlanks (c :: cs) = c :: cs := by
  rw [skipBlanks, List.dropWhile_cons_of_neg (by simp [hc])]

theorem scanDocument_blanks {b : List Char} (hb : Blanks b) (fuel : Nat) (cs : List Char) :
    scanDocument fuel (b ++ cs) = scanDocument fuel cs := by
  cases fuel with
  | zero => rw [scanDocument, scanDocument]
  | succ fuel => rw [scanDocument, scanDocument, skipBlanks_append hb]

theorem ne_of_starts {c d : Char} (hc : c = '-' ∨ Text.isDigit c = true)
    (hd : ¬ (d = '-' ∨ Text.isDigit d = true)) : c ≠ d := by
  rintro rfl
  exact hd hc

theorem isBlank_of_starts {c : Char} (hc : c = '-' ∨ Text.isDigit c = true) :
    isBlank c = false := by
  have hne (d : Char) := ne_of_starts (d := d) hc
  simp [isBlank, hne ' ' (by decide), hne '\t' (by decide), hne '\n' (by decide),
    hne '\r' (by decide)]

/-- A document starts with neither a blank nor a closing bracket. -/
theorem Written.starts {d : Document} {t : List Char} (h : Written (.document d) t) :
    ∃ c u, t = c :: u ∧ isBlank c = false ∧ c ≠ ']' := by
  cases h with
  | number hn =>
    obtain ⟨c, u, ht, hc⟩ := hn.starts
    exact ⟨c, u, ht, isBlank_of_starts hc, ne_of_starts hc (by decide)⟩
  | _ => exact ⟨_, _, rfl, by decide, by decide⟩

theorem endsNumeral_nil : EndsNumeral [] := fun _ h => by cases h

theorem endsNumeral_cons {c : Char} (hc : Text.isDigit c = false ∧ c ≠ '.' ∧ c ≠ 'e' ∧ c ≠ 'E')
    (cs : List Char) : EndsNumeral (c :: cs) := by
  rintro _ ⟨⟩
  exact hc

theorem endsNumeral_blanks {b : List Char} (hb : Blanks b) {cs : List Char} (h : EndsNumeral cs) :
    EndsNumeral (b ++ cs) := by
  cases b with
  | nil => exact h
  | cons c b =>
    have hc : isBlank c = true := List.all_eq_true.1 hb c (List.mem_cons_self ..)
    simp only [isBlank, Bool.or_eq_true, beq_iff_eq] at hc
    refine endsNumeral_cons ?_ _
    rcases hc with ((rfl | rfl) | rfl) | rfl <;> decide

/-- What follows an item does not go on with a number. -/
theorem Written.endsNumeral_items {ds : List Document} {t : List Char} (h : Written (.items ds) t)
    (r : List Char) : EndsNumeral (t ++ r) := by
  cases h with
  | lastItem hb =>
    rw [List.append_assoc]
    exact endsNumeral_blanks hb (endsNumeral_cons (by decide) r)
  | nextItem => exact endsNumeral_cons (by decide) _

/-- Nor does what follows a member. -/
theorem Written.endsNumeral_members {ms : List (Except Fault String × Document)} {t : List Char}
    (h : Written (.members ms) t) (r : List Char) : EndsNumeral (t ++ r) := by
  cases h with
  | lastMember hb =>
    rw [List.append_assoc]
    exact endsNumeral_blanks hb (endsNumeral_cons (by decide) r)
  | nextMember => exact endsNumeral_cons (by decide) _

/-! ### One step of a scanner -/

section
variable {fuel : Nat} {b : List Char}

theorem scanDocument_bracket {cs : List Char} {ds : List Document} {e : Ending}
    {rest? : Option (List Char)} (h : scanItems fuel true cs = (ds, e, rest?)) :
    scanDocument (fuel + 1) ('[' :: cs) = (.array ds e, rest?) := by
  rw [scanDocument, skipBlanks_cons (by decide)]
  simp only [h]
  rfl

theorem scanDocument_brace {cs : List Char} {ms : List (Except Fault String × Document)}
    {e : Ending} {rest? : Option (List Char)} (h : scanMembers fuel true cs = (ms, e, rest?)) :
    scanDocument (fuel + 1) ('\x7b' :: cs) = (.object ms e, rest?) := by
  rw [scanDocument, skipBlanks_cons (by decide)]
  simp only [h]
  rfl

/-- A number, which starts with a minus sign or a digit. -/
theorem scanDocument_number {c : Char} (hc : c = '-' ∨ Text.isDigit c = true) (cs : List Char) :
    scanDocument (fuel + 1) (c :: cs) = scanNumber (c :: cs) := by
  have hblank : isBlank c = false := isBlank_of_starts hc
  have hne (d : Char) := ne_of_starts (d := d) hc
  rw [scanDocument, skipBlanks_cons hblank]
  simp only [if_pos hc, if_neg (hne 'n' (by decide)), if_neg (hne 't' (by decide)),
    if_neg (hne 'f' (by decide)), if_neg (hne '"' (by decide)), if_neg (hne '[' (by decide)),
    if_neg (hne '\x7b' (by decide))]

theorem scanItems_end (first : Bool) (hb : Blanks b) (r : List Char) :
    scanItems (fuel + 1) first (b ++ ']' :: r) = ([], .closed, some r) := by
  rw [scanItems, skipBlanks_append hb, skipBlanks_cons (by decide)]
  rfl

theorem scanMembers_end (first : Bool) (hb : Blanks b) (r : List Char) :
    scanMembers (fuel + 1) first (b ++ '\x7d' :: r) = ([], .closed, some r) := by
  rw [scanMembers, skipBlanks_append hb, skipBlanks_cons (by decide)]
  rfl

theorem scanItems_first (hb : Blanks b) {d : Document} {t : List Char}
    (ht : Written (.document d) t) (r : List Char) :
    scanItems (fuel + 1) true (b ++ (t ++ r)) = scanItem fuel (t ++ r) := by
  obtain ⟨c, u, rfl, hblank, hbracket⟩ := ht.starts
  rw [scanItems, skipBlanks_append hb, List.cons_append, skipBlanks_cons hblank]
  simp only [if_neg hbracket, if_true]

theorem scanItems_next (hb : Blanks b) {d : Document} {t : List Char}
    (ht : Written (.document d) t) (r : List Char) :
    scanItems (fuel + 1) false (',' :: (b ++ (t ++ r))) = scanItem fuel (t ++ r) := by
  obtain ⟨c, u, rfl, hblank, hbracket⟩ := ht.starts
  rw [scanItems, skipBlanks_cons (by decide)]
  have hcomma : ',' ≠ ']' := by decide
  simp only [if_neg hcomma, Bool.false_eq_true, if_false, if_true, skipBlanks_append hb,
    List.cons_append, skipBlanks_cons hblank, if_neg hbracket]

theorem scanMembers_first (hb : Blanks b) (cs : List Char) :
    scanMembers (fuel + 1) true (b ++ '"' :: cs) = scanMember fuel cs := by
  rw [scanMembers, skipBlanks_append hb, skipBlanks_cons (by decide)]
  rfl

theorem scanMembers_next (hb : Blanks b) (cs : List Char) :
    scanMembers (fuel + 1) false (',' :: (b ++ '"' :: cs)) = scanMember fuel cs := by
  have hquote : skipBlanks ('"' :: cs) = '"' :: cs := skipBlanks_cons (by decide) cs
  have hcomma : ',' ≠ '\x7d' := by decide
  rw [scanMembers, skipBlanks_cons (by decide)]
  simp only [if_neg hcomma, Bool.false_eq_true, if_false, if_true, skipBlanks_append hb, hquote]

variable {d : Document} {ds : List Document} {ms : List (Except Fault String × Document)}
  {t u c : List Char}

theorem scanItem_append (hd : Reads (.document d) t) (hds : Reads (.items ds) u)
    (r : List Char) (hends : EndsNumeral (u ++ r)) (hfuel : 3 * (t.length + u.length) + 1 ≤ fuel) :
    scanItem fuel (t ++ (u ++ r)) = (d :: ds, .closed, some r) := by
  obtain ⟨fuel, rfl⟩ : ∃ n, fuel = n + 1 := ⟨fuel - 1, by omega⟩
  rw [scanItem, hd _ hends (by omega)]
  have htail : scanItems fuel false (u ++ r) = (ds, .closed, some r) := hds r (by omega)
  simp only [htail]

theorem scanMember_append (k : String) (hc : Blanks c) (hd : Reads (.document d) t)
    (hms : Reads (.members ms) u) (r : List Char) (hends : EndsNumeral (u ++ r))
    (hfuel : 3 * (t.length + u.length) + 1 ≤ fuel) :
    scanMember fuel (k.toList.flatMap escapeChar ++ '"' :: ':' :: (c ++ (t ++ (u ++ r)))) =
      ((.ok k, d) :: ms, .closed, some r) := by
  obtain ⟨fuel, rfl⟩ : ∃ n, fuel = n + 1 := ⟨fuel - 1, by omega⟩
  have hcolon (cs : List Char) : skipBlanks (':' :: cs) = ':' :: cs :=
    skipBlanks_cons (by decide) cs
  rw [scanMember, readString_escaped]
  simp only [hcolon]
  rw [scanDocument_blanks hc, hd _ hends (by omega)]
  have htail : scanMembers fuel false (u ++ r) = (ms, .closed, some r) := hms r (by omega)
  simp only [htail]

end

/-- Any text of a document is read as that document. -/
theorem Written.reads {p : Part} {t : List Char} (h : Written p t) : Reads p t := by
  induction h with
  | null | trueWord | falseWord =>
    intro fuel r _ hfuel
    obtain ⟨fuel, rfl⟩ : ∃ n, fuel = n + 1 := ⟨fuel - 1, by simp at hfuel; omega⟩
    rw [scanDocument, List.cons_append, skipBlanks_cons (by decide)]
    rfl
  | number hn =>
    intro fuel r hr hfuel
    obtain ⟨c, cs, ht, hc⟩ := hn.starts
    obtain ⟨fuel, rfl⟩ : ∃ n, fuel = n + 1 := ⟨fuel - 1, by simp [ht] at hfuel; omega⟩
    have hscan := scanNumeral_append hn hr
    rw [ht, List.cons_append] at hscan ⊢
    rw [scanDocument_number hc, scanNumber, hscan]
  | string s =>
    intro fuel r _ hfuel
    obtain ⟨fuel, rfl⟩ : ∃ n, fuel = n + 1 := ⟨fuel - 1, by simp [stringChars] at hfuel; omega⟩
    rw [stringChars, List.cons_append, List.cons_append, scanDocument,
      skipBlanks_cons (by decide), List.append_assoc]
    show stringDocument (s.toList.flatMap escapeChar ++ '"' :: r) = _
    rw [stringDocument, readString_escaped]
  | emptyArray =>
    intro fuel r _ hfuel
    obtain ⟨fuel, rfl⟩ : ∃ n, fuel = n + 2 := ⟨fuel - 2, by simp at hfuel; omega⟩
    exact scanDocument_bracket (scanItems_end (b := []) true rfl r)
  | emptyObject =>
    intro fuel r _ hfuel
    obtain ⟨fuel, rfl⟩ : ∃ n, fuel = n + 2 := ⟨fuel - 2, by simp at hfuel; omega⟩
    exact scanDocument_brace (scanMembers_end (b := []) true rfl r)
  | array hb hd hds ihd ihds =>
    intro fuel r _ hfuel
    simp only [List.length_cons, List.length_append] at hfuel
    obtain ⟨fuel, rfl⟩ : ∃ n, fuel = n + 2 := ⟨fuel - 2, by omega⟩
    rw [List.cons_append, List.append_assoc, List.append_assoc]
    refine scanDocument_bracket ?_
    rw [scanItems_first hb hd, scanItem_append ihd ihds r (hds.endsNumeral_items r) (by omega)]
  | object k hb hc hd hms ihd ihms =>
    intro fuel r _ hfuel
    simp only [List.length_cons, List.length_append] at hfuel
    obtain ⟨fuel, rfl⟩ : ∃ n, fuel = n + 2 := ⟨fuel - 2, by omega⟩
    simp only [stringChars, List.cons_append, List.append_assoc, List.nil_append]
    refine scanDocument_brace ?_
    rw [scanMembers_first hb,
      scanMember_append k hc ihd ihms r (hms.endsNumeral_members r) (by omega)]
  | lastItem hb =>
    intro fuel r hfuel
    simp only [List.length_append, List.length_singleton] at hfuel
    obtain ⟨fuel, rfl⟩ : ∃ n, fuel = n + 1 := ⟨fuel - 1, by omega⟩
    rw [List.append_assoc]
    exact scanItems_end false hb r
  | nextItem hb hd hds ihd ihds =>
    intro fuel r hfuel
    simp only [List.length_cons, List.length_append] at hfuel
    obtain ⟨fuel, rfl⟩ : ∃ n, fuel = n + 1 := ⟨fuel - 1, by omega⟩
    rw [List.cons_append, List.append_assoc, List.append_assoc, scanItems_next hb hd,
      scanItem_append ihd ihds r (hds.endsNumeral_items r) (by omega)]
  | lastMember hb =>
    intro fuel r hfuel
    simp only [List.length_append, List.length_singleton] at hfuel
    obtain ⟨fuel, rfl⟩ : ∃ n, fuel = n + 1 := ⟨fuel - 1, by omega⟩
    rw [List.append_assoc]
    exact scanMembers_end false hb r
  | nextMember k hb hc hd hms ihd ihms =>
    intro fuel r hfuel
    simp only [List.length_cons, List.length_append] at hfuel
    obtain ⟨fuel, rfl⟩ : ∃ n, fuel = n + 1 := ⟨fuel - 1, by omega⟩
    simp only [stringChars, List.cons_append, List.append_assoc, List.nil_append]
    rw [scanMembers_next hb,
      scanMember_append k hc ihd ihms r (hms.endsNumeral_members r) (by omega)]

/-- A page that holds a text of a document and nothing else. -/
theorem Written.page {d : Document} {t : List Char} (h : Written (.document d) t) :
    Page.ofChars t = ⟨d, none⟩ := by
  have hread : scanDocument (3 * t.length + 3) (t ++ []) = (d, some []) :=
    h.reads [] endsNumeral_nil (by omega)
  rw [List.append_nil] at hread
  rw [Page.ofChars, hread]
  rfl

/-! ## Values laid out -/

namespace Document

mutual

/-- A value laid out in the order that it fixes, with every number as `num` reads it. -/
def laid (num : Number → Except Fault Number) : Value → Document
  | .null => .null
  | .bool b => .bool b
  | .number n => .number (num n) none
  | .string s => .string (.ok s) none
  | .array items => .array (laidItems num items) .closed
  | .object members => .object (laidMembers num members) .closed

/-- The items of an array, laid out. -/
def laidItems (num : Number → Except Fault Number) : List Value → List Document
  | [] => []
  | v :: vs => laid num v :: laidItems num vs

/-- The members of an object, laid out. -/
def laidMembers (num : Number → Except Fault Number) :
    List (String × Value) → List (Except Fault String × Document)
  | [] => []
  | (k, v) :: ms => (.ok k, laid num v) :: laidMembers num ms

end

mutual

theorem laid_ok : ∀ v : Value, laid .ok v = ofValue v
  | .null | .bool _ | .number _ | .string _ => rfl
  | .array items => by rw [laid, ofValue, laidItems_ok items]
  | .object members => by rw [laid, ofValue, laidMembers_ok members]

theorem laidItems_ok : ∀ vs : List Value, laidItems .ok vs = ofItems vs
  | [] => rfl
  | v :: vs => by rw [laidItems, ofItems, laid_ok v, laidItems_ok vs]

theorem laidMembers_ok : ∀ ms : List (String × Value), laidMembers .ok ms = ofMembers ms
  | [] => rfl
  | (k, v) :: ms => by rw [laidMembers, ofMembers, laid_ok v, laidMembers_ok ms]

end

end Document

mutual

/-- No number in a value. -/
def Value.Numberless : Value → Prop
  | .number _ => False
  | .array items => ItemsNumberless items
  | .object members => MembersNumberless members
  | _ => True

/-- No number in any of the items. -/
def Value.ItemsNumberless : List Value → Prop
  | [] => True
  | v :: vs => v.Numberless ∧ ItemsNumberless vs

/-- No number in any of the members. -/
def Value.MembersNumberless : List (String × Value) → Prop
  | [] => True
  | (_, v) :: ms => v.Numberless ∧ MembersNumberless ms

end

namespace Value

theorem itemsNumberless_map {α : Type} {toJson : α → Value} (h : ∀ a, (toJson a).Numberless)
    (l : List α) : ItemsNumberless (l.map toJson) := by
  induction l with
  | nil => trivial
  | cons a l ih => exact ⟨h a, ih⟩

theorem membersNumberless_append {ms ms' : List (String × Value)} (h : MembersNumberless ms)
    (h' : MembersNumberless ms') : MembersNumberless (ms ++ ms') := by
  induction ms with
  | nil => exact h'
  | cons m ms ih => exact ⟨h.1, ih h.2⟩

theorem numberless_ofEntries (e : Entries) : (ofEntries e).Numberless := by
  show MembersNumberless (e.toList.map _)
  induction e.toList with
  | nil => trivial
  | cons kv l ih => exact ⟨trivial, ih⟩

end Value

mutual

/-- How numbers are read makes no difference where there is none. -/
theorem laid_of_numberless (num : Number → Except Fault Number) :
    ∀ v : Value, v.Numberless → Document.laid num v = .ofValue v
  | .null, _ | .bool _, _ | .string _, _ => rfl
  | .array items, h => by
    rw [Document.laid, Document.ofValue, laidItems_of_numberless num items h]
  | .object members, h => by
    rw [Document.laid, Document.ofValue, laidMembers_of_numberless num members h]

theorem laidItems_of_numberless (num : Number → Except Fault Number) :
    ∀ vs : List Value, Value.ItemsNumberless vs →
      Document.laidItems num vs = Document.ofItems vs
  | [], _ => rfl
  | v :: vs, h => by
    rw [Document.laidItems, Document.ofItems, laid_of_numberless num v h.1,
      laidItems_of_numberless num vs h.2]

theorem laidMembers_of_numberless (num : Number → Except Fault Number) :
    ∀ ms : List (String × Value), Value.MembersNumberless ms →
      Document.laidMembers num ms = Document.ofMembers ms
  | [], _ => rfl
  | (k, v) :: ms, h => by
    rw [Document.laidMembers, Document.ofMembers, laid_of_numberless num v h.1,
      laidMembers_of_numberless num ms h.2]

end

/-! ## Printing -/

/-- A number as it is read back from its own text. -/
def Number.reread (n : Number) : Except Fault Number :=
  match scanNumeral n.chars with
  | .ok (read, _) => read.value
  | .error _ => .error .malformed

theorem written_number (n : Number) : Written (.document (.number n.reread none)) n.chars := by
  obtain ⟨m, hm, hchars⟩ := n.exists_numeral
  have hscan : scanNumeral n.chars = .ok (m, []) := by
    rw [hchars, ← List.append_nil m.chars]
    exact scanNumeral_append hm endsNumeral_nil
  rw [Number.reread, hscan, hchars]
  exact .number hm

mutual

/-- The compact form is a text of the value. -/
theorem written_compact : ∀ v : Value, Written (.document (.laid Number.reread v)) v.compact
  | .null => .null
  | .bool true => .trueWord
  | .bool false => .falseWord
  | .number n => written_number n
  | .string s => .string s
  | .array [] => .emptyArray
  | .array (v :: vs) => by
    have hwritten := Written.array (b := []) rfl (written_compact v) (written_compactItems vs)
    simpa [Value.compact, Document.laid, Document.laidItems] using hwritten
  | .object [] => .emptyObject
  | .object ((k, v) :: ms) => by
    have hwritten := Written.object (b := []) (c := []) k rfl rfl (written_compact v)
      (written_compactMembers ms)
    simpa [Value.compact, Document.laid, Document.laidMembers] using hwritten

theorem written_compactItems : ∀ vs : List Value,
    Written (.items (Document.laidItems Number.reread vs)) (Value.compactItems vs)
  | [] => .lastItem (b := []) rfl
  | v :: vs => by
    have hwritten := Written.nextItem (b := []) rfl (written_compact v) (written_compactItems vs)
    simpa [Value.compactItems, Document.laidItems] using hwritten

theorem written_compactMembers : ∀ ms : List (String × Value),
    Written (.members (Document.laidMembers Number.reread ms)) (Value.compactMembers ms)
  | [] => .lastMember (b := []) rfl
  | (k, v) :: ms => by
    have hwritten := Written.nextMember (b := []) (c := []) k rfl rfl (written_compact v)
      (written_compactMembers ms)
    simpa [Value.compactMembers, Document.laidMembers] using hwritten

end

theorem blanks_newline (depth : Nat) : Blanks (Value.newline depth) := by
  have hspace : isBlank ' ' = true := by decide
  have hline : isBlank '\n' = true := by decide
  simp [Blanks, Value.newline, hspace, hline]

mutual

/-- The pretty form is a text of the value. -/
theorem written_prettyAt : ∀ (v : Value) (depth : Nat),
    Written (.document (.laid Number.reread v)) (v.prettyAt depth)
  | .null, _ => .null
  | .bool true, _ => .trueWord
  | .bool false, _ => .falseWord
  | .number n, _ => written_number n
  | .string s, _ => .string s
  | .array [], _ => .emptyArray
  | .array (v :: vs), depth => by
    have hwritten := Written.array (blanks_newline (depth + 1)) (written_prettyAt v (depth + 1))
      (written_prettyItems vs depth)
    simpa [Value.prettyAt, Document.laid, Document.laidItems] using hwritten
  | .object [], _ => .emptyObject
  | .object ((k, v) :: ms), depth => by
    have hwritten := Written.object (c := [' ']) k (blanks_newline (depth + 1)) rfl
      (written_prettyAt v (depth + 1)) (written_prettyMembers ms depth)
    simpa [Value.prettyAt, Document.laid, Document.laidMembers] using hwritten

theorem written_prettyItems : ∀ (vs : List Value) (depth : Nat),
    Written (.items (Document.laidItems Number.reread vs)) (Value.prettyItems depth vs)
  | [], depth => .lastItem (blanks_newline depth)
  | v :: vs, depth => by
    have hwritten := Written.nextItem (blanks_newline (depth + 1)) (written_prettyAt v (depth + 1))
      (written_prettyItems vs depth)
    simpa [Value.prettyItems, Document.laidItems] using hwritten

theorem written_prettyMembers : ∀ (ms : List (String × Value)) (depth : Nat),
    Written (.members (Document.laidMembers Number.reread ms)) (Value.prettyMembers depth ms)
  | [], depth => .lastMember (blanks_newline depth)
  | (k, v) :: ms, depth => by
    have hwritten := Written.nextMember (c := [' ']) k (blanks_newline (depth + 1)) rfl
      (written_prettyAt v (depth + 1)) (written_prettyMembers ms depth)
    simpa [Value.prettyMembers, Document.laidMembers] using hwritten

end

end OperatorRules.Json
