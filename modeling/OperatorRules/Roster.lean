/-!
# Rosters

Named things, at most one under each name, kept in ascending order of their names (by code points,
which is also the order of their UTF-8 encodings). A roster is determined by what it holds under
each name, so the order of registration leaves no trace in it. Labels and annotations are rosters
of pairs of texts, named by the first.
-/

namespace OperatorRules

/-- Things that carry a name. -/
class Named (α : Type) where
  /-- The name a thing is registered under. -/
  nameOf : α → String

export Named (nameOf)

instance {β : Type} : Named (String × β) := ⟨Prod.fst⟩

/-- Ascending by name, hence no name twice. -/
def Ascending {α : Type} [Named α] (l : List α) : Prop :=
  l.Pairwise fun a b => nameOf a < nameOf b

/-- Puts `a` in its place, where it replaces what had its name. -/
def insertNamed {α : Type} [Named α] (a : α) : List α → List α
  | [] => [a]
  | b :: l =>
    if nameOf a < nameOf b then a :: b :: l
    else if nameOf b < nameOf a then b :: insertNamed a l
    else a :: l

section
variable {α : Type} [Named α]

theorem mem_insertNamed {a b : α} {l : List α} (h : b ∈ insertNamed a l) : b = a ∨ b ∈ l := by
  induction l with
  | nil => simpa [insertNamed] using h
  | cons c l ih =>
    simp only [insertNamed] at h
    split at h
    · simpa using h
    · split at h
      · rcases List.mem_cons.1 h with rfl | h
        · exact .inr (List.mem_cons_self ..)
        · exact (ih h).imp id (List.mem_cons_of_mem _)
      · rcases List.mem_cons.1 h with rfl | h
        · exact .inl rfl
        · exact .inr (List.mem_cons_of_mem _ h)

theorem ascending_insertNamed (a : α) {l : List α} (h : Ascending l) :
    Ascending (insertNamed a l) := by
  induction l with
  | nil => exact List.pairwise_singleton ..
  | cons b l ih =>
    have hb := List.pairwise_cons.1 h
    simp only [insertNamed]
    split
    · rename_i lt
      refine List.pairwise_cons.2 ⟨fun c hc => ?_, h⟩
      rcases List.mem_cons.1 hc with rfl | hc
      · exact lt
      · exact String.lt_trans lt (hb.1 c hc)
    · split
      · rename_i lt
        refine List.pairwise_cons.2 ⟨fun c hc => ?_, ih hb.2⟩
        rcases mem_insertNamed hc with rfl | hc
        · exact lt
        · exact hb.1 c hc
      · rename_i h1 h2
        have e : nameOf a = nameOf b := String.le_antisymm (String.not_lt.1 h2) (String.not_lt.1 h1)
        exact List.pairwise_cons.2 ⟨fun c hc => e ▸ hb.1 c hc, hb.2⟩

end

/-- Named things in ascending order of their names. -/
structure Roster (α : Type) [Named α] where
  toList : List α
  ascending : Ascending toList

namespace Roster

variable {α : Type} [Named α]

instance [DecidableEq α] : DecidableEq (Roster α) := fun a b =>
  decidable_of_iff (a.toList = b.toList) ⟨fun h => by cases a; cases b; cases h; rfl, (· ▸ rfl)⟩

def empty : Roster α := ⟨[], List.Pairwise.nil⟩

instance : EmptyCollection (Roster α) := ⟨empty⟩
instance : Inhabited (Roster α) := ⟨empty⟩

def get? (r : Roster α) (name : String) : Option α :=
  r.toList.find? fun a => nameOf a == name

def contains (r : Roster α) (name : String) : Bool := (r.get? name).isSome

/-- Registers `a`; what had its name before is replaced. -/
def insert (r : Roster α) (a : α) : Roster α :=
  ⟨insertNamed a r.toList, ascending_insertNamed a r.ascending⟩

def size (r : Roster α) : Nat := r.toList.length

def isEmpty (r : Roster α) : Bool := r.toList.isEmpty

/-- Registers everything in order, so the last of a name stays. -/
def insertMany (r : Roster α) (l : List α) : Roster α := l.foldl insert r

def ofList (l : List α) : Roster α := (∅ : Roster α).insertMany l

end Roster

/-- Texts under keys: the labels or the annotations of a rule. -/
abbrev Entries := Roster (String × String)

namespace Entries

def value? (e : Entries) (key : String) : Option String := (e.get? key).map Prod.snd

def set (e : Entries) (key value : String) : Entries := e.insert (key, value)

end Entries

end OperatorRules
