import Mathlib.Data.List.Induction
import OperatorRules.Proofs.Roster
import OperatorRules.Rule.Alert

/-!
# The settings of an alert

A setting writes one place of an alert: its holding time, an annotation or a label (`at?_apply`).
So an alert has at each place what was written there last (`at?_configure`), and settings may change
their order as long as those that write the same place keep theirs (`Reorders.filter_eq`).
-/

namespace OperatorRules

/-! ## Changes of order -/

section
variable {α κ : Type} [DecidableEq κ] {kind : α → κ} {l l' : List α}

/-- The second list has the things of the first in another order, where things of one kind come in
the order that they had. The number of a thing says where it was. -/
def Reorders (kind : α → κ) (l l' : List α) : Prop :=
  ∃ numbered : List (α × Nat), numbered.Perm l.zipIdx ∧ numbered.map Prod.fst = l' ∧
    numbered.Pairwise fun x y => kind x.1 = kind y.1 → x.2 < y.2

omit [DecidableEq κ] in
theorem pairwise_zipIdx (l : List α) : l.zipIdx.Pairwise fun x y => x.2 < y.2 := by
  have hnumbers : (l.zipIdx.map Prod.snd).Pairwise (· < ·) := by
    rw [List.zipIdx_map_snd]
    exact List.pairwise_lt_range'
  exact List.pairwise_map.1 hnumbers

/-- The things of one kind are the same, in the same order. -/
theorem Reorders.filter_eq (h : Reorders kind l l') (k : κ) :
    l.filter (fun a => kind a = k) = l'.filter fun a => kind a = k := by
  obtain ⟨numbered, hperm, rfl, hkept⟩ := h
  have hmem {x : α × Nat} {xs : List (α × Nat)} (hx : x ∈ xs.filter fun x => kind x.1 = k) :
      kind x.1 = k := by simpa using (List.mem_filter.1 hx).2
  have hsorted : (numbered.filter fun x => kind x.1 = k).Pairwise fun x y => x.2 < y.2 :=
    (hkept.filter _).imp_of_mem fun hx hy hlt => hlt ((hmem hx).trans (hmem hy).symm)
  -- both are in the order of the numbers
  have hfilter : numbered.filter (fun x => kind x.1 = k) =
      l.zipIdx.filter fun x => kind x.1 = k :=
    (hperm.filter _).eq_of_pairwise (fun _ _ _ _ hxy hyx => absurd hxy (Nat.lt_asymm hyx)) hsorted
      ((pairwise_zipIdx l).filter _)
  have hmap (xs : List (α × Nat)) : (xs.map Prod.fst).filter (fun a => kind a = k) =
      (xs.filter fun x => kind x.1 = k).map Prod.fst := List.filter_map ..
  rw [hmap, hfilter, ← hmap, List.zipIdx_map_fst]

end

namespace AlertRule

/-! ## Places -/

/-- The places of an alert that settings write. -/
inductive Place where
  | holdFor
  | annotationOf (key : String)
  | labelOf (key : String)
  deriving DecidableEq

def Setting.place : Setting → Place
  | .holding _ => .holdFor
  | .annotate key _ => .annotationOf key
  | .label key _ => .labelOf key
  | .summary _ => .annotationOf summaryKey
  | .severity _ => .labelOf severityKey
  | .healthImpact _ => .labelOf healthImpactKey

def Setting.text : Setting → String
  | .holding duration => duration
  | .annotate _ value => value
  | .label _ value => value
  | .summary text => text
  | .severity level => level
  | .healthImpact impact => impact

def Setting.annotates (s : Setting) : Bool :=
  match s.place with
  | .annotationOf _ => true
  | _ => false

def Setting.labels (s : Setting) : Bool :=
  match s.place with
  | .labelOf _ => true
  | _ => false

def at? (a : AlertRule) : Place → Option String
  | .holdFor => a.holdFor
  | .annotationOf key => a.annotations.value? key
  | .labelOf key => a.labels.value? key

/-- What settings write to a place, in their order. -/
def written (p : Place) (steps : List Setting) : List String :=
  (steps.filter fun s => s.place = p).map Setting.text

variable {a b : AlertRule}

theorem ext_at? (hname : a.name = b.name) (hexpr : a.expr = b.expr) (h : ∀ p, a.at? p = b.at? p) :
    a = b := by
  have hholdFor : a.holdFor = b.holdFor := h .holdFor
  have hannotations : a.annotations = b.annotations :=
    Entries.ext_value? fun key => h (.annotationOf key)
  have hlabels : a.labels = b.labels := Entries.ext_value? fun key => h (.labelOf key)
  cases a
  cases b
  cases hname
  cases hexpr
  cases hholdFor
  cases hannotations
  cases hlabels
  rfl

/-! ## What settings do -/

/-- A setting writes its text to its place and nothing else. -/
theorem at?_apply (s : Setting) (a : AlertRule) (p : Place) :
    (s.apply a).at? p = if s.place = p then some s.text else a.at? p := by
  have hholding (d : String) :
      (a.holding d).at? p = if Place.holdFor = p then some d else a.at? p := by
    cases p <;> simp [holding, at?]
  have hannotate (key value : String) :
      (a.annotate key value).at? p = if .annotationOf key = p then some value else a.at? p := by
    cases p <;> simp [annotate, at?, Entries.value?_set]
  have hlabel (key value : String) :
      (a.label key value).at? p = if .labelOf key = p then some value else a.at? p := by
    cases p <;> simp [label, at?, Entries.value?_set]
  cases s with
  | holding d => exact hholding d
  | annotate key value => exact hannotate key value
  | label key value => exact hlabel key value
  | summary text => exact hannotate summaryKey text
  | severity level => exact hlabel severityKey level
  | healthImpact impact => exact hlabel healthImpactKey impact

theorem configure_concat (a : AlertRule) (steps : List Setting) (s : Setting) :
    a.configure (steps ++ [s]) = s.apply (a.configure steps) := List.foldl_concat ..

/-- What no setting changes, settings do not change. -/
theorem configure_keeps {β : Type} {field : AlertRule → β}
    (h : ∀ (s : Setting) (a : AlertRule), field (s.apply a) = field a) (a : AlertRule)
    (steps : List Setting) : field (a.configure steps) = field a := by
  induction steps using List.reverseRecOn with
  | nil => rfl
  | append_singleton steps s ih => rw [configure_concat, h, ih]

theorem name_configure (a : AlertRule) (steps : List Setting) :
    (a.configure steps).name = a.name :=
  configure_keeps (fun s _ => by cases s <;> rfl) a steps

theorem expr_configure (a : AlertRule) (steps : List Setting) :
    (a.configure steps).expr = a.expr :=
  configure_keeps (fun s _ => by cases s <;> rfl) a steps

/-- What was written last to a place is there; if nothing was, what was there before. -/
theorem at?_configure (a : AlertRule) (steps : List Setting) (p : Place) :
    (a.configure steps).at? p = (written p steps).getLast?.or (a.at? p) := by
  induction steps using List.reverseRecOn with
  | nil => rfl
  | append_singleton steps s ih =>
    rw [configure_concat, at?_apply, ih, written, written, List.filter_append, List.map_append,
      List.getLast?_append]
    by_cases hs : s.place = p
    · simp [hs]
    · simp [hs]

theorem at?_ofExpr (name expr : String) (p : Place) : (ofExpr name expr).at? p = none := by
  cases p <;> rfl

/-- Settings come to the same if they write the same to every place. -/
theorem configure_congr (a : AlertRule) {steps steps' : List Setting}
    (h : ∀ p, written p steps = written p steps') : a.configure steps = a.configure steps' := by
  refine ext_at? ?_ ?_ fun p => ?_
  · rw [name_configure, name_configure]
  · rw [expr_configure, expr_configure]
  · rw [at?_configure, at?_configure, h]

theorem configure_of_reorders (a : AlertRule) {steps steps' : List Setting}
    (h : Reorders Setting.place steps steps') : a.configure steps = a.configure steps' :=
  a.configure_congr fun p => by rw [written, written, h.filter_eq]

/-- Settings that do not write a place may be left out. -/
theorem written_filter {keep : Setting → Bool} {p : Place}
    (hkeep : ∀ s : Setting, s.place = p → keep s = true) (steps : List Setting) :
    written p (steps.filter keep) = written p steps := by
  rw [written, written, List.filter_filter]
  congr 2
  funext s
  by_cases hs : s.place = p
  · simp [hs, hkeep s hs]
  · simp [hs]

theorem at?_configure_filter (a : AlertRule) {keep : Setting → Bool} {p : Place}
    (hkeep : ∀ s : Setting, s.place = p → keep s = true) (steps : List Setting) :
    (a.configure (steps.filter keep)).at? p = (a.configure steps).at? p := by
  rw [at?_configure, at?_configure, written_filter hkeep]

theorem annotations_configure (a : AlertRule) (steps : List Setting) :
    (a.configure steps).annotations =
      (a.configure (steps.filter Setting.annotates)).annotations := by
  refine Entries.ext_value? fun key => ?_
  have hkeep (s : Setting) (hs : s.place = .annotationOf key) : s.annotates = true := by
    rw [Setting.annotates, hs]
  exact (a.at?_configure_filter hkeep steps).symm

theorem labels_configure (a : AlertRule) (steps : List Setting) :
    (a.configure steps).labels = (a.configure (steps.filter Setting.labels)).labels := by
  refine Entries.ext_value? fun key => ?_
  have hkeep (s : Setting) (hs : s.place = .labelOf key) : s.labels = true := by
    rw [Setting.labels, hs]
  exact (a.at?_configure_filter hkeep steps).symm

/-- An alert that is built up by settings has its name and its expression, and at each place what
was written there last, if anything was. So settings may change their order as long as those that
write the same place keep theirs, the annotations are what the settings that write annotations make
them, and the labels what those that write labels do. -/
theorem configure_last_written (name expr : String) (steps : List Setting) :
    let built (steps : List Setting) := (ofExpr name expr).configure steps
    (built steps).name = name ∧ (built steps).expr = expr ∧
    (built steps).holdFor = (written .holdFor steps).getLast? ∧
    (∀ key, (built steps).annotations.value? key = (written (.annotationOf key) steps).getLast?) ∧
    (∀ key, (built steps).labels.value? key = (written (.labelOf key) steps).getLast?) ∧
    (∀ steps', Reorders Setting.place steps steps' → built steps = built steps') ∧
    (built steps).annotations = (built (steps.filter Setting.annotates)).annotations ∧
    (built steps).labels = (built (steps.filter Setting.labels)).labels := by
  intro built
  have hat (p : Place) : (built steps).at? p = (written p steps).getLast? := by
    rw [at?_configure, at?_ofExpr, Option.or_none]
  exact ⟨name_configure .., expr_configure .., hat .holdFor, fun key => hat (.annotationOf key),
    fun key => hat (.labelOf key), fun _ => configure_of_reorders _, annotations_configure ..,
    labels_configure ..⟩

/-- Each of two keys is written by the setting named for it and by the general one. The four are
shuffled with each other and with a holding time, but not the two of one key. -/
theorem configure_last_written_shuffled :
    let steps : List Setting := [.summary "a", .severity "info", .annotate "summary" "b",
      .holding "5m", .label "severity" "critical"]
    let steps' : List Setting := [.severity "info", .summary "a", .label "severity" "critical",
      .annotate "summary" "b", .holding "5m"]
    Reorders Setting.place steps steps' ∧
      (ofExpr "A" "up").configure steps = (ofExpr "A" "up").configure steps' ∧
      ((ofExpr "A" "up").configure steps').annotations.value? "summary" = some "b" := by
  intro steps steps'
  have h : Reorders Setting.place steps steps' :=
    ⟨[(.severity "info", 1), (.summary "a", 0), (.label "severity" "critical", 4),
      (.annotate "summary" "b", 2), (.holding "5m", 3)], by decide, rfl, by decide⟩
  obtain ⟨-, -, -, -, -, hreorder, -⟩ := configure_last_written "A" "up" steps
  exact ⟨h, hreorder steps' h, by decide +kernel⟩

end AlertRule

end OperatorRules
