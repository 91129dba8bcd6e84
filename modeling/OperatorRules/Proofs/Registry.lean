import Mathlib.Data.List.Induction
import Mathlib.Data.List.Nodup
import OperatorRules.Proofs.Roster
import OperatorRules.Proofs.Text.ByteOrder

/-!
# A registry and its history

Three views of one history, for either kind of rule: the log of what was given since the last
cleaning, the roster that a registry keeps, and a table from names to rules as a hash map keeps it,
whose entries come in no particular order. `get?_roster` ties the roster to the log, `table_eq` the
table to the roster, and `replay_eq` says that a registry is the two rosters of its history. What
its listings say about the history is put together in `listings_replay`.
-/

namespace OperatorRules

/-! ## Hash maps -/

/-- A hash map from names: what it holds under each of them, in no order. -/
abbrev HashTable (α : Type) := String → Option α

namespace HashTable

variable {α : Type}

/-- Nothing under any name. -/
def empty : HashTable α := fun _ => none

/-- Puts `a` under its name, where it replaces what was there. -/
def insert [Named α] (t : HashTable α) (a : α) : HashTable α :=
  Function.update t (nameOf a) (some a)

/-- `entries` lists the table: every name with what is under it, each once, in any order. -/
structure ListedBy (t : HashTable α) (entries : List (String × α)) : Prop where
  nodup : (entries.map Prod.fst).Nodup
  mem_iff : ∀ name a, (name, a) ∈ entries ↔ t name = some a

end HashTable

namespace Registry

/-! ## What one change gives -/

/-- The alert that is registered when `a` is given, with a template or without. -/
def registered : Option RunbookTemplate × AlertRule → AlertRule
  | (some t, a) => a.enrich t
  | (none, a) => a

/-- The alerts that a change registers, as they are registered. -/
def Change.alertsGiven (c : Change) : List AlertRule := c.givenAlerts.map registered

theorem map_registered_none (l : List AlertRule) :
    (l.map fun a => (none, a)).map registered = l := by
  rw [List.map_map]
  exact List.map_id l

theorem map_registered_some (t : RunbookTemplate) (l : List AlertRule) :
    (l.map fun a => (some t, a)).map registered = l.map (AlertRule.enrich t) := by
  rw [List.map_map]
  rfl

theorem register_fst {α : Type} [Named α] (w : Wording) (r : Roster α) (l : List α) :
    (r.register w l).1 = r.insertMany l := by
  induction l generalizing r with
  | nil => rfl
  | cons a l ih => exact ih (r.insert a)

theorem registerAlerts_alerts (r : Registry) (groups : List (List AlertRule)) :
    (r.registerAlerts groups).registry.alerts = r.alerts.insertMany groups.flatten :=
  register_fst ..

theorem registerRecordingRules_recordingRules (r : Registry)
    (groups : List (List RecordingRule)) :
    (r.registerRecordingRules groups).registry.recordingRules =
      r.recordingRules.insertMany groups.flatten :=
  register_fst ..

theorem registerEnriched_alerts (r : Registry) (t : RunbookTemplate)
    (groups : List (List AlertRule)) :
    (r.registerEnriched t groups).registry.alerts =
      r.alerts.insertMany (groups.flatten.map (AlertRule.enrich t)) := by
  rw [registerEnriched, registerAlerts_alerts, List.map_flatten]

/-- What a change does to the alerts. -/
theorem Change.apply_alerts (c : Change) (r : Registry) :
    (c.apply r).registry.alerts =
      if c.forgets then ∅ else r.alerts.insertMany c.alertsGiven := by
  have hoperator (r : Registry) (t : RunbookTemplate) :
      (r.registerOperatorAlerts t).registry.alerts =
        r.alerts.insertMany (Catalogue.operatorAlerts.map (AlertRule.enrich t)) := by
    rw [registerOperatorAlerts, registerEnriched_alerts, List.flatten_singleton]
  cases c with
  | alerts groups =>
    rw [alertsGiven, givenAlerts, map_registered_none]
    exact registerAlerts_alerts r groups
  | enriched t groups =>
    rw [alertsGiven, givenAlerts, map_registered_some]
    exact registerEnriched_alerts r t groups
  | operatorAlerts t =>
    rw [alertsGiven, givenAlerts, map_registered_some]
    exact hoperator r t
  | setup ns t =>
    rw [alertsGiven, givenAlerts, map_registered_some]
    exact hoperator (r.registerOperatorRecordingRules ns).registry t
  | recordingRules | operatorRecordingRules | clean => rfl

/-- What a change does to the recording rules. -/
theorem Change.apply_recordingRules (c : Change) (r : Registry) :
    (c.apply r).registry.recordingRules =
      if c.forgets then ∅ else r.recordingRules.insertMany c.givenRecordingRules := by
  have hoperator (ns : String) : (r.registerOperatorRecordingRules ns).registry.recordingRules =
      r.recordingRules.insertMany
        (Catalogue.operatorRecordingRules ns ++ Catalogue.macPoolRecordingRules ns) := by
    rw [registerOperatorRecordingRules, registerRecordingRules_recordingRules]
    simp
  cases c with
  | recordingRules groups => exact registerRecordingRules_recordingRules r groups
  | operatorRecordingRules ns => exact hoperator ns
  | setup ns t => exact hoperator ns
  | alerts | enriched | operatorAlerts | clean => rfl

namespace History

/-! ## Three views of a history -/

section
variable {α : Type} (given : Change → List α)

theorem current_concat (h : History) (c : Change) :
    current (h ++ [c]) = if c.forgets then [] else h.current ++ [c] := by
  rw [current, List.reverse_append, List.reverse_singleton, List.singleton_append,
    List.takeWhile_cons]
  cases c.forgets <;> simp [current]

/-- What was given since the last cleaning, in order. -/
def log (h : History) : List α := h.current.flatMap given

theorem log_concat (h : History) (c : Change) :
    log given (h ++ [c]) = if c.forgets then [] else h.log given ++ given c := by
  rw [log, current_concat]
  split <;> simp [log]

variable [Named α]

/-- The roster of what was given since the last cleaning. -/
def roster (h : History) : Roster α :=
  h.foldl (fun r c => if c.forgets then ∅ else r.insertMany (given c)) ∅

/-- The hash map of what was given since the last cleaning. -/
def table (h : History) : HashTable α :=
  h.foldl (fun t c => if c.forgets then .empty else (given c).foldl .insert t) .empty

theorem roster_concat (h : History) (c : Change) :
    roster given (h ++ [c]) = if c.forgets then ∅ else (h.roster given).insertMany (given c) := by
  rw [roster, List.foldl_append]
  rfl

theorem table_concat (h : History) (c : Change) :
    table given (h ++ [c]) =
      if c.forgets then .empty else (given c).foldl .insert (h.table given) := by
  rw [table, List.foldl_append]
  rfl

/-- Under each name there is what was given last under it since the last cleaning. -/
theorem get?_roster (h : History) (name : String) :
    (h.roster given).get? name = lastNamed? name (h.log given) := by
  induction h using List.reverseRecOn with
  | nil => rfl
  | append_singleton h c ih =>
    rw [roster_concat, log_concat]
    split
    · rfl
    · rw [Roster.get?_insertMany, Roster.lastNamed?_append, ih]

/-- The hash map and the roster hold the same under each name. -/
theorem table_eq (h : History) : h.table given = (h.roster given).get? := by
  have hinsert (l : List α) (r : Roster α) :
      l.foldl HashTable.insert r.get? = (r.insertMany l).get? := by
    induction l generalizing r with
    | nil => rfl
    | cons a l ih =>
      have hstep : HashTable.insert r.get? a = (r.insert a).get? := by
        funext name
        rw [Roster.get?_insert, HashTable.insert, Function.update_apply]
        simp only [eq_comm]
      rw [List.foldl_cons, hstep, ih]
      rfl
  induction h using List.reverseRecOn with
  | nil => rfl
  | append_singleton h c ih =>
    rw [table_concat, roster_concat]
    split
    · rfl
    · rw [ih, hinsert]

/-- A change that gives nothing and forgets nothing leaves no trace. -/
theorem roster_skip (h h' : History) {c : Change} (hc : c.forgets = false) (hgiven : given c = []) :
    roster given (h ++ c :: h') = roster given (h ++ h') := by
  have hstep : roster given (h ++ [c]) = h.roster given := by
    rw [roster_concat, hc, hgiven]
    rfl
  rw [← List.singleton_append, ← List.append_assoc, roster, List.foldl_append, ← roster, hstep,
    roster, ← List.foldl_append]
  rfl

/-- The roster is one of the orders in which the hash map may list its entries. -/
theorem listedBy_roster (h : History) :
    (h.table given).ListedBy ((h.roster given).toList.map fun a => (nameOf a, a)) where
  nodup := by
    rw [List.map_map]
    exact (h.roster given).ascending.nodup_names
  mem_iff name a := by
    rw [table_eq, Roster.get?_eq_some_iff]
    simp [and_comm, eq_comm]

/-- However the hash map lists its entries, sorting them by name gives the roster. -/
theorem mergeSort_table (h : History) {entries : List (String × α)}
    (hentries : (h.table given).ListedBy entries) :
    (entries.map Prod.snd).mergeSort (fun a b => nameOf a ≤ nameOf b) =
      (h.roster given).toList := by
  have hmem (name : String) (a : α) :
      (name, a) ∈ entries ↔ (h.roster given).get? name = some a := by
    rw [hentries.mem_iff, table_eq]
  have hname {e : String × α} (he : e ∈ entries) : nameOf e.2 = e.1 :=
    (Roster.get?_eq_some_iff.1 ((hmem e.1 e.2).1 he)).2
  refine Roster.mergeSort_eq_toList ?_ fun a => ?_
  · -- two entries of one thing are of one name
    have hnodup : ((entries.map Prod.snd).map nameOf).Nodup := by
      have hkeys : entries.map (fun e => nameOf e.2) = entries.map Prod.fst :=
        List.map_congr_left fun e he => hname he
      rw [List.map_map]
      exact hkeys ▸ hentries.nodup
    exact List.Nodup.of_map _ hnodup
  · rw [← hmem]
    constructor
    · intro ha
      obtain ⟨e, he, rfl⟩ := List.mem_map.1 ha
      rw [hname he]
      exact he
    · intro ha
      exact List.mem_map.2 ⟨_, ha, rfl⟩

end

/-! ## The two kinds of rules -/

theorem alertLog_eq (h : History) : h.alertLog = h.log Change.alertsGiven := by
  have hlog : h.alertLog = h.givenAlerts.map registered := by
    refine List.map_congr_left fun x _ => ?_
    obtain ⟨_ | t, a⟩ := x <;> rfl
  rw [hlog, givenAlerts, List.map_flatMap]
  rfl

theorem recordingRuleLog_eq (h : History) :
    h.recordingRuleLog = h.log Change.givenRecordingRules := rfl

theorem replay_concat (h : History) (c : Change) :
    replay (h ++ [c]) = (c.apply h.replay).registry := by
  rw [replay, List.foldl_append]
  rfl

/-- A registry is the two rosters of its history. -/
theorem replay_eq (h : History) :
    h.replay = ⟨h.roster Change.alertsGiven, h.roster Change.givenRecordingRules⟩ := by
  induction h using List.reverseRecOn with
  | nil => rfl
  | append_singleton h c ih =>
    have halerts := c.apply_alerts (replay h)
    have hrules := c.apply_recordingRules (replay h)
    rw [roster_concat, roster_concat, replay_concat]
    rw [ih] at halerts hrules ⊢
    rw [← halerts, ← hrules]

/-! ## What the listings say -/

/-- `listing` is the one way to list what `log` gave last under each name: in the order of the
encoded names, and what the entries of the hash map are sorted to in whatever order they come. -/
structure Lists {α : Type} [Named α] (log : List α) (table : HashTable α) (listing : List α)
    (count : Nat) : Prop where
  ascending : listing.Pairwise fun a b => Text.utf8Bytes (nameOf a) < Text.utf8Bytes (nameOf b)
  mem_iff : ∀ a, a ∈ listing ↔ lastNamed? (nameOf a) log = some a
  count_eq : count = listing.length
  listedBy : table.ListedBy (listing.map fun a => (nameOf a, a))
  sort_eq : ∀ entries : List (String × α), table.ListedBy entries →
    (entries.map Prod.snd).mergeSort (fun a b => nameOf a ≤ nameOf b) = listing ∧
      entries.length = count

theorem lists_roster {α : Type} [Named α] (given : Change → List α) (h : History) :
    Lists (h.log given) (h.table given) (h.roster given).toList (h.roster given).size where
  ascending := (h.roster given).ascending.imp Text.utf8Bytes_lt
  mem_iff a := by rw [Roster.mem_toList_iff, get?_roster]
  count_eq := rfl
  listedBy := listedBy_roster given h
  sort_eq entries hentries := by
    have hsort := mergeSort_table given h hentries
    refine ⟨hsort, ?_⟩
    rw [Roster.size, ← hsort, List.length_mergeSort, List.length_map]

/-- What the listings of a registry say about its history: each lists what was given last under
each name since the last cleaning, in the order of the encoded names, whatever order a hash map has
its entries in, and neither kind of rule leaves a trace in the listing of the other. -/
theorem listings_replay (h : History) :
    Lists h.alertLog (h.table Change.alertsGiven) h.replay.listAlerts h.replay.alertCount ∧
    Lists h.recordingRuleLog (h.table Change.givenRecordingRules) h.replay.listRecordingRules
      h.replay.recordingRuleCount ∧
    (∀ (h' : History) (groups : List (List RecordingRule)),
      (replay (h ++ .recordingRules groups :: h')).listAlerts = (replay (h ++ h')).listAlerts) ∧
    (∀ (h' : History) (groups : List (List AlertRule)),
      (replay (h ++ .alerts groups :: h')).listRecordingRules =
        (replay (h ++ h')).listRecordingRules) ∧
    (h.replay.isEmpty ↔ h.replay.listAlerts = [] ∧ h.replay.listRecordingRules = []) := by
  refine ⟨?_, ?_, fun h' groups => ?_, fun h' groups => ?_, ?_⟩
  · rw [replay_eq, alertLog_eq]
    exact lists_roster Change.alertsGiven h
  · rw [replay_eq, recordingRuleLog_eq]
    exact lists_roster Change.givenRecordingRules h
  · rw [replay_eq, replay_eq, listAlerts, listAlerts, roster_skip Change.alertsGiven h h' rfl rfl]
  · rw [replay_eq, replay_eq, listRecordingRules, listRecordingRules,
      roster_skip Change.givenRecordingRules h h' rfl rfl]
  · simp [isEmpty, Roster.isEmpty, listAlerts, listRecordingRules]

end History

end Registry

end OperatorRules
