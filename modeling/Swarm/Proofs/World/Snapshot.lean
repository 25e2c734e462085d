import Mathlib.Data.List.Forall2
import Swarm.Document.World
import Swarm.Proofs.World.Registry

/-!
# Snapshots

A snapshot shows every live agent as a row of its variables by name. Nothing keeps the names of a
table apart: a description may declare a variable twice, or give it the name of a built-in one. Of
the variables with one name the row shows the last, while a search by name, which also ignores the
case of the basic Latin letters, finds the first.

## Main definitions

* `Json.KeyOrdered`: entries in key order, each key once
* `World.LastOfName`, `World.FirstOfName`: the slot of a name that a row shows, or a search finds
* `World.Shown`: a row shows an agent
* `World.Pictured`: a document shows the live agents of a world
* `World.Resolved`: what becomes of a name

## Main results

* `Json.lookup_sortedEntries`: the last entry of a key wins
* `World.shown_row`: a row shows the last variable of each name
* `World.variableIndex?_variableName`: a search by name finds the first
* `World.snapshot_pictures`: the snapshot of every world
* `World.snapshot_loses`: what a row does not show, and what a search does not find
-/

namespace Swarm

open Swarm.Random (Stream)

-- ════════════════════════════════════════════════════════════════════════
-- Key order
-- ════════════════════════════════════════════════════════════════════════

namespace Json

variable {entries done : List (String × Json)} {key name : String} {value : Json}

/-- The entries are in key order, each key once. -/
def KeyOrdered (entries : List (String × Json)) : Prop :=
  entries.Pairwise fun e e' => e.1 < e'.1

theorem lookup_cons (key : String) (value : Json) (entries : List (String × Json))
    (name : String) : ((key, value) :: entries).lookup name =
      if name = key then some value else entries.lookup name := by
  by_cases hname : name = key
  · subst hname
    simp
  · rw [List.lookup_cons, beq_eq_false_iff_ne.2 hname, if_neg hname]

/-- Wherever an entry is put, it is found. -/
theorem lookup_insertSorted (key : String) (value : Json) (entries : List (String × Json))
    (name : String) : (insertSorted key value entries).lookup name =
      if name = key then some value else entries.lookup name := by
  induction entries with
  | nil => exact lookup_cons key value [] name
  | cons e rest ih =>
    obtain ⟨k, v⟩ := e
    rw [insertSorted]
    split
    · rw [lookup_cons]
    · split
      · next hkey =>
        cases beq_iff_eq.1 hkey
        rw [lookup_cons, lookup_cons]
        split <;> rfl
      · next hkey =>
        have hne : k ≠ key := fun h => hkey (beq_iff_eq.2 h.symm)
        rw [lookup_cons, lookup_cons, ih]
        by_cases hname : name = k
        · subst hname
          rw [if_pos rfl, if_neg hne, if_pos rfl]
        · rw [if_neg hname, if_neg hname]

theorem mem_insertSorted {e : String × Json} (h : e ∈ insertSorted key value entries) :
    e = (key, value) ∨ e ∈ entries := by
  induction entries with
  | nil => exact .inl (List.mem_singleton.1 h)
  | cons e' rest ih =>
    obtain ⟨k, v⟩ := e'
    rw [insertSorted] at h
    split at h
    · exact List.mem_cons.1 h
    · split at h
      · exact (List.mem_cons.1 h).imp_right (List.mem_cons_of_mem _)
      · rcases List.mem_cons.1 h with rfl | hrest
        · exact .inr List.mem_cons_self
        · exact (ih hrest).imp_right (List.mem_cons_of_mem _)

theorem KeyOrdered.insertSorted (h : KeyOrdered entries) (key : String) (value : Json) :
    KeyOrdered (insertSorted key value entries) := by
  induction entries with
  | nil => exact List.pairwise_singleton _ _
  | cons e rest ih =>
    obtain ⟨k, v⟩ := e
    obtain ⟨hfirst, hrest⟩ := List.pairwise_cons.1 h
    rw [Json.insertSorted]
    split
    · next hlt =>
      refine List.pairwise_cons.2 ⟨fun e he => ?_, h⟩
      rcases List.mem_cons.1 he with rfl | hlater
      · exact hlt
      · exact String.lt_trans hlt (hfirst e hlater)
    · next hle =>
      split
      · next hkey =>
        cases beq_iff_eq.1 hkey
        exact List.pairwise_cons.2 ⟨hfirst, hrest⟩
      · next hkey =>
        refine List.pairwise_cons.2 ⟨fun e he => ?_, ih hrest⟩
        rcases mem_insertSorted he with rfl | hlater
        · exact Std.lt_of_le_of_ne hle fun heq => hkey (beq_iff_eq.2 heq.symm)
        · exact hfirst e hlater

theorem KeyOrdered.sortedEntries (h : KeyOrdered done) (entries : List (String × Json)) :
    KeyOrdered (sortedEntries done entries) := by
  induction entries generalizing done with
  | nil => exact h
  | cons e rest ih => exact ih (h.insertSorted _ _)

/-- The last entry of a key wins. -/
theorem lookup_sortedEntries (done entries : List (String × Json)) (name : String) :
    (sortedEntries done entries).lookup name =
      ((entries.reverse.lookup name).map sorted).or (done.lookup name) := by
  induction entries generalizing done with
  | nil => rfl
  | cons e rest ih =>
    obtain ⟨key, value⟩ := e
    rw [sortedEntries, ih, lookup_insertSorted, List.reverse_cons, List.lookup_append]
    cases rest.reverse.lookup name with
    | some v => rfl
    | none =>
      rw [Option.none_or, lookup_cons]
      split <;> rfl

theorem sortedItems_eq (items : List Json) : sortedItems items = items.map sorted := by
  induction items with
  | nil => rfl
  | cons item rest ih => rw [sortedItems, ih, List.map_cons]

/-- An entry is the last of its key if no later one has it. -/
theorem lookup_reverse_of_last {i : Nat} (h : entries[i]? = some (key, value))
    (last : ∀ j e, i < j → entries[j]? = some e → e.1 ≠ key) :
    entries.reverse.lookup key = some value := by
  induction entries generalizing i with
  | nil => cases h
  | cons e rest ih =>
    rw [List.reverse_cons, List.lookup_append]
    cases i with
    | zero =>
      cases h
      have hnone : rest.reverse.lookup key = none := by
        refine List.lookup_eq_none_iff.2 fun e he => ?_
        obtain ⟨j, hj⟩ := List.getElem?_of_mem (List.mem_reverse.1 he)
        have hne := last (j + 1) e (by omega) hj
        simpa using hne.symm
      simp [hnone]
    | succ i =>
      rw [ih h fun j e hj he => last (j + 1) e (by omega) he]
      rfl

end Json

namespace World

variable {w : World} {kind : AgentKind} {a : AgentRef} {r : Record} {slot : Nat}

-- ════════════════════════════════════════════════════════════════════════
-- Names
-- ════════════════════════════════════════════════════════════════════════

/-- No later variable has exactly the name of this one. -/
def LastOfName (w : World) (kind : AgentKind) (slot : Nat) : Prop :=
  ∀ later, slot < later → later < (w.table kind).size →
    w.variableName kind later ≠ w.variableName kind slot

/-- No earlier variable has the name of this one, up to the case of basic Latin letters. -/
def FirstOfName (w : World) (kind : AgentKind) (slot : Nat) : Prop :=
  ∀ earlier < slot,
    Text.eqFolding (w.variableName kind earlier) (w.variableName kind slot) = false

theorem variableName_of_getElem? {x : Variable} (h : (w.table kind)[slot]? = some x) :
    w.variableName kind slot = x.name := by
  rw [variableName, h]

/-- Each name has a last slot. -/
theorem exists_lastOfName {slot : Nat} (h : slot < (w.table kind).size) :
    ∃ last, slot ≤ last ∧ last < (w.table kind).size
      ∧ w.variableName kind last = w.variableName kind slot ∧ w.LastOfName kind last := by
  by_cases hlast : w.LastOfName kind slot
  · exact ⟨slot, Nat.le_refl _, h, rfl, hlast⟩
  · obtain ⟨later, hlt, hlater, hname⟩ : ∃ later, slot < later ∧ later < (w.table kind).size
        ∧ w.variableName kind later = w.variableName kind slot := by
      simpa [LastOfName] using hlast
    obtain ⟨last, hle, hin, heq, hlast⟩ := exists_lastOfName hlater
    exact ⟨last, by omega, hin, heq.trans hname, hlast⟩
termination_by (w.table kind).size - slot

/-- A search for a name finds the first slot with it. -/
theorem variableIndex?_eq_some_iff {name : String} :
    w.variableIndex? kind name = some slot ↔ slot < (w.table kind).size
      ∧ Text.eqFolding (w.variableName kind slot) name = true
      ∧ ∀ earlier < slot, Text.eqFolding (w.variableName kind earlier) name = false := by
  have hname {i : Nat} (hi : i < (w.table kind).size) :
      w.variableName kind i = (w.table kind)[i].name :=
    variableName_of_getElem? (Array.getElem?_eq_getElem hi)
  rw [variableIndex?, Array.findIdx?_eq_some_iff_getElem]
  constructor
  · rintro ⟨hslot, hfound, hbefore⟩
    refine ⟨hslot, hname hslot ▸ hfound, fun i hi => ?_⟩
    rw [hname (by omega)]
    simpa using hbefore i hi
  · rintro ⟨hslot, hfound, hbefore⟩
    refine ⟨hslot, hname hslot ▸ hfound, fun i hi => ?_⟩
    have hne := hbefore i hi
    rw [hname (by omega)] at hne
    simpa using hne

/-- So it finds a slot by its own name exactly if the slot is the first with it. -/
theorem variableIndex?_variableName (h : slot < (w.table kind).size) :
    ∃ first ≤ slot, w.variableIndex? kind (w.variableName kind slot) = some first
      ∧ Text.eqFolding (w.variableName kind first) (w.variableName kind slot) = true
      ∧ (∀ earlier < first,
        Text.eqFolding (w.variableName kind earlier) (w.variableName kind slot) = false)
      ∧ (first = slot ↔ w.FirstOfName kind slot) := by
  have hself : Text.eqFolding (w.variableName kind slot) (w.variableName kind slot) = true :=
    beq_self_eq_true _
  cases hfound : w.variableIndex? kind (w.variableName kind slot) with
  | none =>
    have hnone := Array.findIdx?_eq_none_iff.1 hfound _ (Array.getElem_mem h)
    rw [← variableName_of_getElem? (Array.getElem?_eq_getElem h), hself] at hnone
    cases hnone
  | some first =>
    obtain ⟨_, hname, hbefore⟩ := variableIndex?_eq_some_iff.1 hfound
    have hle : first ≤ slot := by
      by_contra hlater
      have hdiffers := hbefore slot (by omega)
      cases hself.symm.trans hdiffers
    refine ⟨first, hle, rfl, hname, hbefore, ?_, fun hfirst => ?_⟩
    · rintro rfl
      exact hbefore
    · by_contra hne
      have hdiffers := hfirst first (by omega)
      cases hname.symm.trans hdiffers

-- ════════════════════════════════════════════════════════════════════════
-- Rows
-- ════════════════════════════════════════════════════════════════════════

/-- The entries of a row show an agent: each variable that is the last of its name has an entry with
its value, and there is no other entry. -/
structure Shown (w : World) (a : AgentRef) (entries : List (String × Json)) : Prop where
  ordered : Json.KeyOrdered entries
  named : ∀ name, (entries.lookup name).isSome →
    ∃ slot < (w.table a.kind).size, w.variableName a.kind slot = name
  last : ∀ slot < (w.table a.kind).size, w.LastOfName a.kind slot →
    ∃ v, w.stored? a slot = some v
      ∧ entries.lookup (w.variableName a.kind slot) = some v.toJson.sorted

/-- The variables of a record by name, before they are put in key order. -/
def columns (table : Array Variable) (r : Record) : List (String × Json) :=
  (table.toList.zip r.values.toList).map fun (x, value) => (x.name, value.toJson)

/-- A column has the name and the value of its slot. -/
theorem getElem?_columns {e : String × Json} :
    (columns (w.table kind) r)[slot]? = some e ↔ slot < (w.table kind).size
      ∧ ∃ v, r.values[slot]? = some v ∧ e = (w.variableName kind slot, v.toJson) := by
  rw [columns, List.getElem?_map, Option.map_eq_some_iff]
  constructor
  · rintro ⟨⟨x, v⟩, hzip, rfl⟩
    obtain ⟨hx, hv⟩ := List.getElem?_zip_eq_some.1 hzip
    rw [Array.getElem?_toList] at hx hv
    exact ⟨(Array.getElem?_eq_some_iff.1 hx).1, v, hv, by rw [variableName_of_getElem? hx]⟩
  · rintro ⟨hslot, v, hv, rfl⟩
    have hx := Array.getElem?_eq_getElem hslot
    refine ⟨(_, v), List.getElem?_zip_eq_some.2 ⟨?_, ?_⟩, by rw [variableName_of_getElem? hx]⟩
    · rw [Array.getElem?_toList, hx]
    · rw [Array.getElem?_toList, hv]

/-- The variables of a record by name, as a row shows them. -/
def shownEntries (table : Array Variable) (r : Record) : List (String × Json) :=
  Json.sortedEntries [] (columns table r)

/-- A row shows the last variable of each name. -/
theorem shown_row (h : w.Regular) (hr : w.record? a = some r) :
    w.Shown a (shownEntries (w.table a.kind) r) := by
  have hlookup (name : String) : (shownEntries (w.table a.kind) r).lookup name =
      ((columns (w.table a.kind) r).reverse.lookup name).map Json.sorted := by
    rw [shownEntries, Json.lookup_sortedEntries, List.lookup_nil, Option.or_none]
  refine ⟨Json.KeyOrdered.sortedEntries .nil _, fun name hname => ?_, fun slot hslot hlast => ?_⟩
  · rw [hlookup, Option.isSome_map] at hname
    obtain ⟨value, hvalue⟩ := Option.isSome_iff_exists.1 hname
    obtain ⟨_, _, hsplit, _⟩ := List.lookup_eq_some_iff.1 hvalue
    have hmem : (name, value) ∈ columns (w.table a.kind) r := by
      rw [← List.mem_reverse, hsplit]
      simp
    obtain ⟨slot, hslot⟩ := List.getElem?_of_mem hmem
    obtain ⟨hlt, v, _, hcolumn⟩ := getElem?_columns.1 hslot
    exact ⟨slot, hlt, (congrArg Prod.fst hcolumn).symm⟩
  · have hsize := h a r hr
    have hv := Array.getElem?_eq_getElem (show slot < r.values.size from hsize ▸ hslot)
    refine ⟨r.values[slot], by rw [stored?, hr, Option.bind_some, hv], ?_⟩
    have hcolumn := getElem?_columns.2 ⟨hslot, _, hv, rfl⟩
    rw [hlookup, Json.lookup_reverse_of_last hcolumn fun later e hlater he => ?_]
    · rfl
    · obtain ⟨hin, _, _, rfl⟩ := getElem?_columns.1 he
      exact hlast later hlater hin

/-- The agents are the live ones of the kind, by number. -/
structure LiveInOrder (w : World) (kind : AgentKind) (agents : List AgentRef) : Prop where
  live : ∀ a, a ∈ agents ↔ a.kind = kind ∧ w.isAlive a = true
  increasing : agents.Pairwise fun a b => a.id < b.id

/-- The entries of a document show a world: under `globals` the row of the observer, and under each
other kind a row for each live agent, by number. -/
structure Pictured (w : World) (entries : List (String × Json)) : Prop where
  globals : ∃ row, entries.lookup "globals" = some (.object row) ∧ w.Shown .observer row
  kinds : ∀ kind ≠ .observer, ∃ agents rows,
    entries.lookup kind.plural = some (.array (rows.map Json.object))
      ∧ w.LiveInOrder kind agents ∧ List.Forall₂ w.Shown agents rows

-- ════════════════════════════════════════════════════════════════════════
-- The snapshot
-- ════════════════════════════════════════════════════════════════════════

/-- The numbers of the live records and these records go together. -/
theorem forall₂_liveFrom (rs : List Record) (n : Nat) :
    List.Forall₂ (fun id r => ∃ i, id = n + i ∧ rs[i]? = some r) (liveFrom n rs)
      (rs.filter Record.alive) := by
  induction rs generalizing n with
  | nil => exact .nil
  | cons r rest ih =>
    have hrest : List.Forall₂ (fun id r' => ∃ i, id = n + i ∧ (r :: rest)[i]? = some r')
        (liveFrom (n + 1) rest) (rest.filter Record.alive) := by
      refine (ih (n + 1)).imp ?_
      rintro id r' ⟨i, rfl, hi⟩
      exact ⟨i + 1, by omega, hi⟩
    rw [liveFrom]
    cases halive : r.alive with
    | true =>
      rw [List.filter_cons_of_pos halive]
      exact .cons ⟨0, rfl, rfl⟩ hrest
    | false =>
      rw [List.filter_cons_of_neg (by simp [halive])]
      exact hrest

/-- The rows of a kind show its live agents. -/
theorem forall₂_shown (h : w.Regular) (hkind : kind ≠ .observer) :
    ∃ rows, Json.sortedItems (w.rows kind) = rows.map Json.object
      ∧ List.Forall₂ w.Shown (w.agents kind).agents rows := by
  refine ⟨((w.records.get kind).toList.filter Record.alive).map (shownEntries (w.table kind)),
    ?_, ?_⟩
  · rw [Json.sortedItems_eq, rows, List.map_map, List.map_map]
    rfl
  · rw [agents_eq hkind, List.forall₂_map_left_iff, List.forall₂_map_right_iff]
    refine (forall₂_liveFrom _ 0).imp ?_
    rintro id r ⟨i, rfl, hr⟩
    exact shown_row h (by rw [record?, Nat.zero_add, ← hr, Array.getElem?_toList])

/-- The row under `globals` shows the observer. -/
theorem Populated.head?_rows {spec : WorldSpec} (h : w.Populated spec) :
    ∃ r, w.record? .observer = some r
      ∧ (w.rows .observer).head? = some (row (w.table .observer) r) := by
  obtain ⟨r, hr, halive⟩ := isAlive_iff.1 (h.isAlive_observer.2 rfl)
  refine ⟨r, hr, ?_⟩
  rw [record?, ← Array.getElem?_toList] at hr
  rw [rows]
  cases hrecords : (w.records.get .observer).toList with
  | nil => rw [hrecords] at hr; cases hr
  | cons r' rest =>
    rw [hrecords] at hr
    cases hr
    rw [List.filter_cons_of_pos halive]
    rfl

/-- The snapshot shows the world. -/
theorem Populated.pictured {spec : WorldSpec} (h : w.Populated spec) :
    ∃ entries, w.snapshot = .object entries ∧ w.Pictured entries := by
  refine ⟨_, rfl, ?_, fun kind hkind => ?_⟩
  · obtain ⟨r, hr, hrow⟩ := h.head?_rows
    refine ⟨_, ?_, shown_row h.regular hr⟩
    rw [Json.lookup_sortedEntries, hrow]
    rfl
  · obtain ⟨rows, hrows, hshown⟩ := forall₂_shown h.regular hkind
    refine ⟨(w.agents kind).agents, rows, ?_, ⟨h.mem_agents kind, w.pairwise_agents kind⟩, hshown⟩
    rw [Json.lookup_sortedEntries, ← hrows]
    cases kind with
    | observer => exact absurd rfl hkind
    | _ => rfl

/-- What becomes of the name of a slot. A row shows the last variable with exactly this name. A
search finds the first variable with this name up to the case of basic Latin letters, which is the
variable in the slot only if none before it has the name. -/
structure Resolved (w : World) (kind : AgentKind) (slot : Nat) : Prop where
  shown : ∃ last, slot ≤ last ∧ last < (w.table kind).size
    ∧ w.variableName kind last = w.variableName kind slot ∧ w.LastOfName kind last
  found : ∃ first ≤ slot, w.variableIndex? kind (w.variableName kind slot) = some first
    ∧ Text.eqFolding (w.variableName kind first) (w.variableName kind slot) = true
    ∧ (∀ earlier < first,
      Text.eqFolding (w.variableName kind earlier) (w.variableName kind slot) = false)
    ∧ (first = slot ↔ w.FirstOfName kind slot)

/-- Whatever calls are made on the world of a description, its snapshot has a row for each live
agent, and the row has the last variable of each name. A search by the name of a slot finds the
first variable with this name, so it finds the slot exactly if no variable before it has it. -/
theorem snapshot_pictures {spec : WorldSpec} {s : Stream} (h : ofSpec spec = .ok (w, s))
    (ops : List Operation) :
    (∃ entries, (w.applyAll ops).snapshot = .object entries ∧ (w.applyAll ops).Pictured entries)
      ∧ ∀ kind, ∀ slot < ((w.applyAll ops).table kind).size,
        (w.applyAll ops).Resolved kind slot := by
  obtain ⟨_, _, rfl⟩ := ofSpec_eq_applyAll h
  have hpopulated := ((populated_build spec).applyAll spec.setup).applyAll ops
  exact ⟨hpopulated.pictured, fun kind slot hslot =>
    ⟨exists_lastOfName hslot, variableIndex?_variableName hslot⟩⟩

theorem snapshot_pictures_hub :
    ∃ s, ofSpec hub = .ok (hubWorld, s)
      ∧ (∃ entries, (hubWorld.applyAll repointing).snapshot = .object entries
        ∧ (hubWorld.applyAll repointing).Pictured entries)
      ∧ (hubWorld.applyAll repointing).Resolved .turtle headingSlot := by
  obtain ⟨s, hs⟩ := ofSpec_hub
  obtain ⟨hpictured, hresolved⟩ := snapshot_pictures hs repointing
  exact ⟨s, hs, hpictured, hresolved .turtle headingSlot (by decide +kernel)⟩

/-- A description that declares a global twice, and a variable of turtles with the name of a
built-in one, up to case. -/
def repeated : WorldSpec :=
  { WorldSpec.default with
    globals := [(Variable.ofDomain "g" .boolean).withInitial (.boolean true),
      (Variable.ofDomain "g" .boolean).withInitial (.boolean false)]
    turtlesOwn := [.ofDomain "XCOR" .any] }

theorem record?_repeated : (build repeated).record? .observer =
    some ⟨#[.boolean true, .boolean false], true⟩ := by
  simp [record?, build, fresh, table, PerKind.get, WorldSpec.tables, repeated, AgentRef.observer,
    Variable.withInitial, Variable.ofDomain]

/-- The row of the observer does not show the first `g`, and a search for `XCOR` finds `xcor`. -/
theorem snapshot_loses :
    ∃ w s entries row, ofSpec repeated = .ok (w, s)
      ∧ w.snapshot = .object entries ∧ entries.lookup "globals" = some (.object row)
      ∧ w.stored? .observer 0 = some (.boolean true)
      ∧ row.lookup (w.variableName .observer 0) = some (Value.boolean false).toJson.sorted
      ∧ (Value.boolean false).toJson.sorted ≠ (Value.boolean true).toJson.sorted
      ∧ w.variableName .turtle 5 = "XCOR" ∧ w.variableIndex? .turtle "XCOR" = some xSlot := by
  obtain ⟨entries, hentries, hpictured⟩ := (populated_build repeated).pictured
  obtain ⟨row, hrow, hshown⟩ := hpictured.globals
  have hsize : ((build repeated).table AgentRef.observer.kind).size = 2 := rfl
  obtain ⟨v, hv, hlast⟩ := hshown.last 1 (by omega) fun later h h' => by omega
  have hvalue : (build repeated).stored? .observer 1 = some (.boolean false) := by
    rw [stored?, record?_repeated]
    rfl
  cases hv.symm.trans hvalue
  refine ⟨build repeated, _, entries, row, rfl, hentries, hrow, ?_, hlast, ?_, rfl,
    by decide +kernel⟩
  · rw [stored?, record?_repeated]
    rfl
  · intro h
    cases h

end World

end Swarm
