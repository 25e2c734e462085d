import Swarm.Proofs.World.Records

/-!
# Reachable worlds

The worlds that the operations of a world lead to, from the world of any description. In each of
them every agent has exactly the variables that the table of its kind declares.

## Main definitions

* `World.Reachable`: built from a description by operations that succeed
* `World.Regular`: every record has one value for each variable of its kind

## Main results

* `World.Reachable.regular`: reachable worlds are regular
-/

namespace Swarm.World

/-- Built from a description by operations that succeed. -/
inductive Reachable : World → Prop where
  | start {spec : WorldSpec} {w : World} {s : Random.Stream} :
    ofSpec spec = .ok (w, s) → Reachable w
  | write {w w' : World} {a : AgentRef} {slot : Nat} {v : Value} :
    Reachable w → w.setVariable a slot v = .ok w' → Reachable w'
  | birth {w : World} (count : Nat) (s : Random.Stream) :
    Reachable w → Reachable (w.createTurtles count s).2.1
  | link {w w' : World} {first second a : AgentRef} :
    Reachable w → w.createLink first second = .ok (a, w') → Reachable w'
  | death {w w' : World} {a : AgentRef} :
    Reachable w → w.kill a = .ok w' → Reachable w'
  | layout {w w' : World} {nodes links : AgentSet} {springs : Springs} {s s' : Random.Stream}
    {written : List (AgentRef × Nat)} :
    Reachable w → w.layoutSpring nodes links springs s = .ok (written, w') s' → Reachable w'

/-- Every record has one value for each variable of its kind. -/
def Regular (w : World) : Prop :=
  ∀ a r, w.record? a = some r → r.values.size = (w.table a.kind).size

-- ════════════════════════════════════════════════════════════════════════
-- Operations keep worlds regular
-- ════════════════════════════════════════════════════════════════════════

variable {w w' : World}

/-- A world is regular if it has the tables of a regular one and every record is as long as one
that was there before. -/
theorem Regular.of_sizes (h : w.Regular) (tables : w'.tables = w.tables)
    (sizes : ∀ a r', w'.record? a = some r' →
      ∃ r, w.record? a = some r ∧ r'.values.size = r.values.size) : w'.Regular := by
  intro a r' hr'
  obtain ⟨r, hr, hsize⟩ := sizes a r' hr'
  rw [hsize, h a r hr, table, table, tables]

theorem Regular.store (h : w.Regular) (a : AgentRef) (slot : Nat) (v : Value) :
    (w.store a slot v).Regular := by
  refine h.of_sizes rfl fun b r' hr' => ?_
  rw [record?_store] at hr'
  split at hr'
  · next hb =>
    subst hb
    obtain ⟨r, hr, rfl⟩ := Option.map_eq_some_iff.1 hr'
    exact ⟨r, hr, Record.size_put r slot v⟩
  · exact ⟨r', hr', rfl⟩

/-- A record of the right length may be added. -/
theorem Regular.append (h : w.Regular) {kind : AgentKind} {r : Record}
    (size : r.values.size = (w.table kind).size) : (w.append kind r).Regular := by
  intro b r' hr'
  rw [record?_append] at hr'
  split at hr'
  · next hb =>
    subst hb
    cases hr'
    exact size
  · exact h b r' hr'

theorem Regular.createTurtle (h : w.Regular) (s : Random.Stream) :
    (w.createTurtle s).1.Regular := by
  rw [createTurtle_fst]
  exact h.append (size_newborn w s)

theorem Regular.createTurtles (h : w.Regular) (count : Nat) (s : Random.Stream) :
    (w.createTurtles count s).2.1.Regular :=
  growTurtles_induction (fun _ s hw => hw.createTurtle s) count w s h

theorem Regular.createLink (h : w.Regular) {first second a : AgentRef}
    (hl : w.createLink first second = .ok (a, w')) : w'.Regular := by
  rw [createLink_ok hl]
  exact h.append (by simp [fresh])

theorem Regular.remove (h : w.Regular) (a : AgentRef) : (w.remove a).Regular := by
  apply h.of_sizes (tables_remove w a)
  intro b r' hr'
  obtain ⟨alive, hb⟩ := record?_remove w a b
  rw [hb] at hr'
  obtain ⟨r, hr, rfl⟩ := Option.map_eq_some_iff.1 hr'
  exact ⟨r, hr, rfl⟩

theorem Regular.foldl_shift (h : w.Regular) (moves : List Move) :
    (moves.foldl shift w).Regular := by
  apply h.of_sizes (tables_foldl_shift moves w)
  intro b r' hr'
  cases hb : w.record? b with
  | none =>
    rw [record?_foldl_shift_none moves w b hb] at hr'
    cases hr'
  | some r =>
    obtain ⟨r₁, hr₁, hsize, _, _⟩ := record?_foldl_shift moves w b hb
    rw [hr₁] at hr'
    cases hr'
    exact ⟨r, rfl, hsize⟩

/-- The observer and the patches have the variables of their kinds. -/
theorem regular_build (spec : WorldSpec) : (build spec).Regular := by
  intro a r hr
  rcases record?_build hr with ⟨rfl, rfl⟩ | ⟨id, rfl, rfl⟩
  · simp [fresh, AgentRef.observer]
  · simp [patchRecord_eq, fresh, AgentRef.patch]

theorem regular_ofSpec {spec : WorldSpec} {s : Random.Stream} (h : ofSpec spec = .ok (w, s)) :
    w.Regular :=
  ofSpec_induction h (regular_build spec) (fun _ s hw => hw.createTurtle s)
    fun hw hl => hw.createLink hl

/-- In a reachable world every agent has the variables that the table of its kind declares. -/
theorem Reachable.regular (h : w.Reachable) : w.Regular := by
  induction h with
  | start h => exact regular_ofSpec h
  | write _ hw ih =>
    obtain ⟨stored, _, hw⟩ := Except.bind_eq_ok hw
    cases hw
    exact ih.store _ _ stored
  | birth count s _ ih => exact ih.createTurtles count s
  | link _ hl ih => exact ih.createLink hl
  | death _ hk ih =>
    obtain ⟨_, _, hk⟩ := Except.bind_eq_ok hk
    cases hk
    exact ih.remove _
  | layout _ hl ih =>
    obtain ⟨moves, _, rfl, _⟩ := layoutSpring_ok hl
    exact ih.foldl_shift moves

end Swarm.World
