import Swarm.Proofs.World.Operations

/-!
# The ends of links

A link is made between live turtles and dies with either of them. Its ends are also variables like
any other, which take any turtle whether it lives or not, and a layout that is given a link as a
node moves its ends like coordinates. So an end of a live link is nobody or a live turtle, unless it
was written to hold something else.

## Main definitions

* `World.Linkable`: nobody, or a live turtle
* `World.EndsHold`: the ends of live links are linkable, but for excused values
* `World.Excused`: values that were not linkable when they were written
* `World.EndReads`: what the end of a live link can hold after a sequence of calls

## Main results

* `World.EndsHold.apply`, `World.EndsHold.applyAll`: what one call keeps, and what several keep
* `World.ends_of_live_link`: the ends of live links in every world
* `World.ends_not_live`: an end can be a dead turtle, or a number
-/

namespace Swarm.World

open Swarm.Random (Stream)

/-- A value that is nobody or a live turtle. -/
def Linkable (w : World) (v : Value) : Prop :=
  v = .nobody ∨ ∃ t, v = .agent (.turtle t) ∧ w.isAlive (.turtle t) = true

/-- The ends of live links are linkable, but for excused values. -/
def EndsHold (w : World) (excused : AgentRef → Nat → Value → Prop) : Prop :=
  ∀ id r, w.record? (.link id) = some r → r.alive = true →
    ∀ slot, slot = firstEndSlot ∨ slot = secondEndSlot → ∀ v, r.values[slot]? = some v →
      w.Linkable v ∨ excused (.link id) slot v

/-- A value that was not linkable when one of the calls wrote it. -/
def Excused (w : World) (ops : List Operation) (a : AgentRef) (slot : Nat) (v : Value) : Prop :=
  ∃ before op after, ops = before ++ op :: after ∧ op.Writes (w.applyAll before) a slot v
    ∧ ¬ (w.applyAll before).Linkable v

variable {w : World} {excused : AgentRef → Nat → Value → Prop}

-- ════════════════════════════════════════════════════════════════════════
-- One call
-- ════════════════════════════════════════════════════════════════════════

/-- What is linkable stays so unless a turtle is killed. -/
theorem Linkable.apply {v : Value} (h : w.Linkable v) {op : Operation}
    (hkill : ∀ t, v = .agent (.turtle t) → op ≠ .kill (.turtle t)) : (w.apply op).Linkable v := by
  rcases h with rfl | ⟨t, rfl, halive⟩
  · exact .inl rfl
  · rcases isAlive_apply halive op with halive | hop
    · exact .inr ⟨t, rfl, halive⟩
    · exact absurd hop (hkill t rfl)

theorem linkable_of_canLink {a : AgentRef} (h : w.canLink a = true) : w.Linkable (.agent a) := by
  obtain ⟨kind, id⟩ := a
  obtain ⟨hkind, halive⟩ : kind = .turtle ∧ w.isAlive ⟨kind, id⟩ = true := by
    simpa [canLink] using h
  subst hkind
  exact .inr ⟨id, rfl, halive⟩

/-- No link survives the death of a live turtle that it ends in. -/
theorem dead_of_kill {t id slot : Nat} (hturtle : w.isAlive (.turtle t) = true) {r r' : Record}
    (hr : w.record? (.link id) = some r) (hslot : slot = firstEndSlot ∨ slot = secondEndSlot)
    (hv : r.values[slot]? = some (.agent (.turtle t)))
    (hr' : (w.apply (.kill (.turtle t))).record? (.link id) = some r') : r'.alive = false := by
  rw [apply, kill_turtle hturtle] at hr'
  obtain ⟨r₀, hr₀, _, halive⟩ := values_remove hr'
  cases hr.symm.trans hr₀
  have hrefers : r.refersTo slot (.turtle t) = true := by simp [Record.refersTo, hv]
  rw [Bool.eq_false_iff]
  intro hlives
  have hnone := (halive hlives).2 rfl rfl
  rcases hslot with rfl | rfl <;> simp [hrefers] at hnone

/-- The ends of a link that is made are linkable. -/
theorem linkable_of_bears {op : Operation} {id slot : Nat} {r : Record} {v : Value}
    (h : op.Bears w (.link id) r) (hslot : slot = firstEndSlot ∨ slot = secondEndSlot)
    (hv : r.values[slot]? = some v) : (w.apply op).Linkable v := by
  cases h with
  | link _ hfirst hsecond =>
    have hold : w.Linkable v := by
      rcases hslot with rfl | rfl
      · rw [Record.getElem?_put_of_ne _ _ (by decide)] at hv
        cases Record.eq_of_getElem?_put hv
        exact linkable_of_canLink hfirst
      · cases Record.eq_of_getElem?_put hv
        exact linkable_of_canLink hsecond
    exact hold.apply (by simp)

/-- One call keeps the ends of live links, but for the values that it writes. -/
theorem EndsHold.apply (h : w.EndsHold excused) (op : Operation) :
    (w.apply op).EndsHold fun a slot v =>
      excused a slot v ∨ op.Writes w a slot v ∧ ¬ w.Linkable v := by
  intro id r' hr' halive slot hslot v hv
  rcases record?_apply w op (.link id) r' hr' with ⟨r, hr, hlived, hvalues⟩ | ⟨-, hbears⟩
  · rcases hvalues slot v hv with hold | hwrites
    · rcases h id r hr (hlived halive) slot hslot v hold with hlink | hexcused
      · refine .inl (hlink.apply ?_)
        rintro t rfl rfl
        rcases hlink with hnobody | ⟨_, hsame, hturtle⟩
        · cases hnobody
        · cases hsame
          cases halive.symm.trans (dead_of_kill hturtle hr hslot hold hr')
      · exact .inr (.inl hexcused)
    · by_cases hlink : w.Linkable v
      · exact .inl (hlink.apply fun _ _ hop => by subst hop; cases hwrites)
      · exact .inr (.inr ⟨hwrites, hlink⟩)
  · exact .inl (linkable_of_bears hbears hslot hv)

/-- Several calls keep the ends of live links, but for values that were not linkable when they were
written. -/
theorem EndsHold.applyAll (h : w.EndsHold excused) (ops : List Operation) :
    (w.applyAll ops).EndsHold fun a slot v => excused a slot v ∨ w.Excused ops a slot v := by
  induction ops generalizing w excused with
  | nil => exact fun id r hr halive slot hslot v hv =>
      (h id r hr halive slot hslot v hv).imp_right .inl
  | cons op ops ih =>
    intro id r hr halive slot hslot v hv
    refine (ih (h.apply op) id r hr halive slot hslot v hv).imp_right ?_
    rintro ((hexcused | ⟨hwrites, hlink⟩) | ⟨before, op', after, rfl, hwrites, hlink⟩)
    · exact .inl hexcused
    · exact .inr ⟨[], op, ops, rfl, hwrites, hlink⟩
    · exact .inr ⟨op :: before, op', after, rfl, hwrites, hlink⟩

-- ════════════════════════════════════════════════════════════════════════
-- Worlds of descriptions
-- ════════════════════════════════════════════════════════════════════════

/-- In the world of a description the ends of links are live turtles. -/
theorem endsHold_ofSpec {spec : WorldSpec} {s : Stream} (h : ofSpec spec = .ok (w, s)) :
    w.EndsHold fun _ _ _ => False := by
  obtain ⟨_, _, rfl⟩ := ofSpec_eq_applyAll h
  have hbuild : (build spec).EndsHold fun _ _ _ => False := by
    intro id r hr
    simp [record?, build, PerKind.get, AgentRef.link] at hr
  intro id r hr halive slot hslot v hv
  refine (hbuild.applyAll spec.setup id r hr halive slot hslot v hv).imp_right ?_
  rintro (hfalse | ⟨before, op, after, hsetup, hwrites, -⟩)
  · exact hfalse
  · have hop : op ∈ spec.setup := by simp [hsetup]
    rcases WorldSpec.mem_setup hop with ⟨_, _, rfl⟩ | ⟨_, _, rfl⟩ <;> cases hwrites

/-- The ends of a link are declared as turtles. -/
theorem domain_end {spec : WorldSpec} {slot : Nat} {x : Variable}
    (hslot : slot = firstEndSlot ∨ slot = secondEndSlot)
    (hx : (spec.tables.get .link)[slot]? = some x) : x.domain = .agent .turtle := by
  rcases hslot with rfl | rfl <;>
    · cases hx
      rfl

/-- What an end of a live link can hold after calls on a world: nobody, a live turtle, a turtle that
was not alive when it was written there, or a number that a layout has put there because the link
was among its nodes. -/
inductive EndReads (w : World) (ops : List Operation) (link : AgentRef) (slot : Nat) :
    Value → Prop where
  | nobody : EndReads w ops link slot .nobody
  | live {t : Nat} : (w.applyAll ops).isAlive (.turtle t) = true →
    EndReads w ops link slot (.agent (.turtle t))
  | absent {t : Nat} {before after : List Operation} :
    ops = before ++ .write link slot (.agent (.turtle t)) :: after →
    (w.applyAll before).isAlive (.turtle t) = false →
    EndReads w ops link slot (.agent (.turtle t))
  | moved {x : Float} {nodes links : AgentSet} {springs : Springs} {stream : Stream} :
    .layout nodes links springs stream ∈ ops → link ∈ nodes.agents →
    EndReads w ops link slot (.number x)

/-- What is stored in an end of a link is the turtle or nobody that was written. -/
theorem stored_end {name : String} {v stored : Value}
    (h : (Domain.agent .turtle).stored name v = .ok stored) :
    stored = v ∧ (v = .nobody ∨ ∃ t, v = .agent (.turtle t)) := by
  cases v with
  | nobody =>
    cases h
    exact ⟨rfl, .inl rfl⟩
  | agent a =>
    obtain ⟨kind, id⟩ := a
    rw [Domain.stored] at h
    dsimp only at h
    split at h
    · next hkind =>
      cases h
      subst hkind
      exact ⟨rfl, .inr ⟨id, rfl⟩⟩
    · cases h
  | _ => cases h

/-- An excused value of an end is a turtle that did not live, or comes from a layout. -/
theorem endReads_of_excused {spec : WorldSpec} (htables : w.tables = spec.tables)
    {ops : List Operation} {id slot : Nat} {v : Value}
    (hslot : slot = firstEndSlot ∨ slot = secondEndSlot)
    (h : w.Excused ops (.link id) slot v) : w.EndReads ops (.link id) slot v := by
  obtain ⟨before, op, after, hops, hwrites, hlink⟩ := h
  have hop : op ∈ ops := by simp [hops]
  cases hwrites with
  | write haccept =>
    obtain ⟨x, r, hx, -, -, hstored⟩ := accept_eq_ok haccept
    rw [table, (frame_applyAll w before).1, htables] at hx
    rw [domain_end hslot hx] at hstored
    obtain ⟨rfl, rfl | ⟨t, rfl⟩⟩ := stored_end hstored
    · exact .nobody
    · exact .absent hops (Bool.eq_false_iff.2 fun halive => hlink (.inr ⟨t, rfl, halive⟩))
  | abscissa x hnode => exact .moved hop hnode
  | ordinate y hnode => exact .moved hop hnode

/-- In every world each end of a live link is nobody or a live turtle, unless it was written while
it was not, or moved as a node of a layout. -/
theorem ends_of_live_link {spec : WorldSpec} {w : World} {s : Stream}
    (h : ofSpec spec = .ok (w, s)) (ops : List Operation) {id : Nat} {r : Record}
    (hr : (w.applyAll ops).record? (.link id) = some r) (halive : r.alive = true) {slot : Nat}
    (hslot : slot = firstEndSlot ∨ slot = secondEndSlot) :
    ∃ v, r.values[slot]? = some v ∧ w.EndReads ops (.link id) slot v := by
  have htables : w.tables = spec.tables := by
    obtain ⟨_, _, rfl⟩ := ofSpec_eq_applyAll h
    exact (frame_applyAll (build spec) spec.setup).1
  have hsize : slot < r.values.size := by
    have hregular := (regular_ofSpec h).applyAll ops (.link id) r hr
    rw [table, (frame_applyAll w ops).1, htables] at hregular
    have hends : 2 ≤ (spec.tables.get .link).size := by
      simp [WorldSpec.tables, PerKind.get, linkVariables]
    rcases hslot with rfl | rfl <;> exact hregular ▸ Nat.lt_of_lt_of_le (by decide) hends
  refine ⟨r.values[slot], Array.getElem?_eq_getElem hsize, ?_⟩
  rcases (endsHold_ofSpec h).applyAll ops id r hr halive slot hslot _
    (Array.getElem?_eq_getElem hsize) with hlink | hfalse | hexcused
  · rcases hlink with hnobody | ⟨t, hturtle, hlives⟩
    · rw [hnobody]
      exact .nobody
    · rw [hturtle]
      exact .live hlives
  · exact hfalse.elim
  · exact endReads_of_excused htables hslot hexcused

/-- Three turtles, the first of them linked to both others. -/
def hub : WorldSpec :=
  { WorldSpec.default with turtles := 3, links := [(0, 1), (0, 2)] }

def hubWorld : World :=
  (build hub).applyAll hub.setup

/-- The first link is made to end in a turtle that has died, and whose own link was turned away from
it before. -/
def repointing : List Operation :=
  [.write (.link 1) secondEndSlot (.agent (.turtle 1)), .kill (.turtle 2),
    .write (.link 0) firstEndSlot (.agent (.turtle 2))]

/-- The links are laid out as if they were turtles. -/
def straying : List Operation :=
  [.layout (hubWorld.agents .link) (hubWorld.agents .link) ⟨1, 1, 1⟩ (.ofSeed 0)]

theorem ofSpec_hub : ∃ s, ofSpec hub = .ok (hubWorld, s) :=
  ⟨_, rfl⟩

theorem ends_of_live_link_hub :
    ∃ s r v, ofSpec hub = .ok (hubWorld, s)
      ∧ (hubWorld.applyAll repointing).record? (.link 0) = some r ∧ r.alive = true
      ∧ r.values[firstEndSlot]? = some v
      ∧ hubWorld.EndReads repointing (.link 0) firstEndSlot v := by
  obtain ⟨s, hs⟩ := ofSpec_hub
  have hlive : (hubWorld.applyAll repointing).isAlive (.link 0) = true := by decide +kernel
  obtain ⟨r, hr, halive⟩ := isAlive_iff.1 hlive
  obtain ⟨v, hv, hreads⟩ := ends_of_live_link hs repointing hr halive (.inl rfl)
  exact ⟨s, r, v, hs, hr, halive, hv, hreads⟩

/-- An end of a live link can be a dead turtle, or a number. -/
theorem ends_not_live :
    (∃ s, ofSpec hub = .ok (hubWorld, s))
      ∧ ((hubWorld.applyAll repointing).isAlive (.link 0) = true
        ∧ (hubWorld.applyAll repointing).stored? (.link 0) firstEndSlot = some (.agent (.turtle 2))
        ∧ (hubWorld.applyAll repointing).isAlive (.turtle 2) = false)
      ∧ (hubWorld.applyAll straying).isAlive (.link 0) = true
      ∧ ∃ x, (hubWorld.applyAll straying).stored? (.link 0) firstEndSlot = some (.number x) := by
  refine ⟨ofSpec_hub, ⟨by decide +kernel, ?_, by decide +kernel⟩, by decide +kernel, ?_⟩
  · exact stored?_eq_agent (by decide +kernel)
  · exact exists_stored?_eq_number (by decide +kernel)

end Swarm.World
