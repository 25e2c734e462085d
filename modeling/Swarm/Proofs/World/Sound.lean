import Swarm.Proofs.Fault
import Swarm.Proofs.World.Reachable

/-!
# Sound worlds

Agent sets that hold only agents of their own kind, values made of such sets, and worlds that
store only such values. In a sound world an access to a variable that its table declares fails for
lack of the agent only, and a layout of springs finds a slot for every coordinate and every end.

## Main definitions

* `AgentSet.WellKinded`, `Value.wellKinded`
* `World.Sound`

## Main results

* `World.sound_ofSpec`: worlds of descriptions are sound
* `World.Sound.store`, `World.Sound.createTurtles`, `World.Sound.remove`,
  `World.Sound.layoutSpring`: operations keep worlds sound
-/

namespace Swarm

/-- All members are of the kind of the set. -/
def AgentSet.WellKinded (s : AgentSet) : Prop :=
  ∀ a ∈ s.agents, a.kind = s.kind

namespace Value

mutual

/-- Whether every agent set in a value holds only agents of its own kind. -/
def wellKinded : Value → Bool
  | .agentset s => s.agents.all fun a => a.kind == s.kind
  | .list items => allWellKinded items
  | _ => true

/-- Whether all items are well-kinded. -/
def allWellKinded : List Value → Bool
  | [] => true
  | v :: rest => wellKinded v && allWellKinded rest

end

theorem wellKinded_agentset {s : AgentSet} :
    (Value.agentset s).wellKinded = true ↔ s.WellKinded := by
  simp [wellKinded, AgentSet.WellKinded]

theorem wellKinded_of_mem {v : Value} {items : List Value} (h : (Value.list items).wellKinded = true)
    (hv : v ∈ items) : v.wellKinded = true := by
  rw [wellKinded] at h
  induction items with
  | nil => cases hv
  | cons u rest ih =>
    rw [allWellKinded, Bool.and_eq_true] at h
    rcases List.mem_cons.1 hv with rfl | hv
    · exact h.1
    · exact ih h.2 hv

end Value

theorem AgentSet.wellKinded_ofAgent (a : AgentRef) : (AgentSet.ofAgent a).WellKinded := by
  intro b hb
  rw [List.mem_singleton.1 hb]
  rfl

namespace World

theorem wellKinded_agents (w : World) (kind : AgentKind) : (w.agents kind).WellKinded := by
  intro a ha
  cases kind with
  | observer => exact AgentSet.wellKinded_ofAgent _ a ha
  | _ =>
    obtain ⟨id, _, rfl⟩ := List.mem_map.1 ha
    rfl

/-- A world whose agents have the variables of their kind, with a slot for every coordinate and
every end, and store well-kinded values only. -/
structure Sound (w : World) : Prop where
  regular : w.Regular
  kinded : ∀ a r, w.record? a = some r → ∀ v ∈ r.values, v.wellKinded = true
  initial : ∀ kind, ∀ x ∈ w.table kind, x.initial.wellKinded = true
  turtle : ySlot < (w.table .turtle).size
  link : secondEndSlot < (w.table .link).size

variable {w w' : World}

/-- A world is sound if it is regular, has the tables of a sound one, and stores well-kinded
values. -/
theorem Sound.of_tables (h : w.Sound) (regular : w'.Regular) (tables : w'.tables = w.tables)
    (kinded : ∀ a r, w'.record? a = some r → ∀ v ∈ r.values, v.wellKinded = true) : w'.Sound where
  regular := regular
  kinded := kinded
  initial kind := by rw [table, tables]; exact h.initial kind
  turtle := by rw [table, tables]; exact h.turtle
  link := by rw [table, tables]; exact h.link

end World

theorem Record.kinded_put {r : Record} (h : ∀ v ∈ r.values, v.wellKinded = true) (slot : Nat)
    {x : Value} (hx : x.wellKinded = true) : ∀ v ∈ (r.put slot x).values, v.wellKinded = true := by
  intro v hv
  obtain ⟨k, hk, rfl⟩ := Array.mem_iff_getElem.1 hv
  by_cases hs : k = slot
  · subst hs
    simpa [put, Array.getElem_modify] using hx
  · have hk' : k < r.values.size := by simpa [put] using hk
    have hput : (r.put slot x).values[k] = r.values[k] := by
      simp [put, Array.getElem_modify, Ne.symm hs]
    rw [hput]
    exact h _ (Array.getElem_mem hk')

/-- The variables that a description declares besides the built-in ones. -/
def WorldSpec.declared (spec : WorldSpec) : List Variable :=
  spec.globals ++ spec.turtlesOwn ++ spec.patchesOwn ++ spec.linksOwn

namespace World

variable {w w' : World}

theorem Sound.store (h : w.Sound) (a : AgentRef) (slot : Nat) {v : Value}
    (hv : v.wellKinded = true) : (w.store a slot v).Sound := by
  apply h.of_tables (h.regular.store a slot v) rfl
  intro b r hr
  rw [record?_store] at hr
  split at hr
  · next hb =>
    subst hb
    obtain ⟨r₀, hr₀, rfl⟩ := Option.map_eq_some_iff.1 hr
    exact Record.kinded_put (h.kinded b r₀ hr₀) slot hv
  · exact h.kinded b r hr

theorem Sound.append (h : w.Sound) {kind : AgentKind} {r : Record}
    (size : r.values.size = (w.table kind).size)
    (kinded : ∀ v ∈ r.values, v.wellKinded = true) : (w.append kind r).Sound := by
  apply h.of_tables (h.regular.append size) rfl
  intro b r' hr'
  rw [record?_append] at hr'
  split at hr'
  · cases hr'
    exact kinded
  · exact h.kinded b r' hr'

theorem Sound.kinded_fresh (h : w.Sound) (kind : AgentKind) :
    ∀ v ∈ (w.fresh kind).values, v.wellKinded = true := by
  intro v hv
  obtain ⟨x, hx, rfl⟩ := Array.mem_map.1 hv
  exact h.initial kind x hx

theorem Sound.createTurtle (h : w.Sound) (s : Random.Stream) : (w.createTurtle s).1.Sound := by
  rw [createTurtle_fst]
  apply h.append (size_newborn w s)
  exact Record.kinded_put (Record.kinded_put (Record.kinded_put (h.kinded_fresh .turtle) _ rfl) _
    rfl) _ rfl

theorem Sound.createTurtles (h : w.Sound) (count : Nat) (s : Random.Stream) :
    (w.createTurtles count s).2.1.Sound :=
  growTurtles_induction (fun _ s hw => hw.createTurtle s) count w s h

theorem Sound.createLink (h : w.Sound) {first second a : AgentRef}
    (hl : w.createLink first second = .ok (a, w')) : w'.Sound := by
  rw [createLink_ok hl]
  apply h.append (by simp [fresh])
  exact Record.kinded_put (Record.kinded_put (h.kinded_fresh .link) _ rfl) _ rfl

theorem Sound.remove (h : w.Sound) (a : AgentRef) : (w.remove a).Sound := by
  apply h.of_tables (h.regular.remove a) (tables_remove w a)
  intro b r hr
  obtain ⟨alive, hb⟩ := record?_remove w a b
  rw [hb] at hr
  obtain ⟨r₀, hr₀, rfl⟩ := Option.map_eq_some_iff.1 hr
  exact h.kinded b r₀ hr₀

theorem Sound.shift (h : w.Sound) (mv : Move) : (w.shift mv).Sound := by
  refine h.of_tables (h.regular.foldl_shift [mv]) rfl fun b r hr => ?_
  obtain ⟨x, y, hb⟩ := record?_shift w mv b
  rw [hb] at hr
  split at hr
  · obtain ⟨r₀, hr₀, rfl⟩ := Option.map_eq_some_iff.1 hr
    exact Record.kinded_put (Record.kinded_put (h.kinded b r₀ hr₀) _ rfl) _ rfl
  · exact h.kinded b r hr

theorem Sound.foldl_shift (moves : List Move) :
    ∀ {w : World}, w.Sound → (moves.foldl World.shift w).Sound := by
  induction moves with
  | nil => exact fun h => h
  | cons mv rest ih => exact fun h => ih (h.shift mv)

-- ════════════════════════════════════════════════════════════════════════
-- Worlds of descriptions
-- ════════════════════════════════════════════════════════════════════════

theorem initial_of_declared {spec : WorldSpec}
    (h : ∀ x ∈ spec.declared, x.initial.wellKinded = true) (kind : AgentKind) :
    ∀ x ∈ spec.tables.get kind, x.initial.wellKinded = true := by
  have hbuiltin : ∀ x ∈ turtleVariables spec.width spec.height ++ patchVariables ++ linkVariables,
      x.initial.wellKinded = true := by
    intro x hx
    simp only [turtleVariables, patchVariables, linkVariables, List.mem_append, List.mem_cons,
      List.not_mem_nil, or_false] at hx
    rcases hx with (hx | hx) | hx
    · rcases hx with rfl | rfl | rfl | rfl | rfl <;> rfl
    · rcases hx with rfl | rfl | rfl | rfl <;> rfl
    · rcases hx with rfl | rfl | rfl <;> rfl
  intro x hx
  have hmem : x ∈ spec.declared
      ∨ x ∈ turtleVariables spec.width spec.height ++ patchVariables ++ linkVariables := by
    cases kind <;>
      simp only [WorldSpec.tables, PerKind.get, List.mem_toArray, List.mem_append] at hx <;>
      simp only [WorldSpec.declared, List.mem_append] <;> grind
  rcases hmem with hx | hx
  · exact h x hx
  · exact hbuiltin x hx

theorem sound_build {spec : WorldSpec} (h : ∀ x ∈ spec.declared, x.initial.wellKinded = true) :
    (build spec).Sound := by
  have hfresh (kind : AgentKind) :
      ∀ v ∈ ((build spec).fresh kind).values, v.wellKinded = true := by
    intro v hv
    obtain ⟨x, hx, rfl⟩ := Array.mem_map.1 hv
    exact initial_of_declared h kind x hx
  refine ⟨regular_build spec, fun a r hr => ?_, initial_of_declared h, ?_, ?_⟩
  · rcases record?_build hr with ⟨rfl, rfl⟩ | ⟨id, rfl, rfl⟩
    · exact hfresh .observer
    · exact Record.kinded_put (Record.kinded_put (hfresh .patch) _ rfl) _ rfl
  · simp [build, table, WorldSpec.tables, PerKind.get, turtleVariables, ySlot]
  · simp [build, table, WorldSpec.tables, PerKind.get, linkVariables, secondEndSlot]

/-- The world of a description is sound if all initial values are well-kinded. -/
theorem sound_ofSpec {spec : WorldSpec} {s : Random.Stream} (h : ofSpec spec = .ok (w, s))
    (hk : ∀ x ∈ spec.declared, x.initial.wellKinded = true) : w.Sound :=
  ofSpec_induction h (sound_build hk) (fun _ s hw => hw.createTurtle s) fun hw hl => hw.createLink hl

-- ════════════════════════════════════════════════════════════════════════
-- Access
-- ════════════════════════════════════════════════════════════════════════

section Access

variable {forgiving : Bool}

/-- The record of a live agent has the variables of its kind. -/
theorem Sound.live (h : w.Sound) (a : AgentRef) :
    Except.Yields forgiving (fun r => w.record? a = some r
      ∧ r.values.size = (w.table a.kind).size) (w.live a) := by
  cases hl : w.live a with
  | ok r =>
    obtain ⟨hr, _⟩ := live_eq_ok hl
    exact ⟨hr, h.regular a r hr⟩
  | error f =>
    rw [World.live] at hl
    split at hl
    · cases hl
      exact Fault.tolerable_ofCause (by rintro ⟨⟩)
    · split at hl
      · cases hl
      · cases hl
        exact Fault.tolerable_ofCause (by rintro ⟨⟩)

/-- A variable that the table declares can be read. -/
theorem Sound.getVariable (h : w.Sound) {a : AgentRef} {slot : Nat}
    (hs : slot < (w.table a.kind).size) :
    Except.Yields forgiving (fun v => v.wellKinded = true) (w.getVariable a slot) := by
  apply (h.live a).bind
  intro r ⟨hr, hsize⟩
  have hslot : slot < r.values.size := hsize ▸ hs
  rw [Array.getElem?_eq_getElem hslot]
  exact h.kinded a r hr _ (Array.getElem_mem hslot)

theorem Sound.stored {d : Domain} {name : String} {v : Value} (hv : v.wellKinded = true) :
    Except.Yields forgiving (fun u => u.wellKinded = true) (d.stored name v) := by
  have hviolation (detail : String) : (Domain.violation name detail).Tolerable forgiving :=
    Fault.tolerable_ofCause (by rintro ⟨⟩)
  unfold Domain.stored
  dsimp only
  split
  · exact hv
  · rfl
  · split
    · exact hviolation _
    · split
      · exact hviolation _
      · rfl
  · rfl
  · rfl
  · rfl
  · split
    · rfl
    · exact hviolation _
  all_goals exact hviolation _

/-- A variable that the table declares can be written. -/
theorem Sound.accept (h : w.Sound) {a : AgentRef} {slot : Nat} {v : Value}
    (hs : slot < (w.table a.kind).size) (hv : v.wellKinded = true) :
    Except.Yields forgiving (fun u => u.wellKinded = true) (w.accept a slot v) := by
  rw [World.accept]
  rw [Array.getElem?_eq_getElem hs]
  dsimp only
  split
  · exact Fault.tolerable_ofCause (by rintro ⟨⟩)
  · have hlive : Except.Yields forgiving _ _ := h.live a
    cases hl : w.live a with
    | error f =>
      rw [hl] at hlive
      exact hlive
    | ok r => exact Sound.stored hv

/-- A turtle has coordinates. -/
theorem Sound.position (h : w.Sound) {a : AgentRef} (ha : a.kind = .turtle) :
    Except.Yields forgiving (fun _ => True) (w.position a) := by
  apply (h.live a).bind
  intro r ⟨hr, hsize⟩
  have hy : ¬ r.values.size ≤ ySlot := by
    rw [hsize, ha]
    exact Nat.not_le.2 h.turtle
  rw [if_neg hy]
  trivial

theorem Sound.patchHere (h : w.Sound) {a : AgentRef} (ha : a.kind = .turtle) :
    Except.Yields forgiving (fun p => p.kind = .patch) (w.patchHere a) :=
  (h.position ha).bind fun _ _ => rfl

/-- The agent whose variables are addressed is of the kind asked for. -/
theorem Sound.target (h : w.Sound) (running : AgentRef) (kind : AgentKind) (primitive : String) :
    Except.Yields forgiving (fun a => a.kind = kind) (Argument.target w running kind primitive) := by
  rw [Argument.target]
  split
  · next hk =>
    subst hk
    rfl
  · split
    · next hk => exact hk.symm
    · split
      · next hk => exact (h.patchHere hk.2).mono fun a ha => ha.trans hk.1.symm
      · exact Fault.tolerable_ofCause (by rintro ⟨⟩)

theorem Sound.mortal (h : w.Sound) (a : AgentRef) :
    Except.Yields forgiving (fun _ => True) (w.mortal a) := by
  rw [World.mortal]
  split
  · exact Fault.tolerable_ofCause (by rintro ⟨⟩)
  · exact Fault.tolerable_ofCause (by rintro ⟨⟩)
  · have hlive : Except.Yields forgiving _ _ := h.live a
    cases hl : w.live a with
    | error f =>
      rw [hl] at hlive
      exact hlive
    | ok r => trivial

-- ════════════════════════════════════════════════════════════════════════
-- Springs
-- ════════════════════════════════════════════════════════════════════════

theorem Sound.ends? (h : w.Sound) {a : AgentRef} (ha : a.kind = .link) :
    Except.Yields forgiving (fun _ => True) (w.ends? a) := by
  apply (h.live a).bind
  intro r ⟨hr, hsize⟩
  have hend : ¬ r.values.size ≤ secondEndSlot := by
    rw [hsize, ha]
    exact Nat.not_le.2 h.link
  rw [if_neg hend]
  split <;> trivial

theorem Sound.springMoves (h : w.Sound) {nodes : AgentSet} (hn : ∀ a ∈ nodes.agents, a.kind = .turtle)
    (springs : Springs) (links : List AgentRef) (hl : ∀ a ∈ links, a.kind = .link) :
    Draw.Yields forgiving (fun _ => True) (w.springMoves nodes springs links) := by
  induction links with
  | nil => exact Draw.yields_pure trivial
  | cons link rest ih =>
    have hrest := ih fun a ha => hl a (by simp [ha])
    apply (Draw.yields_ofExcept (h.ends? (hl link (by simp)))).bind
    intro found _
    split
    · exact hrest
    · next a b =>
      split
      · next hin =>
        simp only [Bool.and_eq_true, List.contains_iff_mem] at hin
        apply (Draw.yields_ofExcept (h.position (hn a hin.1))).bind
        intro p _
        apply (Draw.yields_ofExcept (h.position (hn b hin.2))).bind
        intro q _
        have hoffset : Draw.Yields forgiving (fun _ => True) (offset p q) := by
          rw [offset]
          dsimp only
          split
          · exact (Draw.yields_ofStream (P := fun _ => True) _ fun _ => trivial).bind
              fun _ _ => Draw.yields_pure trivial
          · exact Draw.yields_pure trivial
        refine hoffset.bind fun o _ => hrest.bind fun moves _ => ?_
        exact Draw.yields_pure trivial
      · exact hrest

theorem Sound.repulsionOf (h : w.Sound) (springs : Springs) {a : AgentRef} (ha : a.kind = .turtle)
    (others : List AgentRef) (ho : ∀ b ∈ others, b.kind = .turtle) :
    Except.Yields forgiving (fun _ => True) (w.repulsionOf springs a others) := by
  induction others with
  | nil => trivial
  | cons b rest ih =>
    refine (h.position ha).bind fun p _ => (h.position (ho b (by simp))).bind fun q _ => ?_
    apply (ih fun c hc => ho c (by simp [hc])).bind
    intro moves _
    trivial

theorem Sound.repulsionMoves (h : w.Sound) (springs : Springs) (members : List AgentRef)
    (hm : ∀ a ∈ members, a.kind = .turtle) :
    Except.Yields forgiving (fun _ => True) (w.repulsionMoves springs members) := by
  induction members with
  | nil => trivial
  | cons a rest ih =>
    have hrest : ∀ b ∈ rest, b.kind = .turtle := fun b hb => hm b (by simp [hb])
    apply (h.repulsionOf springs (hm a (by simp)) rest hrest).bind
    intro moves _
    exact (ih hrest).bind fun _ _ => trivial

/-- A layout of turtles and links fails for lack of an agent only, and gives a sound world. -/
theorem Sound.layoutSpring (h : w.Sound) {nodes links : AgentSet}
    (hn : ∀ a ∈ nodes.agents, a.kind = .turtle) (hl : ∀ a ∈ links.agents, a.kind = .link)
    (springs : Springs) :
    Draw.Yields forgiving (fun p => p.2.Sound ∧ p.2.tables = w.tables)
      (w.layoutSpring nodes links springs) := by
  have htail : Draw.Yields forgiving (fun p => p.2.Sound ∧ p.2.tables = w.tables) (do
      let pulls ← w.springMoves nodes springs links.agents
      let pushes ← Draw.ofExcept (w.repulsionMoves springs nodes.agents)
      let moves := pulls ++ pushes
      let written := (movedAgents moves).flatMap fun a => [(a, xSlot), (a, ySlot)]
      return (written, moves.foldl World.shift w) : Draw (List (AgentRef × Nat) × World)) := by
    apply (h.springMoves hn springs links.agents hl).bind
    intro pulls _
    apply (Draw.yields_ofExcept (h.repulsionMoves springs nodes.agents hn)).bind
    intro pushes _
    exact Draw.yields_pure ⟨Sound.foldl_shift _ h, tables_foldl_shift _ w⟩
  rw [World.layoutSpring]
  split
  · have hnone : (Fault.ofCause .noSprings).Tolerable forgiving :=
      Fault.tolerable_ofCause (by rintro ⟨⟩)
    exact (Draw.yields_throw (P := fun _ => True) hnone).bind fun _ _ => htail
  · exact htail

end Access

end World

end Swarm
