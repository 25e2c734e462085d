import Swarm.Proofs.World.Records
import Swarm.Machine.Basic

/-!
# Writes by several agents

Agents of one kind that make the same writes store the same values, each in slots of its own and all
in the same slots of the observer. Whether a world takes a write, and what it stores, depends on the
kind of the agent and on nothing that a write changes. It therefore does not matter which of two
agents comes first.

## Main definitions

* `Write`: a value for a slot of the agent that writes, or of the observer
* `Write.admitted?`: the write with the value that a world stores for it
* `World.putAll`, `Simulation.putAll`: an agent's writes
* `World.Akin`: worlds with the same variables and the same live agents

## Main results

* `Write.admitted?_congr`: what a world admits is the same for all agents of a kind
* `World.foldl_putAll_perm`: the order of the agents does not matter to the world
* `Simulation.foldl_putAll`: what several agents leave, and what observers are told
-/

namespace Swarm

/-- A value for a slot of the agent that makes the write or, if the kind says so, of the
observer. -/
structure Write where
  kind : AgentKind
  slot : Nat
  value : Value

namespace Write

/-- Whose slot it is when `a` makes the write. -/
def address (p : Write) (a : AgentRef) : AgentRef :=
  if p.kind = .observer then .observer else a

/-- What observers are told when `a` makes the write. -/
def notice (p : Write) (a : AgentRef) : Notice :=
  .changed (p.address a) p.slot p.value

/-- The write with the value that a world stores for it. -/
def admitted? (w : World) (a : AgentRef) (p : Write) : Option Write :=
  (w.accept (p.address a) p.slot p.value).toOption.map fun v => { p with value := v }

end Write

/-- The world after the writes of an agent. -/
def World.putAll (ps : List Write) (w : World) (a : AgentRef) : World :=
  ps.foldl (fun w p => w.store (p.address a) p.slot p.value) w

/-- The simulation after the writes of an agent. -/
def Simulation.putAll (ps : List Write) (sim : Simulation) (a : AgentRef) : Simulation :=
  { sim with
    world := sim.world.putAll ps a
    notices := sim.notices ++ (ps.map fun p => p.notice a).toArray }

namespace World

-- ════════════════════════════════════════════════════════════════════════
-- What a world admits
-- ════════════════════════════════════════════════════════════════════════

/-- Worlds with the same variables and the same live agents. -/
structure Akin (w w' : World) : Prop where
  tables : w.tables = w'.tables
  alive : ∀ a, w.isAlive a = w'.isAlive a

theorem Akin.refl (w : World) : w.Akin w :=
  ⟨rfl, fun _ => rfl⟩

theorem Akin.trans {w w' w'' : World} (h : w.Akin w') (h' : w'.Akin w'') : w.Akin w'' :=
  ⟨h.tables.trans h'.tables, fun a => (h.alive a).trans (h'.alive a)⟩

theorem akin_store (w : World) (a : AgentRef) (slot : Nat) (v : Value) :
    w.Akin (w.store a slot v) := by
  refine ⟨rfl, fun b => ?_⟩
  rw [isAlive, isAlive, record?_store]
  by_cases h : b = a
  · rw [if_pos h, h]
    cases w.record? a <;> rfl
  · rw [if_neg h]

theorem akin_putAll (ps : List Write) (w : World) (a : AgentRef) : w.Akin (w.putAll ps a) := by
  induction ps generalizing w with
  | nil => exact .refl w
  | cons p rest ih => exact (akin_store w _ _ _).trans (ih _)

theorem toOption_live_isSome (w : World) (a : AgentRef) :
    (w.live a).toOption.isSome = w.isAlive a := by
  rw [live, isAlive]
  cases w.record? a with
  | none => rfl
  | some r =>
    dsimp only
    cases r.alive <;> rfl

/-- Live agents of one kind are all the same to the checks of a write. -/
theorem toOption_accept_congr {w w' : World} (h : w.Akin w') {a b : AgentRef}
    (kind : a.kind = b.kind) (alive : w.isAlive a = w.isAlive b) (slot : Nat) (v : Value) :
    (w.accept a slot v).toOption = (w'.accept b slot v).toOption := by
  have htable : w.table a.kind = w'.table b.kind := by rw [table, table, h.tables, kind]
  have hlive : (w.live a).toOption.isSome = (w'.live b).toOption.isSome := by
    rw [toOption_live_isSome, toOption_live_isSome, alive, h.alive]
  rw [accept, accept, htable, kind]
  cases (w'.table b.kind)[slot]? with
  | none => rfl
  | some declared =>
    dsimp only
    split
    · rfl
    · cases ha : w.live a <;> cases hb : w'.live b <;> simp_all [Except.toOption]

end World

/-- A world admits a write for one agent as a related world does for another of the same kind. -/
theorem Write.admitted?_congr {w w' : World} (h : w.Akin w') {a b : AgentRef}
    (kind : a.kind = b.kind) (alive : w.isAlive a = w.isAlive b) :
    Write.admitted? w a = Write.admitted? w' b := by
  funext p
  have haddress : (p.address a).kind = (p.address b).kind
      ∧ w.isAlive (p.address a) = w.isAlive (p.address b) := by
    rw [address, address]
    split
    · exact ⟨rfl, rfl⟩
    · exact ⟨kind, alive⟩
  rw [admitted?, admitted?, World.toOption_accept_congr h haddress.1 haddress.2]

namespace World

-- ════════════════════════════════════════════════════════════════════════
-- The order of the agents
-- ════════════════════════════════════════════════════════════════════════

/-- Worlds with the same records differ at most in what is no record. -/
theorem eq_of_record?_eq {w w' : World} (tables : w.tables = w'.tables)
    (width : w.width = w'.width) (height : w.height = w'.height) (springs : w.springs = w'.springs)
    (records : ∀ a, w.record? a = w'.record? a) : w = w' := by
  have hget : ∀ kind, w.records.get kind = w'.records.get kind :=
    fun kind => Array.ext_getElem? fun i => records ⟨kind, i⟩
  obtain ⟨_, ⟨observer, turtle, patch, link⟩, _, _, _⟩ := w
  obtain ⟨_, ⟨observer', turtle', patch', link'⟩, _, _, _⟩ := w'
  obtain rfl : observer = observer' := hget .observer
  obtain rfl : turtle = turtle' := hget .turtle
  obtain rfl : patch = patch' := hget .patch
  obtain rfl : link = link' := hget .link
  simp_all

/-- What the writes of an agent leave in a record. -/
theorem record?_putAll (ps : List Write) (w : World) (a b : AgentRef) :
    (w.putAll ps a).record? b = (w.record? b).map fun r =>
      (ps.filter fun p => p.address a = b).foldl (fun r p => r.put p.slot p.value) r := by
  induction ps generalizing w with
  | nil => simp [putAll]
  | cons p rest ih =>
    show ((w.store (p.address a) p.slot p.value).putAll rest a).record? b = _
    rw [ih, record?_store, List.filter_cons]
    by_cases hb : b = p.address a
    · subst hb
      simp [Function.comp_def]
    · simp [hb, Ne.symm hb]

theorem putAll_frame (ps : List Write) (w : World) (a : AgentRef) :
    (w.putAll ps a).width = w.width ∧ (w.putAll ps a).height = w.height
      ∧ (w.putAll ps a).springs = w.springs := by
  induction ps generalizing w with
  | nil => exact ⟨rfl, rfl, rfl⟩
  | cons p rest ih => exact ih (w.store (p.address a) p.slot p.value)

/-- Two agents may change places. Their own slots are apart, and what they leave in the slots of the
observer is the same. -/
theorem putAll_comm (ps : List Write) (w : World) {a b : AgentRef} (ha : a ≠ .observer)
    (hb : b ≠ .observer) : (w.putAll ps a).putAll ps b = (w.putAll ps b).putAll ps a := by
  have hframe : ∀ a b, ((w.putAll ps a).putAll ps b).tables = w.tables
      ∧ ((w.putAll ps a).putAll ps b).width = w.width
      ∧ ((w.putAll ps a).putAll ps b).height = w.height
      ∧ ((w.putAll ps a).putAll ps b).springs = w.springs := by
    intro a b
    obtain ⟨width, height, springs⟩ := putAll_frame ps w a
    obtain ⟨width', height', springs'⟩ := putAll_frame ps (w.putAll ps a) b
    have tables := ((akin_putAll ps w a).trans (akin_putAll ps _ b)).tables
    exact ⟨tables.symm, width'.trans width, height'.trans height, springs'.trans springs⟩
  obtain ⟨tables, width, height, springs⟩ := hframe a b
  obtain ⟨tables', width', height', springs'⟩ := hframe b a
  apply eq_of_record?_eq (tables.trans tables'.symm) (width.trans width'.symm)
    (height.trans height'.symm) (springs.trans springs'.symm)
  intro c
  simp only [record?_putAll, Option.map_map, Function.comp_def]
  by_cases hc : c = .observer
  · -- both leave the same in the observer's record
    subst hc
    have hself : ∀ {d : AgentRef} (p : Write), d ≠ .observer →
        (p.address d = .observer ↔ p.kind = .observer) := by
      intro d p hd
      rw [Write.address]
      split <;> simp_all
    simp only [hself _ ha, hself _ hb]
  · -- at most one of them writes to the record, unless they are the same
    have hother : ∀ {d : AgentRef}, d ≠ c → (ps.filter fun p => p.address d = c) = [] := by
      intro d hd
      rw [List.filter_eq_nil_iff]
      intro p _
      rw [Write.address]
      split <;> simp_all [Ne.symm]
    by_cases hac : a = c
    · by_cases hbc : b = c
      · rw [hac, hbc]
      · rw [hother hbc]
        rfl
    · rw [hother hac]
      rfl

/-- The order of the agents does not matter to the world. -/
theorem foldl_putAll_perm (ps : List Write) {agents agents' : List AgentRef}
    (h : agents.Perm agents') (foreign : ∀ a ∈ agents, a ≠ .observer) (w : World) :
    agents.foldl (putAll ps) w = agents'.foldl (putAll ps) w := by
  apply h.foldl_eq'
  intro a ha b hb w
  exact putAll_comm ps w (foreign a ha) (foreign b hb)

end World

-- ════════════════════════════════════════════════════════════════════════
-- What observers are told
-- ════════════════════════════════════════════════════════════════════════

namespace Simulation

/-- What several agents leave, and what observers are told of it. -/
theorem foldl_putAll (ps : List Write) (agents : List AgentRef) (sim : Simulation) :
    agents.foldl (putAll ps) sim =
      { sim with
        world := agents.foldl (World.putAll ps) sim.world
        notices := sim.notices ++
          (agents.flatMap fun a => ps.map fun p => p.notice a).toArray } := by
  induction agents generalizing sim with
  | nil => simp
  | cons a rest ih =>
    rw [List.foldl_cons, ih]
    simp [putAll]

theorem putAll_nil (sim : Simulation) (a : AgentRef) : sim.putAll [] a = sim := by
  simp [putAll, World.putAll]

theorem putAll_cons (p : Write) (ps : List Write) (sim : Simulation) (a : AgentRef) :
    sim.putAll (p :: ps) a = (sim.putAll [p] a).putAll ps a := by
  simp [putAll, World.putAll]

end Simulation

end Swarm
