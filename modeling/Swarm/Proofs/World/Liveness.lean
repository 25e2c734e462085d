import Swarm.Proofs.World.Operations

/-!
# Liveness under the operations of a world

Writes, layouts and births leave every agent that is there as alive as it was. Deaths bring nobody
back.

## Main definitions

* `World.Dead`: an agent that is there and has died
* `World.Spares`: a later world in which nobody has died since

## Main results

* `World.spares_store`, `World.spares_layoutSpring`, `World.spares_createTurtles`: operations in
  which nobody dies
* `World.Dead.remove`: a death brings nobody back
-/

namespace Swarm.World

variable {w w' w'' : World} {a : AgentRef}

/-- The agent is there and has died. -/
def Dead (w : World) (a : AgentRef) : Prop :=
  ∃ r, w.record? a = some r ∧ r.alive = false

theorem Dead.isAlive (h : w.Dead a) : w.isAlive a = false := by
  obtain ⟨r, hr, dead⟩ := h
  rw [World.isAlive, hr]
  exact dead

/-- The agents of the first world are in the second one, each as alive as before. -/
def Spares (w w' : World) : Prop :=
  ∀ a r, w.record? a = some r → ∃ r', w'.record? a = some r' ∧ r'.alive = r.alive

namespace Spares

theorem refl (w : World) : w.Spares w :=
  fun _ r hr => ⟨r, hr, rfl⟩

theorem trans (h : w.Spares w') (h' : w'.Spares w'') : w.Spares w'' := by
  intro a r hr
  obtain ⟨r', hr', halive⟩ := h a r hr
  obtain ⟨r'', hr'', halive'⟩ := h' a r' hr'
  exact ⟨r'', hr'', halive'.trans halive⟩

theorem isAlive (h : w.Spares w') (alive : w.isAlive a = true) : w'.isAlive a = true := by
  obtain ⟨r, hr, halive⟩ := isAlive_iff.1 alive
  obtain ⟨r', hr', hsame⟩ := h a r hr
  exact isAlive_iff.2 ⟨r', hr', hsame.trans halive⟩

theorem dead (h : w.Spares w') (dead : w.Dead a) : w'.Dead a := by
  obtain ⟨r, hr, hdead⟩ := dead
  obtain ⟨r', hr', hsame⟩ := h a r hr
  exact ⟨r', hr', hsame.trans hdead⟩

end Spares

theorem spares_store (w : World) (a : AgentRef) (slot : Nat) (v : Value) :
    w.Spares (w.store a slot v) := by
  intro b r hr
  by_cases hb : b = a
  · refine ⟨r.put slot v, ?_, rfl⟩
    rw [record?_store, if_pos hb, ← hb, hr]
    rfl
  · exact ⟨r, by rw [record?_store, if_neg hb, hr], rfl⟩

theorem spares_layoutSpring {nodes links : AgentSet} {springs : Springs} {s s' : Random.Stream}
    {written : List (AgentRef × Nat)}
    (h : w.layoutSpring nodes links springs s = .ok (written, w') s') : w.Spares w' := by
  obtain ⟨moves, _, rfl, _⟩ := layoutSpring_ok h
  intro a r hr
  obtain ⟨r', hr', _, hsame, _⟩ := record?_foldl_shift moves w a hr
  exact ⟨r', hr', hsame⟩

theorem spares_createTurtles (w : World) (count : Nat) (s : Random.Stream) :
    w.Spares (w.createTurtles count s).2.1 :=
  fun _ r hr => ⟨r, record?_createTurtles_of_some hr count s, rfl⟩

/-- A death brings nobody back. -/
theorem Dead.remove (h : w.Dead a) (victim : AgentRef) : (w.remove victim).Dead a := by
  obtain ⟨r, hr, hdead⟩ := h
  have hone : (w.modifyRecord victim fun r => { r with alive := false }).Dead a := by
    by_cases hv : a = victim
    · subst hv
      exact ⟨{ r with alive := false }, by rw [record?_modifyRecord_self, hr]; rfl, rfl⟩
    · exact ⟨r, (record?_modifyRecord_of_ne w _ hv).trans hr, hdead⟩
  unfold World.remove
  dsimp only
  split
  · -- links that end in a turtle die with it, and none comes back
    obtain ⟨r', hr', hdead'⟩ := hone
    refine ⟨_, by rw [record?_dropLinks, hr']; rfl, ?_⟩
    dsimp only
    split
    · rfl
    · exact hdead'
  · exact hone

end Swarm.World
