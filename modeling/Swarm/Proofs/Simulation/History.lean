import Mathlib.Logic.Relation
import Swarm.Proofs.Job.Effects
import Swarm.Proofs.World.Liveness

/-!
# Histories of a simulation

What happens to a simulation while agents run, as a chain of events. An event draws from streams,
writes a variable and tells its new value, prints a line, lays out springs and tells where the
nodes are now, gives birth to turtles, or lets an agent die. Every step of a job is such a chain,
however it ends: nothing is written between two events, and no event is left halfway.

## Main definitions

* `Simulation.Event`: one event
* `Simulation.History`: a chain of events

## Main results

* `Simulation.history_effects`: every effect of an instruction is a chain of events
* `Simulation.History.reachable`: events keep worlds reachable
* `Simulation.History.dead`: events bring nobody back
-/

namespace Swarm

namespace Simulation

/-- One event. -/
inductive Event : Simulation → Simulation → Prop where
  /-- Streams move. -/
  | draw (sim : Simulation) (streams : Streams) : Event sim { sim with streams := streams }
  /-- The halt flag is read. -/
  | read (sim : Simulation) : Event sim { sim with halt := sim.halt.later }
  /-- A variable is written, and its new value is told. -/
  | write {sim : Simulation} {a : AgentRef} {slot : Nat} {v stored : Value} :
    sim.world.accept a slot v = .ok stored →
    Event sim { sim with
      world := sim.world.store a slot stored
      notices := sim.notices.push (.changed a slot stored) }
  /-- A line is printed. -/
  | print (sim : Simulation) (text : String) :
    Event sim { sim with notices := sim.notices.push (.output text) }
  /-- Springs are laid out, and the slots that were written are told. -/
  | layout {sim : Simulation} {nodes links : AgentSet} {springs : Springs} {r : StreamRef}
    {written : List (AgentRef × Nat)} {w : World} {s : Random.Stream} :
    sim.world.layoutSpring nodes links springs (sim.streams.get r) = .ok (written, w) s →
    Event sim { sim with world := w, notices := sim.notices ++ w.reports written }
  /-- Turtles are born, with colors and headings from a stream. -/
  | birth (sim : Simulation) (r : StreamRef) (count : Nat) :
    Event sim { sim with world := (sim.world.createTurtles count (sim.streams.get r)).2.1 }
  /-- An agent dies. -/
  | death {sim : Simulation} {a : AgentRef} :
    sim.world.mortal a = .ok () → Event sim { sim with world := sim.world.remove a }

/-- A chain of events. -/
abbrev History : Simulation → Simulation → Prop :=
  Relation.ReflTransGen Event

theorem Event.history {sim sim' : Simulation} (h : Event sim sim') : History sim sim' :=
  .single h

/-- Events bring nobody back. -/
theorem Event.dead {sim sim' : Simulation} {a : AgentRef} (h : Event sim sim')
    (dead : sim.world.Dead a) : sim'.world.Dead a := by
  cases h with
  | draw streams => exact dead
  | read => exact dead
  | write ha => exact (World.spares_store _ _ _ _).dead dead
  | print text => exact dead
  | layout hl => exact (World.spares_layoutSpring hl).dead dead
  | birth r count => exact (World.spares_createTurtles _ count _).dead dead
  | death hm => exact dead.remove _

theorem History.dead {sim sim' : Simulation} {a : AgentRef} (h : History sim sim')
    (dead : sim.world.Dead a) : sim'.world.Dead a := by
  induction h with
  | refl => exact dead
  | tail _ hlast ih => exact hlast.dead ih

open Exec (Effects)

/-- A layout is an event if it succeeds, and moves a stream otherwise. -/
theorem history_relax (nodes links : AgentSet) (springs : Springs) (m : Machine) :
    History m.toSimulation (Exec.final (Exec.relax nodes links springs m)).toSimulation := by
  rw [Exec.relax_eq]
  cases hl : m.world.layoutSpring nodes links springs (m.streams.get m.context.stream) with
  | error f s => exact (Event.draw m.toSimulation (m.streams.set m.context.stream s)).history
  | ok result s =>
    exact (Event.layout hl).history.tail (.draw _ (m.streams.set m.context.stream s))

/-- Every effect of an instruction is a chain of events. -/
theorem history_effects : Effects (Lifted History) where
  refl _ := .refl
  trans h₁ h₂ := h₁.trans h₂
  registers _ _ _ _ _ := .refl
  read m := (Event.read m.toSimulation).history
  assign _ := .refl
  push _ := .refl
  pop _ _ := .refl
  draw m s := (Event.draw m.toSimulation (m.streams.set m.context.stream s)).history
  write ha := (Event.write ha).history
  print m text := (Event.print m.toSimulation text).history
  relax m nodes links springs := history_relax nodes links springs m
  remove hm := (Event.death hm).history
  spawn m count :=
    (Event.birth m.toSimulation m.context.stream count).history.tail (.draw _ _)
  agent _ h := h
  nested h := h
  -- the copy of the main stream comes and goes; both are moves of streams
  copy {m m'} h :=
    ((Event.draw m.toSimulation (m.streams.addCopy Streams.main).2).history.trans h).tail
      (.draw m'.toSimulation (m'.streams.truncate m.streams.store.size))

end Simulation

end Swarm
