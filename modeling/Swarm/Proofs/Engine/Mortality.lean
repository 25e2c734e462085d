import Swarm.Proofs.Engine.Failure
import Swarm.Proofs.Engine.Surfacing
import Swarm.Proofs.Exec.Deaths
import Swarm.Proofs.Simulation.History

/-!
# Dead agents

An agent that has died stays dead, and nothing that it runs begins any more: it takes no turn in a
concurrent job, and nested jobs pass it over. What it was running when it died ends with its own
`die`. But if it died in a nested job that it was driving itself, it goes on after this job, to the
end of its turn or of its block, since nobody looks at its life in between.

## Main definitions

* `Exec.Begins`: the run that a machine inside of enclosures belongs to
* `Engine.Elapsed`: an engine after steps of any jobs

## Main results

* `Engine.Executing.history`: what happens in a step before an instruction is a chain of events
* `Engine.dead_begin_nothing`: what dead agents run
-/

namespace Swarm

open Exec
open Simulation (History Event history_effects)

-- ════════════════════════════════════════════════════════════════════════
-- What happens before an instruction
-- ════════════════════════════════════════════════════════════════════════

namespace Exec

variable {env : Environment} {run : Exec Unit} {i : Instruction} {m m' k start : Machine}
  {s : AgentSet} {stream : StreamRef} {entry fuel left : Nat} {agents : List AgentRef}
  {path : List Enclosure} {stops : Instruction → Bool}

/-- Instructions that succeed are chains of events. -/
theorem Proceeds.history (h : Proceeds env stops fuel m left m') :
    History m.toSimulation m'.toSimulation := by
  induction h with
  | refl => exact .refl
  | step _ hfetch hexecute _ _ ih =>
    have hread := history_effects.of_fetch hfetch
    exact Relation.ReflTransGen.trans
      (Relation.ReflTransGen.trans hread (history_effects.of_execute hexecute)) ih

section Jobs

variable (hrun : Keeps (Simulation.Lifted History) run)
include hrun

theorem Visits.history (h : Visits run entry stream agents m k) :
    History m.toSimulation k.toSimulation := by
  induction h with
  | here => exact .refl
  | skip _ _ ih => exact ih
  | @next m m₁ k a rest _ hagent _ ih =>
    -- entering and leaving a context are no events
    have hfirst : History m.toSimulation (final (runAgent run entry stream a m)).toSimulation := by
      rw [runAgent_eq, within, final_settle]
      exact hrun (enterAgent a entry stream m)
    rw [hagent] at hfirst
    exact Relation.ReflTransGen.trans hfirst ih

theorem Opens.history (h : Opens env run s entry stream m k) :
    History m.toSimulation k.toSimulation := by
  obtain @⟨m₁, _, _, hdraw, hvisits⟩ := h
  have hdrawn : History m.toSimulation m₁.toSimulation := by
    cases hdraw
    exact (Event.draw m.toSimulation _).history
  have hvisited := hvisits.history hrun
  exact hdrawn.trans hvisited

/-- What an instruction does until an agent of its nested job begins is a chain of events. -/
theorem Launches.history (h : Launches env run i m k) :
    History m.toSimulation k.toSimulation := by
  obtain ⟨s, stream, m₁, hdrives, hopens⟩ := h.drives
  have hcopied (m : Machine) : History m.toSimulation (enterCopy m).toSimulation :=
    (Event.draw m.toSimulation _).history
  exact Relation.ReflTransGen.trans (history_effects.toQuiet.drives hcopied hdrives)
    (hopens.history hrun)

end Jobs

theorem Within.history (h : Within env fuel start path left m) :
    History start.toSimulation m.toSimulation := by
  induction h with
  | turn hgoes => exact hgoes.history
  | @nested _ x _ m₀ _ _ _ hfetch hlaunches hgoes ih =>
    have hread : History m₀.toSimulation x.machine.toSimulation := history_effects.of_fetch hfetch
    have hlaunched := hlaunches.history (history_effects.toCompletion env x.fuel)
    exact ((ih.trans hread).trans hlaunched).trans hgoes.history

end Exec

namespace Job

variable {env : Environment} {fuel : Nat} {stream : StreamRef} {cursors : List Cursor}
  {sim sim' : Simulation} {c : Cursor}

theorem TurnOf.history (h : TurnOf env fuel stream cursors sim c sim') : History sim sim' := by
  induction h with
  | here => exact .refl
  | skip _ _ ih => exact ih
  | @next _ d _ sim _ _ _ _ hturn _ ih =>
    have hfirst := turn_effects history_effects env fuel stream d sim
    rw [hturn] at hfirst
    exact Relation.ReflTransGen.trans hfirst ih

/-- Turns are for agents that are alive. -/
theorem TurnOf.isAlive (h : TurnOf env fuel stream cursors sim c sim') :
    sim'.world.isAlive c.agent = true := by
  induction h with
  | here alive => exact alive
  | skip _ _ ih => exact ih
  | next _ _ _ ih => exact ih

end Job

-- ════════════════════════════════════════════════════════════════════════
-- Where runs begin
-- ════════════════════════════════════════════════════════════════════════

namespace Exec

variable {env : Environment} {m k start : Machine} {fuel left budget : Nat}
  {path : List Enclosure} {stops : Instruction → Bool}

/-- The run that a machine inside of enclosures belongs to began at `k`, with some fuel, and ends at
the first instruction that stops it. It is the turn itself, or the run of an agent of the nested job
of the innermost construct. -/
inductive Begins (env : Environment) (fuel : Nat) (start : Machine) :
    List Enclosure → (Instruction → Bool) → Nat → Machine → Prop where
  | turn : Begins env fuel start [] Instruction.switches fuel start
  | nested {outer : List Enclosure} {x : Enclosure} {m k : Machine} :
    Within env fuel start outer (x.fuel + 1) m → fetch env m = .ok x.instruction x.machine →
    Launches env (toCompletion env x.fuel) x.instruction x.machine k →
    Begins env fuel start (x :: outer) (fun _ => false) x.fuel k

theorem Within.begins (h : Within env fuel start path left m) :
    ∃ stops budget k, Begins env fuel start path stops budget k
      ∧ Proceeds env stops budget k left m := by
  cases h with
  | turn hgoes => exact ⟨_, _, _, .turn, hgoes⟩
  | nested houter hfetch hlaunches hgoes =>
    exact ⟨_, _, _, .nested houter hfetch hlaunches, hgoes⟩

/-- Until a run begins, what happens is a chain of events. -/
theorem Begins.history (h : Begins env fuel start path stops budget k) :
    History start.toSimulation k.toSimulation := by
  cases h with
  | turn => exact .refl
  | @nested _ x m _ houter hfetch hlaunches =>
    have hread : History m.toSimulation x.machine.toSimulation := history_effects.of_fetch hfetch
    exact houter.history.trans
      (hread.trans (hlaunches.history (history_effects.toCompletion env x.fuel)))

/-- Runs begin while their agents are alive. -/
theorem Begins.isAlive (h : Begins env fuel start path stops budget k)
    (alive : start.world.isAlive start.context.agent = true) :
    k.world.isAlive k.context.agent = true := by
  cases h with
  | turn => exact alive
  | nested _ _ hlaunches =>
    obtain ⟨_, _, _, living, rfl⟩ := hlaunches.enters
    exact living

end Exec

-- ════════════════════════════════════════════════════════════════════════
-- Steps of engines
-- ════════════════════════════════════════════════════════════════════════

namespace Engine

variable {first e : Engine} {fuel left : Nat} {job : Job} {start m : Machine}
  {path : List Enclosure} {a : AgentRef}

/-- An engine after steps of any jobs. -/
inductive Elapsed (first : Engine) : Engine → Prop where
  | start : Elapsed first first
  | step {e : Engine} (fuel : Nat) (job : Job) : Elapsed first e →
    Elapsed first (e.stepWith fuel job).2.2

theorem world_backstage (e : Engine) : e.backstage.world = e.world := by
  rw [backstage]
  split <;> rfl

theorem world_conclude (e : Engine) (sim : Simulation) : (e.conclude sim).world = sim.world := by
  show (if e.muted then { sim with notices := e.simulation.notices } else sim).world = sim.world
  split <;> rfl

/-- A step brings nobody back. -/
theorem dead_stepWith (fuel : Nat) (job : Job) (dead : e.world.Dead a) :
    (e.stepWith fuel job).2.2.world.Dead a := by
  cases hfinished : job.isFinished with
  | true =>
    rw [stepWith_of_finished hfinished]
    exact dead
  | false =>
    rw [stepWith_of_pending hfinished, world_conclude]
    rw [← world_backstage] at dead
    exact History.dead (Job.step_effects history_effects e.environment fuel job e.backstage) dead

theorem Elapsed.dead (h : Elapsed first e) (dead : first.world.Dead a) : e.world.Dead a := by
  induction h with
  | start => exact dead
  | step fuel job _ ih => exact dead_stepWith fuel job ih

/-- The start of a turn comes after a chain of events, and its agent is alive. -/
theorem Executing.starts (h : Executing e fuel job start path left m) :
    History e.backstage start.toSimulation
      ∧ start.world.isAlive start.context.agent = true := by
  obtain ⟨_, htake, hturn, rfl, _⟩ := h
  have htaken := Job.takeUp_effects history_effects e.environment job e.backstage
  rw [htake] at htaken
  exact ⟨Relation.ReflTransGen.trans htaken hturn.history, hturn.isAlive⟩

/-- What happens in a step before an instruction is a chain of events. -/
theorem Executing.history (h : Executing e fuel job start path left m) :
    History e.backstage m.toSimulation :=
  h.starts.1.trans h.within.history

/-- Dead agents begin nothing. Let `e` be an engine after any steps of any jobs, and let a step of
it come to an instruction. Agents that were dead before any of these steps are dead still, and none
of them is the agent that runs the instruction. The run that the instruction belongs to, a turn or
the run of an agent in a nested job, began while its agent was alive; it has carried out no `die`;
and if its agent is dead now, then it died in a nested job that the run was driving. -/
theorem dead_begin_nothing (elapsed : Elapsed first e)
    (executing : Executing e fuel job start path left m) :
    (∀ a, first.world.Dead a →
        e.world.Dead a ∧ m.world.Dead a ∧ m.context.agent ≠ a)
      ∧ ∃ stops budget k, Begins e.environment fuel start path stops budget k
        ∧ Proceeds e.environment stops budget k left m
        ∧ k.context.agent = m.context.agent
        ∧ k.world.isAlive m.context.agent = true
        ∧ (∀ later m₁ i m₂ m₃, Proceeds e.environment stops budget k (later + 1) m₁ →
          fetch e.environment m₁ = .ok i m₂ →
          execute e.environment (toCompletion e.environment later) i m₂ = .ok () m₃ →
          Proceeds e.environment stops later m₃ left m → i.command ≠ .die)
        ∧ (m.world.isAlive m.context.agent = true
          ∨ Bereaved e.environment stops budget k m.context.agent left m) := by
  obtain ⟨stops, budget, k, hbegins, hgoes⟩ := executing.within.begins
  obtain ⟨hstart, alive⟩ := executing.starts
  have agent : k.context.agent = m.context.agent := hgoes.agent.symm
  have begun : k.world.isAlive m.context.agent = true := by
    rw [← agent]
    exact hbegins.isAlive alive
  refine ⟨fun a dead => ?_, stops, budget, k, hbegins, hgoes, agent, begun, ?_, ?_⟩
  · have before : e.backstage.world.Dead a := by
      rw [world_backstage]
      exact elapsed.dead dead
    refine ⟨elapsed.dead dead, executing.history.dead before, ?_⟩
    -- the agent of the run was alive when it began, and nobody came back until then
    rintro rfl
    have hk := (History.dead (hstart.trans hbegins.history) before).isAlive
    rw [begun] at hk
    cases hk
  · intro later m₁ i m₂ m₃ _ _ hexecute hrest
    exact hrest.survives hexecute
  · exact hgoes.alive_or_bereaved begun

/-- An engine with a dead turtle and a live one, and a procedure that asks the live one to ask
itself to die, and to print then. -/
def graveyard : Engine :=
  .ofProgram ((World.growTurtles 2 (World.build .default) (.ofSeed 0)).1.remove (.turtle 0))
    (.ofSeed 0)
    (ProgramDef.layout ⟨[.ofBody "go"
      [⟨.ask, [.constant (.agent (.turtle 1))],
        [[⟨.ask, [.constant (.agent (.turtle 1))], [[⟨.die, [], [], .zero⟩]], .zero⟩,
          ⟨.print, [.constant (.string "ghost")], [], .zero⟩]], .zero⟩]]⟩)

def burial : Job :=
  .ofAgents (.ofAgent (.turtle 1)) 0 0 Streams.main

/-- The turtle prints after its death. -/
theorem executing_ghost :
    ∃ start x m i m₁ m', Executing graveyard 9 burial start [x] 7 m
      ∧ graveyard.world.Dead (.turtle 0)
      ∧ m.context.agent = .turtle 1 ∧ m.world.Dead m.context.agent
      ∧ fetch graveyard.environment m = .ok i m₁
      ∧ execute graveyard.environment (toCompletion graveyard.environment 6) i m₁ = .ok () m'
      ∧ m'.notices = m.notices.push (.output "ghost") := by
  refine ⟨_, ⟨_, _, 8⟩, _, _, _, _, ⟨rfl, rfl, .here rfl, rfl, .nested (.turn (.refl rfl)) rfl
    (.ask rfl rfl ?_ rfl ⟨by decide, rfl, .here rfl⟩) (.step rfl rfl rfl rfl (.refl rfl))⟩,
    ⟨_, rfl, rfl⟩, rfl, ⟨_, rfl, rfl⟩, rfl, rfl, rfl⟩
  rintro a ⟨⟩
  rfl

/-- The other turtle runs nothing, and this one was asking itself when it died. -/
theorem dead_begin_nothing_ghost :
    ∃ start x m, Elapsed graveyard graveyard ∧ Executing graveyard 9 burial start [x] 7 m
      ∧ m.context.agent = .turtle 1 ∧ m.world.Dead (.turtle 0)
      ∧ ∃ stops budget k, Begins graveyard.environment 9 start [x] stops budget k
        ∧ k.world.isAlive (.turtle 1) = true
        ∧ Bereaved graveyard.environment stops budget k (.turtle 1) 7 m := by
  obtain ⟨start, x, m, _, _, _, hexecuting, hother, hagent, hdead, _⟩ := executing_ghost
  obtain ⟨hgone, stops, budget, k, hbegins, _, _, begun, _, hlife⟩ :=
    dead_begin_nothing .start hexecuting
  have bereaved := hlife.resolve_left (by simp [hdead.isAlive])
  rw [hagent] at begun bereaved
  exact ⟨start, x, m, .start, hexecuting, hagent, (hgone _ hother).2.1, stops, budget, k, hbegins,
    begun, bereaved⟩

/-- Death does not end what the agent is running: an instruction can be carried out by an agent that
is dead, and print. -/
theorem not_ended_by_death :
    ¬ ∀ (e : Engine) (fuel : Nat) (job : Job) (start : Machine) (path : List Enclosure)
      (left : Nat) (m : Machine) (i : Instruction) (m₁ m' : Machine),
      Executing e fuel job start path (left + 1) m → m.world.Dead m.context.agent →
      fetch e.environment m = .ok i m₁ →
      execute e.environment (toCompletion e.environment left) i m₁ = .ok () m' →
      m'.notices = m.notices := by
  intro claim
  obtain ⟨start, x, m, i, m₁, m', hexecuting, _, _, hdead, hfetch, hexecute, hprints⟩ :=
    executing_ghost
  have hsilent := claim graveyard 9 burial start [x] 6 m i m₁ m' hexecuting hdead hfetch hexecute
  rw [hprints] at hsilent
  simp at hsilent

end Engine

end Swarm
