import Swarm.Proofs.Exec.Driving
import Swarm.Proofs.World.Liveness

/-!
# Agents that die while they run

Whether an agent lives is looked at when its turn in a concurrent or a nested job begins. From then
on it may die in two ways: by its own `die`, which ends the run, or in a nested job that one of its
instructions drives, in which the agent itself or others run. In the second way the instruction goes
on after the nested job, and so does the run.

## Main definitions

* `Exec.Bereaved`: a run has come to a machine after its agent died in a nested job of the run

## Main results

* `Exec.launches_of_death`: an instruction that is not `die` kills in the run of an agent of its
  nested job
* `Exec.Proceeds.alive_or_bereaved`: what a run knows about the life of its agent
-/

namespace Swarm.Exec

variable {env : Environment} {run : Exec Unit} {i : Instruction} {m m₁ m' k : Machine}
  {s : AgentSet} {stream : StreamRef} {entry fuel left : Nat} {a : AgentRef}
  {stops : Instruction → Bool}

-- ════════════════════════════════════════════════════════════════════════
-- Deaths in nested jobs
-- ════════════════════════════════════════════════════════════════════════

/-- Nobody has died. -/
def SpareAll (m m' : Machine) : Prop :=
  m.world.Spares m'.world

theorem spareAll_quiet : Quiet SpareAll where
  refl m := .refl m.world
  trans h₁ h₂ := h₁.trans h₂
  move m _ _ _ := .refl m.world
  assign {m} _ _ _ _ := .refl m.world
  push {m} _ _ _ := .refl m.world
  pop {m} _ _ _ _ := .refl m.world
  draw m _ := .refl m.world
  write {m} a slot _ stored _ := World.spares_store m.world a slot stored
  print m _ := .refl m.world
  relax m nodes links springs := by
    rw [SpareAll, relax_eq]
    split
    · next hl => exact World.spares_layoutSpring hl
    · exact .refl m.world
  spawn m count := World.spares_createTurtles m.world count _

/-- An agent that dies in a nested job over a list of agents dies in the run of one of them. -/
theorem visits_of_death {agents : List AgentRef} (alive : m.world.isAlive a = true)
    (dead : (final (runAgents run entry stream agents m)).world.isAlive a = false) :
    ∃ k, Visits run entry stream agents m k ∧ k.world.isAlive a = true
      ∧ (final (run k)).world.isAlive a = false := by
  induction agents generalizing m with
  | nil =>
    rw [show final (runAgents run entry stream [] m) = m from rfl, alive] at dead
    cases dead
  | cons b rest ih =>
    rw [runAgents_cons] at dead
    cases hb : m.world.isAlive b with
    | false =>
      rw [if_neg (by simp [hb])] at dead
      obtain ⟨k, hvisits, hk⟩ := ih alive dead
      exact ⟨k, .skip hb hvisits, hk⟩
    | true =>
      rw [if_pos hb] at dead
      have hworld : (final (runAgent run entry stream b m)).world
          = (final (run (enterAgent b entry stream m))).world := by
        rw [runAgent_eq, within, final_settle]
        rfl
      cases hfirst : (final (runAgent run entry stream b m)).world.isAlive a with
      | false =>
        rw [hworld] at hfirst
        exact ⟨_, .here hb, alive, hfirst⟩
      | true =>
        cases hagent : runAgent run entry stream b m with
        | ok _ m₁ =>
          rw [hagent] at hfirst
          rw [bind_of_ok hagent] at dead
          obtain ⟨k, hvisits, hk⟩ := ih hfirst dead
          exact ⟨k, .next hb hagent hvisits, hk⟩
        | error e m₁ =>
          rw [hagent] at hfirst
          rw [bind_of_error hagent] at dead
          exact absurd (hfirst.symm.trans dead) (by simp)

theorem opens_of_death (alive : m.world.isAlive a = true)
    (dead : (final (runExclusive env run s entry stream m)).world.isAlive a = false) :
    ∃ k, Opens env run s entry stream m k ∧ k.world.isAlive a = true
      ∧ (final (run k)).world.isAlive a = false := by
  rw [runExclusive_eq] at dead
  split at dead
  · exact absurd (alive.symm.trans dead) (by simp)
  · next shallow =>
    cases hdraw : drawFrom stream (Draw.ofStream s.visitOrder) m with
    | error e m₁ => cases hdraw
    | ok order m₁ =>
      rw [bind_of_ok hdraw, within, final_settle] at dead
      have hworld : m₁.world = m.world := by
        cases hdraw
        rfl
      have entered : (enterNested m₁).world.isAlive a = true := by
        rwa [← hworld] at alive
      obtain ⟨k, hvisits, hk⟩ := visits_of_death entered dead
      exact ⟨k, ⟨by omega, hdraw, hvisits⟩, hk⟩

/-- An instruction that is not `die` kills in the run of an agent of its nested job. -/
theorem launches_of_death (survives : i.command ≠ .die) (h : execute env run i m = .ok () m')
    (alive : m.world.isAlive a = true) (dead : m'.world.isAlive a = false) :
    ∃ k, Launches env run i m k ∧ k.world.isAlive a = true
      ∧ (final (run k)).world.isAlive a = false := by
  cases exclusive : i.command.isExclusive with
  | false =>
    have hspares := spareAll_quiet.execute exclusive survives env run m
    rw [h] at hspares
    exact absurd ((World.Spares.isAlive hspares alive).symm.trans dead) (by simp)
  | true =>
    obtain ⟨s, stream, m₁, hdrives, hconcludes⟩ := drives_of_execute exclusive h
    have hspares : SpareAll m m₁ := spareAll_quiet.drives (fun m => .refl m.world) hdrives
    rw [hconcludes.world] at dead
    obtain ⟨k, hopens, hk⟩ := opens_of_death (World.Spares.isAlive hspares alive) dead
    exact ⟨k, hdrives.launches hopens, hk⟩

-- ════════════════════════════════════════════════════════════════════════
-- Runs whose agent dies
-- ════════════════════════════════════════════════════════════════════════

/-- A run that began at `start` has come to `m` after its agent `a` died: in the run of an agent of
the nested job of an instruction, which began while `a` was alive. -/
inductive Bereaved (env : Environment) (stops : Instruction → Bool) (fuel : Nat) (start : Machine)
    (a : AgentRef) (left : Nat) (m : Machine) : Prop where
  | intro {later : Nat} {m₁ m₂ m₃ k : Machine} {i : Instruction} :
    Proceeds env stops fuel start (later + 1) m₁ → m₁.world.isAlive a = true →
    fetch env m₁ = .ok i m₂ → Launches env (toCompletion env later) i m₂ k →
    k.world.isAlive a = true → (final (toCompletion env later k)).world.isAlive a = false →
    execute env (toCompletion env later) i m₂ = .ok () m₃ → stops i = false →
    Proceeds env stops later m₃ left m → Bereaved env stops fuel start a left m

/-- A run keeps its agent. -/
theorem Proceeds.agent (h : Proceeds env stops fuel m left m') :
    m'.context.agent = m.context.agent := by
  induction h with
  | refl => rfl
  | step _ hfetch hexecute _ _ ih =>
    obtain ⟨rfl, _, _⟩ := fetch_eq_ok hfetch
    exact ih.trans (sameSeat_effects.of_execute hexecute).agent

/-- An instruction that a run goes on after is no `die`. -/
theorem Proceeds.survives (h : Proceeds env stops fuel m' left k)
    (hexecute : execute env run i m = .ok () m') : i.command ≠ .die := by
  intro dies
  have hfinished := Tree.finished_of_die (die_of_execute dies hexecute)
  rw [h.starts] at hfinished
  cases hfinished

/-- An agent that was alive when its run began is alive still, or died in a nested job that the run
was driving. -/
theorem Proceeds.alive_or_bereaved (h : Proceeds env stops fuel m left m')
    (alive : m.world.isAlive a = true) :
    m'.world.isAlive a = true ∨ Bereaved env stops fuel m a left m' := by
  induction h with
  | refl => exact .inl alive
  | @step fuel left m m₁ m₂ m' i running hfetch hexecute goes hrest ih =>
    cases hlives : m₂.world.isAlive a with
    | true =>
      refine (ih hlives).imp id fun hlater => ?_
      obtain ⟨hbefore, alive, hfetch', hlaunches, hk, hdead, hexecute', goes', hafter⟩ := hlater
      exact ⟨.step running hfetch hexecute goes hbefore, alive, hfetch', hlaunches, hk, hdead,
        hexecute', goes', hafter⟩
    | false =>
      have before : m₁.world.isAlive a = true := by
        rwa [(fetch_eq_ok hfetch).1]
      -- the run goes on, so the instruction was not the agent's own death
      obtain ⟨k, hlaunches, hk, hdead⟩ :=
        launches_of_death (hrest.survives hexecute) hexecute before hlives
      exact .inr ⟨.refl running, alive, hfetch, hlaunches, hk, hdead, hexecute, goes, hrest⟩

end Swarm.Exec
