import Swarm.Proofs.Engine.Failure
import Swarm.Proofs.Exec.Termination
import Swarm.Proofs.Job.Effects

/-!
# Programs without loops stop

A step lets finitely many agents take one turn each. In a program without loops every turn needs no
more fuel than its cursor has left to do, and so neither does the step. How much that is depends on
the program, the bound on calls and the cursors alone: no world, no stream and no set of agents can
keep a step from coming to its end, and neither can procedures that call each other.

## Main definitions

* `Job.burden`: what bounds the turns of a job's next step

## Main results

* `Job.not_exhausted_turns`: the turns of a step
* `Engine.loopFree_returns`: runs, turns and steps of programs without loops
-/

namespace Swarm

open Exec

namespace Job

variable {env : Environment} {fuel : Nat}

/-- What an agent that starts a job has to do. -/
def entryBurden (program : Program) (callDepth : Nat) (job : Job) : Nat :=
  Swarm.burden program callDepth [.fresh job.procedure 0 0] job.entry

/-- More than any agent has to do in the next step of a job. -/
def burden (program : Program) (callDepth : Nat) (job : Job) : Nat :=
  match job.cursors with
  | some cursors => total (Cursor.burden program) cursors
  | none => job.entryBurden program callDepth + 1

/-- The agents that a job lets take turns. -/
theorem burden_lt_of_takeUp {job : Job} {sim sim' : Simulation} {cursors : List Cursor}
    (ht : job.takeUp env sim = (.ok cursors, sim')) :
    ∀ c ∈ cursors, c.burden env.program < job.burden env.program env.limits.callDepth := by
  intro c hc
  obtain hheld | ⟨hfresh, q, _, rfl⟩ := takeUp_eq_ok ht
  · rw [burden, hheld]
    exact lt_total _ hc
  · obtain ⟨a, _, rfl⟩ := List.mem_map.1 hc
    rw [burden, hfresh]
    -- what is left to do does not depend on the locals
    exact Nat.lt_succ_self (job.entryBurden env.program env.limits.callDepth)

theorem not_exhausted_turn (forward : env.program.Forward) (stream : StreamRef) {c : Cursor}
    (enough : c.burden env.program < fuel) (sim : Simulation) :
    (turn env fuel stream c sim).1 ≠ .error .exhausted := by
  have hrun := not_exhausted_untilSwitch forward fuel (seat stream c sim) enough
  intro hout
  cases hr : untilSwitch env fuel (seat stream c sim) with
  | ok _ m =>
    rw [turn_of_ok hr] at hout
    cases hout
  | error e m =>
    rw [turn_of_error hr] at hout
    cases hout
    exact hrun (exhausted_iff.2 ⟨m, hr⟩)

theorem not_exhausted_turns (forward : env.program.Forward) (stream : StreamRef)
    (cursors : List Cursor) (enough : ∀ c ∈ cursors, c.burden env.program < fuel)
    (sim : Simulation) : (turns env fuel stream cursors sim).1 ≠ .error .exhausted := by
  have hturn (c : Cursor) (hc : c ∈ cursors) (sim : Simulation) :
      Answers (fun _ => True) (· ≠ .exhausted) (fun _ => True) (turn env fuel stream c sim) := by
    refine ⟨fun _ _ _ => trivial, fun e sim' ht he => ?_, trivial⟩
    exact not_exhausted_turn forward stream (enough c hc) sim (he ▸ congrArg Prod.fst ht)
  intro hout
  exact (answers_turns (Q := fun _ => True) cursors (fun c hc sim _ => hturn c hc sim)
    trivial).reason .exhausted (turns env fuel stream cursors sim).2 (Prod.ext hout rfl) rfl

theorem not_exhausted_step (forward : env.program.Forward) {job : Job}
    (enough : job.burden env.program env.limits.callDepth ≤ fuel) (sim : Simulation) :
    (job.step env fuel sim).1 ≠ .error .exhausted := by
  rw [step]
  rcases ht : job.takeUp env sim with ⟨f | cursors, sim'⟩
  · rintro ⟨⟩
  · have hturns := not_exhausted_turns forward job.stream cursors
      (fun c hc => Nat.lt_of_lt_of_le (burden_lt_of_takeUp ht c hc) enough) sim'
    rcases hts : turns env fuel job.stream cursors sim' with ⟨stop | pending, sim''⟩ <;>
      rw [hts] at hturns <;> simp only [hts]
    · rintro ⟨⟩
      exact hturns rfl
    · rintro ⟨⟩

end Job

namespace Engine

theorem outcome_ne_exhausted {answer : Except Stop Bool} (h : answer ≠ .error .exhausted) :
    outcome answer ≠ .exhausted := by
  rcases answer with (f | _) | (_ | _)
  · rw [outcome]
    split <;> rintro ⟨⟩
  · exact absurd rfl h
  · rintro ⟨⟩
  · rintro ⟨⟩

theorem not_exhausted_stepWith {e : Engine} {job : Job} {fuel : Nat} (forward : e.program.Forward)
    (enough : job.burden e.program e.limits.callDepth ≤ fuel) :
    (e.stepWith fuel job).1 ≠ .exhausted := by
  cases hf : job.isFinished with
  | true =>
    rw [stepWith_of_finished hf]
    rintro ⟨⟩
  | false =>
    rw [stepWith_of_pending hf]
    have hforward : e.environment.program.Forward := forward
    exact outcome_ne_exhausted (Job.not_exhausted_step hforward enough _)

/-- Let a program without loops be assembled; its procedures may call themselves and each other. For
every pending work there is an amount of fuel with which its agent comes to the end of its block and
to the end of its turn, or fails, from every machine and under every limits. For every job there is an
amount of fuel with which a step of it comes to its end on every engine that runs the program with
the same limits, whatever the world, the streams and the agents. -/
theorem loopFree_returns {d : ProgramDef} {w : World} {forgiving : Bool} {program : Program}
    (assembled : d.assemble w forgiving = .ok program) (loopFree : d.LoopFree) :
    (∀ c : Cursor, ∃ enough, ∀ (limits : Limits) (m : Machine),
      m.context.toCursor = c → ∀ fuel, enough ≤ fuel →
        ¬ Exhausted (toCompletion ⟨program, limits⟩ fuel m)
          ∧ ¬ Exhausted (untilSwitch ⟨program, limits⟩ fuel m))
    ∧ ∀ (limits : Limits) (job : Job), ∃ enough, ∀ e : Engine, e.program = program →
      e.limits = limits → ∀ fuel, enough ≤ fuel → (e.stepWith fuel job).1 ≠ .exhausted := by
  have forward := ProgramDef.forward_of_assemble assembled loopFree
  constructor
  · intro c
    refine ⟨c.burden program + 1, fun limits m hm fuel enough => ?_⟩
    have hless : m.context.burden program < fuel := by
      rw [hm]
      exact enough
    exact ⟨not_exhausted_toCompletion forward fuel m hless,
      not_exhausted_untilSwitch forward fuel m hless⟩
  · intro limits job
    refine ⟨job.burden program limits.callDepth, fun e hprogram hlimits fuel enough => ?_⟩
    subst hprogram hlimits
    exact not_exhausted_stepWith forward enough

/-- Two procedures that call each other, one of them in a nested job. -/
def pursuit : ProgramDef where
  procedures :=
    [.ofBody "chase" [⟨.call "flee" 0, [], [], .zero⟩],
      .ofBody "flee"
        [⟨.withLocalRandomness, [], [[⟨.call "chase" 0, [], [], .zero⟩]], .zero⟩]]

/-- Nothing but the limits ends the calls of the two, and yet every step comes to its end. -/
theorem loopFree_returns_pursuit :
    pursuit.assemble (World.build .default) false = .ok pursuit.layout ∧ pursuit.LoopFree
      ∧ ∃ enough, ∀ e : Engine, e.program = pursuit.layout → e.limits = .default →
        ∀ fuel, enough ≤ fuel →
          (e.stepWith fuel (.ofAgents (.ofAgent .observer) 0 0 Streams.main)).1 ≠ .exhausted := by
  have assembled : pursuit.assemble (World.build .default) false = .ok pursuit.layout := rfl
  have loopFree : pursuit.LoopFree := by
    unfold ProgramDef.LoopFree
    decide
  exact ⟨assembled, loopFree, (loopFree_returns assembled loopFree).2 .default
    (.ofAgents (.ofAgent .observer) 0 0 Streams.main)⟩

end Engine

end Swarm
