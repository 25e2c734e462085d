import Swarm.Engine

/-!
# Failed steps

A step of an engine is a step of its job, taken on the engine's simulation. A step in which an
agent fails drops all work of the job, and a job without work stays as it is whatever is done with
it. The one failure that leaves work behind is that of a job which cannot start, because the
program has no procedure at its place.

## Main definitions

* `Engine.backstage`, `Engine.conclude`: the simulation that a step runs on, and the engine after it
* `Outcome.Failure`: outcomes of failed steps
* `Job.Startable`: jobs that have started or can start
* `Engine.Ends`: the ways in which a step can end
* `Engine.Settled`: jobs without work, which no step changes

## Main results

* `Engine.stepWith_of_pending`: a step of an engine as a step of its job
* `Engine.ends_stepWith`: how a step can end
* `Engine.settled_iff_startable`: a failed step leaves no work exactly of a job that can start
-/

namespace Swarm

theorem Fault.isFatal_iff {f : Fault} : f.isFatal = true ↔ f.kind = .internalConsistency := by
  rw [isFatal]
  cases f.kind <;> simp [FaultKind.isFatal]

-- ════════════════════════════════════════════════════════════════════════
-- Steps of engines as steps of jobs
-- ════════════════════════════════════════════════════════════════════════

namespace Engine

variable {e : Engine} {job : Job} {fuel : Nat}

/-- The simulation that a step runs on. An engine that tells nobody collects the notices of a step
apart. -/
def backstage (e : Engine) : Simulation :=
  if e.muted then { e.simulation with notices := #[] } else e.simulation

/-- The engine after a step that left `sim`. -/
def conclude (e : Engine) (sim : Simulation) : Engine :=
  { e with
    simulation := if e.muted then { sim with notices := e.simulation.notices } else sim }

theorem conclude_backstage (e : Engine) : e.conclude e.backstage = e := by
  obtain ⟨sim, program, limits, muted⟩ := e
  cases muted <;> rfl

theorem stepWith_of_finished (h : job.isFinished = true) :
    e.stepWith fuel job = (.finished, job, e) := by
  rw [stepWith, if_pos h]

theorem stepWith_of_pending (h : job.isFinished = false) :
    e.stepWith fuel job =
      (outcome (job.step e.environment fuel e.backstage).1,
        (job.step e.environment fuel e.backstage).2.1,
        e.conclude (job.step e.environment fuel e.backstage).2.2) := by
  obtain ⟨sim, program, limits, muted⟩ := e
  rw [stepWith, if_neg (by simp [h])]
  cases muted <;> rfl

end Engine

-- ════════════════════════════════════════════════════════════════════════
-- Steps of jobs
-- ════════════════════════════════════════════════════════════════════════

/-- The step ended in a fault or ran out of fuel. -/
def Outcome.Failure : Outcome → Prop
  | .continuing => False
  | .finished => False
  | _ => True

instance (o : Outcome) : Decidable o.Failure :=
  match o with
  | .continuing => .isFalse id
  | .finished => .isFalse id
  | .failed _ => .isTrue trivial
  | .defect _ => .isTrue trivial
  | .exhausted => .isTrue trivial

namespace Job

variable {env : Environment} {fuel : Nat} {job : Job} {sim : Simulation}

/-- The job has started, or the program has the procedure that it is to start with. -/
def Startable (program : Program) (job : Job) : Prop :=
  job.cursors.isSome = true ∨ job.procedure < program.procedures.size

instance (program : Program) (job : Job) : Decidable (job.Startable program) :=
  inferInstanceAs (Decidable (_ ∨ _))

theorem isFinished_iff : job.isFinished = true ↔ job.cursors = some [] := by
  rw [isFinished]
  cases job.cursors with
  | none => simp
  | some cursors => simp

theorem pending_of_finished (h : job.isFinished = true) : job.pending = 0 := by
  rw [pending, isFinished_iff.1 h]
  rfl

/-- A job that cannot start is left as it is; any other gives its cursors. -/
theorem takeUp_cases (env : Environment) (job : Job) (sim : Simulation) :
    (¬ job.Startable env.program
        ∧ job.takeUp env sim = (.error (.ofDefect (.noProcedure job.procedure)), sim))
      ∨ (job.Startable env.program ∧ ∃ cursors sim', job.takeUp env sim = (.ok cursors, sim')) := by
  cases hc : job.cursors with
  | some cursors =>
    refine .inr ⟨.inl (by simp [hc]), cursors, sim, ?_⟩
    rw [takeUp, hc]
  | none =>
    by_cases hp : job.procedure < env.program.procedures.size
    · refine .inr ⟨.inr hp, ?_⟩
      have hq : env.program.procedure job.procedure
          = .ok env.program.procedures[job.procedure] := by
        rw [Program.procedure, Array.getElem?_eq_getElem hp]
      rw [takeUp, hc]
      simp only [start, hq]
      exact ⟨_, _, rfl⟩
    · refine .inl ⟨fun h => ?_, ?_⟩
      · rcases h with h | h
        · simp [hc] at h
        · exact hp h
      · have hq : env.program.procedure job.procedure
            = .error (.ofDefect (.noProcedure job.procedure)) := by
          rw [Program.procedure, Array.getElem?_eq_none (by omega)]
        rw [takeUp, hc]
        simp only [start, hq]

/-- A job that takes up work has it from its last step, or starts each of its agents with one frame
at the entry. -/
theorem takeUp_eq_ok {cursors : List Cursor} {sim' : Simulation}
    (h : job.takeUp env sim = (.ok cursors, sim')) :
    job.cursors = some cursors
      ∨ job.cursors = none ∧ ∃ q, env.program.procedure job.procedure = .ok q
        ∧ cursors = (job.agents.visitOrder (sim.streams.get job.stream)).1.map fun a =>
          ⟨a, job.entry, .ofFrame env.limits.callDepth (.fresh job.procedure q.locals 0), 1,
            none⟩ := by
  unfold takeUp start at h
  split at h
  · next hcursors =>
    cases h
    exact .inl hcursors
  · next hcursors =>
    split at h
    · cases h
    · next q hq =>
      cases h
      exact .inr ⟨hcursors, q, hq, rfl⟩

theorem startable_of_takeUp {cursors : List Cursor} {sim' : Simulation}
    (h : job.takeUp env sim = (.ok cursors, sim')) : job.Startable env.program := by
  rcases takeUp_cases env job sim with ⟨_, ht⟩ | ⟨hs, _⟩
  · rw [ht] at h
    cases h
  · exact hs

end Job

namespace Engine

variable {e : Engine} {fuel : Nat} {job : Job}

/-- A fault ends a step as a defect if it is fatal, and as a failure otherwise. -/
theorem outcome_eq_failed_iff {answer : Except Stop Bool} {f : Fault} :
    outcome answer = .failed f ↔ answer = .error (.fault f) ∧ f.isFatal = false := by
  rcases answer with (g | _) | (_ | _)
  · cases hfatal : g.isFatal
    · simp only [outcome, hfatal, Bool.false_eq_true, if_false]
      exact ⟨by rintro ⟨⟩; exact ⟨rfl, hfatal⟩, by rintro ⟨⟨⟩, _⟩; rfl⟩
    · simp only [outcome, hfatal, if_true]
      exact ⟨nofun, by rintro ⟨⟨⟩, recoverable⟩; simp [hfatal] at recoverable⟩
  all_goals simp [outcome]

theorem outcome_eq_defect_iff {answer : Except Stop Bool} {f : Fault} :
    outcome answer = .defect f ↔ answer = .error (.fault f) ∧ f.isFatal = true := by
  rcases answer with (g | _) | (_ | _)
  · cases hfatal : g.isFatal
    · simp only [outcome, hfatal, Bool.false_eq_true, if_false]
      exact ⟨nofun, by rintro ⟨⟨⟩, fatal⟩; simp [hfatal] at fatal⟩
    · simp only [outcome, hfatal, if_true]
      exact ⟨by rintro ⟨⟩; exact ⟨rfl, hfatal⟩, by rintro ⟨⟨⟩, _⟩; rfl⟩
  all_goals simp [outcome]

/-- How a step of an engine can end. -/
inductive Ends (e : Engine) (fuel : Nat) (job : Job) : Outcome × Job × Engine → Prop where
  /-- The job is finished, and nothing happens. -/
  | idle : job.isFinished = true → Ends e fuel job (.finished, job, e)
  /-- The job cannot start, and nothing happens. -/
  | unstarted : ¬ job.Startable e.program →
    Ends e fuel job (.defect (.ofDefect (.noProcedure job.procedure)), job, e)
  /-- A turn fails, and all work is dropped. -/
  | failed {cursors : List Cursor} {sim sim' : Simulation} {stop : Stop} :
    job.isFinished = false → job.takeUp e.environment e.backstage = (.ok cursors, sim) →
    Job.turns e.environment fuel job.stream cursors sim = (.error stop, sim') →
    Ends e fuel job (outcome (.error stop),
      { job with steps := job.steps + 1, cursors := some [] }, e.conclude sim')
  /-- All turns are taken, and the cursors of the agents with work left remain. -/
  | taken {cursors pending : List Cursor} {sim sim' : Simulation} :
    job.isFinished = false → job.takeUp e.environment e.backstage = (.ok cursors, sim) →
    Job.turns e.environment fuel job.stream cursors sim = (.ok pending, sim') →
    Ends e fuel job (outcome (.ok pending.isEmpty),
      { job with steps := job.steps + 1, cursors := some pending }, e.conclude sim')

theorem ends_stepWith (e : Engine) (fuel : Nat) (job : Job) :
    Ends e fuel job (e.stepWith fuel job) := by
  cases hf : job.isFinished with
  | true =>
    rw [stepWith_of_finished hf]
    exact .idle hf
  | false =>
    rw [stepWith_of_pending hf, Job.step]
    rcases Job.takeUp_cases e.environment job e.backstage with ⟨hs, ht⟩ | ⟨_, cursors, sim, ht⟩
    · rw [ht]
      dsimp only
      rw [conclude_backstage]
      exact .unstarted hs
    · rw [ht]
      dsimp only
      rcases hturns : Job.turns e.environment fuel job.stream cursors sim with
        ⟨stop | pending, sim'⟩
      · exact .failed hf ht hturns
      · exact .taken hf ht hturns

/-- A finished job stays as it is on every engine, and so does the engine. -/
def Settled (job : Job) : Prop :=
  job.isFinished = true ∧ job.pending = 0
    ∧ ∀ (fuel : Nat) (e : Engine), e.stepWith fuel job = (.finished, job, e)

theorem settled_of_finished (h : job.isFinished = true) : Settled job :=
  ⟨h, Job.pending_of_finished h, fun _ _ => stepWith_of_finished h⟩

theorem not_settled_of_not_startable {program : Program} (h : ¬ job.Startable program) :
    ¬ Settled job := by
  intro hs
  have hcursors := Job.isFinished_iff.1 hs.1
  exact h (.inl (by simp [hcursors]))

/-- A step of a job that cannot start fails and changes nothing at all. -/
theorem stepWith_of_not_startable (h : ¬ job.Startable e.program) (fuel : Nat) :
    e.stepWith fuel job = (.defect (.ofDefect (.noProcedure job.procedure)), job, e) := by
  have hends := ends_stepWith e fuel job
  generalize e.stepWith fuel job = after at hends ⊢
  cases hends with
  | idle hf => exact absurd (settled_of_finished hf) (not_settled_of_not_startable h)
  | unstarted _ => rfl
  | failed _ ht _ => exact absurd (Job.startable_of_takeUp ht) h
  | taken _ ht _ => exact absurd (Job.startable_of_takeUp ht) h

/-- A step of a job that has started or can start leaves a job that has; and unless it answers that
work is left, it leaves a settled one. -/
theorem settled_stepWith (h : job.Startable e.program) :
    (e.stepWith fuel job).2.1.Startable (e.stepWith fuel job).2.2.program
      ∧ ((e.stepWith fuel job).1 ≠ .continuing → Settled (e.stepWith fuel job).2.1) := by
  have hends := ends_stepWith e fuel job
  generalize e.stepWith fuel job = after at hends ⊢
  cases hends with
  | idle hf => exact ⟨h, fun _ => settled_of_finished hf⟩
  | unstarted hs => exact absurd h hs
  | failed _ _ _ => exact ⟨.inl rfl, fun _ => settled_of_finished rfl⟩
  | @taken _ pending _ _ _ _ _ =>
    refine ⟨.inl rfl, fun hended => ?_⟩
    cases pending with
    | nil => exact settled_of_finished rfl
    | cons c rest => exact absurd rfl hended

/-- Steps up to a limit never end with work to do: either the job is settled, or it could not
start. -/
theorem settled_runSteps (fuel : Nat) :
    ∀ (steps : Nat) (e : Engine) (job : Job),
      (runSteps fuel steps e job).1 ≠ .continuing
        ∧ (job.Startable e.program ∨ steps = 0 → Settled (runSteps fuel steps e job).2.1) := by
  intro steps
  induction steps with
  | zero => exact fun e job => ⟨by simp [runSteps], fun _ => settled_of_finished rfl⟩
  | succ steps ih =>
    intro e job
    have hstep := @settled_stepWith e fuel job
    rw [runSteps]
    rcases hr : e.stepWith fuel job with ⟨o, job', e'⟩
    rw [hr] at hstep
    have hended (h : job.Startable e.program ∨ steps + 1 = 0) := hstep (h.resolve_right (by omega))
    cases o with
    | continuing =>
      obtain ⟨hne, hrest⟩ := ih e' job'
      exact ⟨hne, fun h => hrest (.inl (hended h).1)⟩
    | finished => exact ⟨by simp, fun h => (hended h).2 (by simp)⟩
    | failed f => exact ⟨by simp, fun h => (hended h).2 (by simp)⟩
    | defect f => exact ⟨by simp, fun h => (hended h).2 (by simp)⟩
    | exhausted => exact ⟨by simp, fun h => (hended h).2 (by simp)⟩

/-- A failed step settles its job if and only if the job had started or could start: then no agent
has work left, and every later step, by whatever engine, answers that the job is finished and
changes nothing. All steps of a job up to the limit never end with the answer that work is left;
they settle the job under the same condition, or if no step is allowed. -/
theorem settled_iff_startable (e : Engine) (fuel : Nat) (job : Job) :
    ((e.stepWith fuel job).1.Failure →
        (Settled (e.stepWith fuel job).2.1 ↔ job.Startable e.program))
      ∧ (runSteps fuel e.limits.steps e job).1 ≠ .continuing
      ∧ (Settled (runSteps fuel e.limits.steps e job).2.1
        ↔ job.Startable e.program ∨ e.limits.steps = 0) := by
  obtain ⟨hended, hsettled⟩ := settled_runSteps fuel e.limits.steps e job
  refine ⟨fun failure => ?_, hended, fun h => ?_, hsettled⟩
  · have hended : (e.stepWith fuel job).1 ≠ .continuing := by
      intro hc
      rw [hc] at failure
      exact failure
    refine ⟨fun h => ?_, fun hs => (settled_stepWith hs).2 hended⟩
    by_cases hs : job.Startable e.program
    · exact hs
    · rw [stepWith_of_not_startable hs] at h
      exact absurd h (not_settled_of_not_startable hs)
  · by_cases hs : job.Startable e.program
    · exact .inl hs
    · cases hsteps : e.limits.steps with
      | zero => exact .inr rfl
      | succ steps =>
        rw [hsteps, runSteps, stepWith_of_not_startable hs] at h
        exact absurd h (not_settled_of_not_startable hs)

/-- An engine on a bare world whose only procedure creates a turtle. -/
def nursery : Engine :=
  .ofProgram (World.build .default) (.ofSeed 0)
    (ProgramDef.layout ⟨[.ofBody "go" [⟨.createTurtles, [.constant (.number 1)], [[]], .zero⟩]]⟩)

/-- A patch cannot create turtles: its step fails and settles the job. -/
theorem settled_iff_startable_patch :
    let job := Job.ofAgents (.ofAgent (.patch 0)) 0 0 Streams.main
    (nursery.stepWith 2 job).1.Failure ∧ Settled (nursery.stepWith 2 job).2.1 := by
  intro job
  have failure : (nursery.stepWith 2 job).1.Failure := by decide +kernel
  have startable : job.Startable nursery.program := by decide
  exact ⟨failure, ((settled_iff_startable nursery 2 job).1 failure).2 startable⟩

/-- Not every failed step finishes its job: one for a procedure that the program does not have
leaves the job as it was, with an agent that has work left. -/
theorem not_finished_of_missing_procedure :
    ¬ ∀ (e : Engine) (fuel : Nat) (job : Job), (e.stepWith fuel job).1.Failure →
      (e.stepWith fuel job).2.1.isFinished = true ∧ (e.stepWith fuel job).2.1.pending = 0 := by
  intro claim
  have hfinished := claim nursery 1 (.ofAgents (.ofAgent .observer) 1 0 Streams.main) (by decide)
  exact absurd hfinished.2 (by decide)

end Engine

end Swarm
