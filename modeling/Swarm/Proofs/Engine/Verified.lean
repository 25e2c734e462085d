import Swarm.Proofs.Engine.Surfacing
import Swarm.Proofs.Exec.Bounds

/-!
# Jobs of verified programs

Verification is all that a program needs for its agents to find their way. The program may be any
sequence of instructions, with jumps into the middle of other constructs and arguments that no
source could have; if it passes verification and a job starts at a place of it, then no step of the
job ever loses its place, however deep in nested jobs.

## Main definitions

* `Job.Inside`: a job whose agents are inside the code
* `Engine.Stepped`: a job after steps on any engines

## Main results

* `Job.contained_turns`: across the turns of a step
* `Engine.inside_stepWith`: across a step
* `Engine.never_astray`: steps of verified programs lose no place
-/

namespace Swarm

open Exec

/-- A place that the code does not have is reported as such. -/
theorem Program.isAstray_of_instruction {program : Program} {index ip : Nat} {f : Fault}
    (h : program.instruction index ip = .error f) : f.isAstray = true := by
  obtain rfl | ⟨name, rfl⟩ := instruction_eq_error h <;> rfl

namespace Job

variable {env : Environment}

/-- The job starts at a place of the code, and its agents with work left are inside the code. -/
structure Inside (program : Program) (job : Job) : Prop where
  start : program.Has job.procedure job.entry
  cursors : ∀ cursors, job.cursors = some cursors → ∀ c ∈ cursors, c.Inside program

/-- The turns gave a value with a property, or failed but did not lose a place. -/
def Contained {α : Type} (A : α → Prop) : Except Stop α → Prop
  | .ok a => A a
  | .error (.fault f) => f.isAstray = false
  | .error .exhausted => True

theorem answers_iff_contained {α : Type} {A : α → Prop} {r : Except Stop α × Simulation} :
    Answers A (fun e => ∀ f, e = .fault f → f.isAstray = false) (fun _ => True) r
      ↔ Contained A r.1 := by
  rcases r with ⟨(f | _) | a, sim⟩
  · exact ⟨fun h => h.reason _ _ rfl f rfl,
      fun h => ⟨nofun, by rintro _ _ ⟨⟩ _ ⟨⟩; exact h, trivial⟩⟩
  · exact ⟨fun _ => trivial, fun _ => ⟨nofun, by rintro _ _ ⟨⟩ _ ⟨⟩, trivial⟩⟩
  · exact ⟨fun h => h.value _ _ rfl, fun h => ⟨by rintro _ _ ⟨⟩; exact h, nofun, trivial⟩⟩

theorem contained_turn (verified : env.program.verify = .ok ()) (fuel : Nat) (stream : StreamRef)
    {c : Cursor} (hc : c.Inside env.program) (sim : Simulation) :
    Contained (fun after : Context => after.toCursor.Inside env.program)
      (turn env fuel stream c sim).1 := by
  have hrun := contained_untilSwitch verified fuel (m := seat stream c sim) hc
  rcases hr : untilSwitch env fuel (seat stream c sim) with ⟨_, m⟩ | ⟨⟨f⟩ | _, m⟩ <;>
    rw [hr] at hrun
  · rw [turn_of_ok hr]
    exact hrun
  · rw [turn_of_error hr]
    exact hrun
  · rw [turn_of_error hr]
    trivial

theorem contained_turns (verified : env.program.verify = .ok ()) (fuel : Nat) (stream : StreamRef)
    (cursors : List Cursor) (hc : ∀ c ∈ cursors, c.Inside env.program) (sim : Simulation) :
    Contained (fun pending => ∀ c ∈ pending, c.Inside env.program)
      (turns env fuel stream cursors sim).1 :=
  answers_iff_contained.1 (answers_turns cursors (fun c hmem sim _ =>
    answers_iff_contained.2 (contained_turn verified fuel stream (hc c hmem) sim)) trivial)

/-- The agents that a job lets start are inside the code. -/
theorem Inside.takeUp {job : Job} (h : job.Inside env.program) {sim sim' : Simulation}
    {cursors : List Cursor} (ht : job.takeUp env sim = (.ok cursors, sim')) :
    ∀ c ∈ cursors, c.Inside env.program := by
  obtain hheld | ⟨_, q, _, rfl⟩ := takeUp_eq_ok ht
  · exact h.cursors _ hheld
  · intro c hc
    obtain ⟨a, _, rfl⟩ := List.mem_map.1 hc
    exact ⟨⟨trivial, Nat.one_pos, Nat.le_refl _⟩, h.start⟩

theorem Inside.startable {program : Program} {job : Job} (h : job.Inside program) :
    job.Startable program := by
  obtain ⟨q, hq, _⟩ := h.start
  exact .inr (Array.getElem?_eq_some_iff.1 hq).1

end Job

namespace Engine

variable {program : Program} {e : Engine} {job first : Job} {fuel left : Nat}

/-- A job after any number of steps. Each step may be taken by another engine that runs the program:
the world, the streams, the limits and the observers may be changed between steps. -/
inductive Stepped (program : Program) (first : Job) : Job → Prop where
  | start : Stepped program first first
  | step {e : Engine} {job : Job} (fuel : Nat) : Stepped program first job → e.program = program →
    Stepped program first (e.stepWith fuel job).2.1

theorem program_stepWith (e : Engine) (fuel : Nat) (job : Job) :
    (e.stepWith fuel job).2.2.program = e.program := by
  cases hf : job.isFinished with
  | true => rw [stepWith_of_finished hf]
  | false =>
    rw [stepWith_of_pending hf]
    rfl

/-- A step keeps the job inside the code, and does not fail by losing a place. -/
theorem inside_stepWith (verified : e.program.verify = .ok ()) (h : job.Inside e.program)
    (fuel : Nat) :
    (e.stepWith fuel job).2.1.Inside e.program
      ∧ ∀ f, (e.stepWith fuel job).1 = .failed f ∨ (e.stepWith fuel job).1 = .defect f →
        f.isAstray = false := by
  have hends := ends_stepWith e fuel job
  generalize e.stepWith fuel job = after at hends ⊢
  cases hends with
  | idle _ => exact ⟨h, by simp⟩
  | unstarted hs => exact absurd h.startable hs
  | @failed cursors sim _ stop _ ht hturns =>
    have hcontained := Job.contained_turns verified fuel job.stream cursors (h.takeUp ht) sim
    rw [hturns] at hcontained
    refine ⟨⟨h.start, ?_⟩, fun f hf => ?_⟩
    · rintro _ ⟨⟩ _ ⟨⟩
    · have hstop : (.error stop : Except Stop Bool) = .error (.fault f) :=
        hf.elim (fun hf => (outcome_eq_failed_iff.1 hf).1) fun hf => (outcome_eq_defect_iff.1 hf).1
      cases hstop
      exact hcontained
  | @taken cursors pending sim _ _ ht hturns =>
    have hcontained := Job.contained_turns verified fuel job.stream cursors (h.takeUp ht) sim
    rw [hturns] at hcontained
    refine ⟨⟨h.start, ?_⟩, fun f hf => ?_⟩
    · rintro _ ⟨⟩
      exact hcontained
    · cases hp : pending.isEmpty <;> simp [outcome, hp] at hf

theorem Stepped.inside (stepped : Stepped program first job)
    (verified : program.verify = .ok ()) (h : first.Inside program) : job.Inside program := by
  induction stepped with
  | start => exact h
  | step fuel _ hprogram ih =>
    subst hprogram
    exact (inside_stepWith verified ih fuel).1

/-- A fault of an agent that lost its place is caught by nothing, and ends the step. -/
theorem Executing.outcome_of_astray {start m m' : Machine} {path : List Enclosure} {f : Fault}
    (executing : Executing e fuel job start path (left + 1) m)
    (fails : (fetch e.environment >>= execute e.environment (toCompletion e.environment left)) m =
      .error (.fault f) m') (astray : f.isAstray = true) :
    (e.stepWith fuel job).1 = .defect f := by
  have hkind := Fault.kind_of_isAstray astray
  obtain ⟨k, hk⟩ := executing.within.surfaces fails fun _ _ _ => by rw [hkind]; decide
  rw [executing.outcome_of_error hk, Fault.isFatal, hkind]
  rfl

/-- Let a program pass verification and a job of it start at a place of its code; the instructions
may be any. After any number of steps, whatever is done to the worlds between them: no step of the
job fails because an agent lost its place, and at every machine that a step comes to, at any depth of
nested jobs, the next instruction is there and neither fetching it nor carrying it out loses the
place. -/
theorem never_astray (verified : program.verify = .ok ()) {agents : AgentSet}
    {procedure entry : Nat} {stream : StreamRef} (has : program.Has procedure entry)
    (stepped : Stepped program (.ofAgents agents procedure entry stream) job)
    (runs : e.program = program) (fuel : Nat) :
    (∀ f, (e.stepWith fuel job).1 = .failed f ∨ (e.stepWith fuel job).1 = .defect f →
        f.isAstray = false)
      ∧ ∀ start path left m, Executing e fuel job start path (left + 1) m →
        (m.halt.isRaised = false → ∃ i, program.instruction m.context.procedure m.context.ip = .ok i)
        ∧ ∀ f m', (fetch e.environment >>=
            execute e.environment (toCompletion e.environment left)) m = .error (.fault f) m' →
          f.isAstray = false := by
  subst runs
  have hjob : job.Inside e.program :=
    stepped.inside verified ⟨has, fun _ h => by cases h⟩
  have houtcome := (inside_stepWith verified hjob fuel).2
  refine ⟨houtcome, fun start path left m executing => ?_⟩
  have hsteps : ∀ f m', (fetch e.environment >>=
      execute e.environment (toCompletion e.environment left)) m = .error (.fault f) m' →
      f.isAstray = false := by
    intro f m' fails
    cases hastray : f.isAstray with
    | false => rfl
    | true =>
      have hdefect := executing.outcome_of_astray fails hastray
      exact (hastray.symm.trans (houtcome f (.inr hdefect)))
  refine ⟨fun live => ?_, hsteps⟩
  cases hi : e.program.instruction m.context.procedure m.context.ip with
  | ok i => exact ⟨i, rfl⟩
  | error f =>
    have hfetch : fetch e.environment m = .error (.fault f) m.haltRead := fetch_of_missing live hi
    have hastray := hsteps f m.haltRead (bind_of_error hfetch)
    rw [Program.isAstray_of_instruction hi] at hastray
    cases hastray

/-- A program that no source leads to. Its observer lets a patch run from the test of a loop on; the
loop leaves its block for a call, whose procedure jumps over its own start. -/
def labyrinth : Program where
  procedures :=
    #[⟨"go", 0, 0,
        #[{ Instruction.plain .ask [.constant (.agent (.patch 0))] .zero 0 with
              next := 2, offset := 1, switches := true },
          .jump .zero 1 5,
          { Instruction.plain .whileTrue [.constant (.boolean false)] .zero 2 with
              next := 0, offset := 3 },
          .plain (.call "sub" 1) [] .zero 3,
          .mark .zero 4,
          .ending 5]⟩,
      ⟨"sub", 0, 0, #[.jump .zero 0 2, .jump .zero 1 0, .ending 2]⟩]

def explorer : Engine :=
  .ofProgram (World.build .default) (.ofSeed 0) labyrinth

def exploration : Job :=
  .ofAgents (.ofAgent .observer) 0 0 Streams.main

/-- The patch finds the next instruction in the procedure that it called, and the second step of the
job is as sure as the first. -/
theorem never_astray_labyrinth :
    labyrinth.verify = .ok () ∧ labyrinth.Has 0 0
      ∧ (∃ start asked m, Executing explorer 9 exploration start [asked] 6 m
        ∧ m.context.procedure = 1
        ∧ ∃ i, labyrinth.instruction m.context.procedure m.context.ip = .ok i)
      ∧ ∀ f, ((explorer.stepWith 9 exploration).2.2.stepWith 9
          (explorer.stepWith 9 exploration).2.1).1 = .defect f → f.isAstray = false := by
  have verified : labyrinth.verify = .ok () := rfl
  have has : labyrinth.Has 0 0 := ⟨_, rfl, by decide⟩
  obtain ⟨start, asked, m, executing, hprocedure, live⟩ :
      ∃ start asked m, Executing explorer 9 exploration start [asked] 6 m
        ∧ m.context.procedure = 1 ∧ m.halt.isRaised = false := by
    refine ⟨_, ⟨_, _, 8⟩, _, ⟨rfl, rfl, .here rfl, rfl, .nested (.turn (.refl rfl)) rfl
      (.ask rfl rfl ?_ rfl ⟨by decide, rfl, .here rfl⟩)
      (.step rfl rfl rfl rfl (.step rfl rfl rfl rfl (.refl rfl)))⟩, rfl, rfl⟩
    rintro a ⟨⟩
    rfl
  refine ⟨verified, has, ⟨start, asked, m, executing, hprocedure, ?_⟩, fun f hf => ?_⟩
  · exact ((never_astray verified has .start rfl 9).2 start [asked] 5 m executing).1 live
  · have stepped : Stepped labyrinth exploration (explorer.stepWith 9 exploration).2.1 :=
      .step 9 .start rfl
    exact (never_astray verified has stepped (program_stepWith explorer 9 exploration) 9).1 f
      (.inr hf)

end Engine

end Swarm
