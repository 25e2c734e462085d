import Swarm.Proofs.Engine.Surfacing
import Swarm.Proofs.Exec.Depths

/-!
# Limits on depth

The limit on calls is read once, when a job starts, and stays with the cursors of its agents; steps
of engines with other limits do not change it. The limit on nested jobs is that of the engine that
takes the step. Every context of a step keeps to both, at any depth of nested jobs, and the
instruction that would go beyond one fails before it changes the frames, with a fault that nothing
catches.

## Main definitions

* `Cursor.Resting`: the pending work of an agent between steps
* `Job.StartedUnder`: a job after it was started under a bound on calls
* `Engine.InForce`: the bound on calls in a step of a job

## Main results

* `Job.StartedUnder.resting`: the bound stays with the cursors of the job
* `Engine.Executing.confined`: every context of a step keeps to the limits
* `Engine.within_depth_limits`: the depth of contexts, and what becomes of going deeper
-/

namespace Swarm

open Exec

/-- Between steps an agent keeps to the bound on its frames, and its block ends with the first of
them. -/
structure Cursor.Resting (bound : Nat) (c : Cursor) : Prop where
  bounded : c.frames.Bounded bound
  base : c.baseDepth = 1

namespace Job

variable {env : Environment} {bound fuel : Nat} {stream : StreamRef} {c : Cursor}
  {cursors pending : List Cursor} {sim sim' : Simulation} {job : Job}

-- ════════════════════════════════════════════════════════════════════════
-- Turns
-- ════════════════════════════════════════════════════════════════════════

/-- A turn starts inside of no nested job, on what the agent left of its frames. -/
theorem confined_seat (h : c.Resting bound) (env : Environment) (stream : StreamRef)
    (sim : Simulation) : Confined env bound [] (seat stream c sim) where
  bounded := h.bounded
  base_pos := Nat.lt_of_lt_of_eq Nat.one_pos h.base.symm
  base_le := Nat.le_trans (Nat.le_of_eq h.base) c.frames.depth_pos
  base_eq := h.base
  inherited := by rintro _ _ ⟨⟩
  nesting_eq := rfl
  nesting_le := Nat.zero_le _

theorem resting_turn {after : Context} (h : c.Resting bound)
    (hturn : turn env fuel stream c sim = (.ok after, sim')) : after.toCursor.Resting bound := by
  have hseat := confined_seat h env stream sim
  cases hr : untilSwitch env fuel (seat stream c sim) with
  | error e m =>
    rw [turn_of_error hr] at hturn
    cases hturn
  | ok _ m =>
    rw [turn_of_ok hr] at hturn
    cases hturn
    have hbounded := staysBounded_effects.untilSwitch env fuel (seat stream c sim)
    have hframed := framed_effects.untilSwitch env fuel (seat stream c sim)
    rw [hr] at hbounded hframed
    exact ⟨hbounded bound h.bounded, (hframed hseat.base_le).1.trans h.base⟩

theorem resting_turns (h : ∀ c ∈ cursors, c.Resting bound)
    (hturns : turns env fuel stream cursors sim = (.ok pending, sim')) :
    ∀ c ∈ pending, c.Resting bound := by
  have hturn (c : Cursor) (hc : c ∈ cursors) (sim : Simulation) :
      Answers (fun after => after.toCursor.Resting bound) (fun _ => True) (fun _ => True)
        (turn env fuel stream c sim) :=
    ⟨fun _ _ ht => resting_turn (h c hc) ht, fun _ _ _ => trivial, trivial⟩
  exact (answers_turns cursors (fun c hc sim _ => hturn c hc sim) trivial).value pending sim' hturns

theorem TurnOf.mem (h : TurnOf env fuel stream cursors sim c sim') : c ∈ cursors := by
  induction h with
  | here => exact List.mem_cons_self
  | skip _ _ ih => exact List.mem_cons_of_mem _ ih
  | next _ _ _ ih => exact List.mem_cons_of_mem _ ih

/-- A job takes up the cursors that it has, or starts its agents on one frame each. -/
theorem resting_takeUp (fresh : job.cursors = none → env.limits.callDepth = bound)
    (held : ∀ kept, job.cursors = some kept → ∀ c ∈ kept, c.Resting bound)
    (ht : job.takeUp env sim = (.ok cursors, sim')) : ∀ c ∈ cursors, c.Resting bound := by
  obtain hheld | ⟨hnone, q, _, rfl⟩ := takeUp_eq_ok ht
  · exact held _ hheld
  · intro c hc
    obtain ⟨a, _, rfl⟩ := List.mem_map.1 hc
    exact ⟨fresh hnone ▸ CallStack.bounded_ofFrame _ _, rfl⟩

-- ════════════════════════════════════════════════════════════════════════
-- Steps
-- ════════════════════════════════════════════════════════════════════════

/-- A job that was started in a step of an engine whose limits bound calls by `bound`, and what
became of it: any engines, whatever their programs and limits, may have taken further steps of it,
its work may have been dropped, and all that it was made from may have been replaced, which counts
only before the start. -/
inductive StartedUnder (bound : Nat) : Job → Prop where
  | start {e : Engine} {job : Job} (fuel : Nat) : job.cursors = none →
    e.limits.callDepth = bound → (e.stepWith fuel job).2.1.cursors.isSome = true →
    StartedUnder bound (e.stepWith fuel job).2.1
  | step {job : Job} (e : Engine) (fuel : Nat) : StartedUnder bound job →
    StartedUnder bound (e.stepWith fuel job).2.1
  | abort {job : Job} : StartedUnder bound job → StartedUnder bound job.abort
  | remake {job job' : Job} : StartedUnder bound job → job'.cursors = job.cursors →
    StartedUnder bound job'

theorem cursors_stepWith {e : Engine} (h : job.cursors.isSome = true) :
    (e.stepWith fuel job).2.1.cursors.isSome = true := by
  have hends := Engine.ends_stepWith e fuel job
  generalize e.stepWith fuel job = after at hends ⊢
  cases hends with
  | idle _ => exact h
  | unstarted _ => exact h
  | failed _ _ _ => rfl
  | taken _ _ _ => rfl

/-- A step leaves cursors within the bound if it takes up such cursors. -/
theorem resting_stepWith {e : Engine} (fresh : job.cursors = none → e.limits.callDepth = bound)
    (held : ∀ kept, job.cursors = some kept → ∀ c ∈ kept, c.Resting bound) (fuel : Nat) :
    ∀ kept, (e.stepWith fuel job).2.1.cursors = some kept → ∀ c ∈ kept, c.Resting bound := by
  have hends := Engine.ends_stepWith e fuel job
  generalize e.stepWith fuel job = after at hends ⊢
  cases hends with
  | idle _ => exact held
  | unstarted _ => exact held
  | failed _ _ _ =>
    rintro _ ⟨⟩ c hc
    cases hc
  | taken _ ht hturns =>
    rintro _ ⟨⟩
    exact resting_turns (resting_takeUp fresh held ht) hturns

theorem StartedUnder.isSome (h : StartedUnder bound job) : job.cursors.isSome = true := by
  induction h with
  | start _ _ _ hstarted => exact hstarted
  | step _ _ _ ih => exact cursors_stepWith ih
  | abort => rfl
  | remake _ hcursors ih => rw [hcursors, ih]

theorem StartedUnder.cursors_ne (h : StartedUnder bound job) : job.cursors ≠ none := by
  intro hnone
  have hstarted := h.isSome
  simp [hnone] at hstarted

/-- The bound that a job was started under stays with its cursors. -/
theorem StartedUnder.resting (h : StartedUnder bound job) :
    ∀ kept, job.cursors = some kept → ∀ c ∈ kept, c.Resting bound := by
  induction h with
  | start fuel hnone hlimit _ =>
    refine resting_stepWith (fun _ => hlimit) (fun kept hkept => ?_) fuel
    rw [hnone] at hkept
    cases hkept
  | step _ fuel h ih => exact resting_stepWith (fun hnone => absurd hnone h.cursors_ne) ih fuel
  | abort =>
    rintro _ ⟨⟩ c hc
    cases hc
  | remake _ hcursors ih =>
    rw [hcursors]
    exact ih

end Job

namespace Engine

/-- The bound on calls in a step of a job: that of the engine if the job is to start in this step,
and the one that it was started under otherwise. -/
inductive InForce (e : Engine) (job : Job) (bound : Nat) : Prop where
  | fresh : job.cursors = none → e.limits.callDepth = bound → InForce e job bound
  | started : job.StartedUnder bound → InForce e job bound

variable {e : Engine} {fuel left bound : Nat} {job : Job} {start m m₁ m' : Machine}
  {path : List Enclosure} {f : Fault} {i : Instruction}

theorem InForce.resting (h : InForce e job bound) {cursors : List Cursor} {sim sim' : Simulation}
    (ht : job.takeUp e.environment sim = (.ok cursors, sim')) : ∀ c ∈ cursors, c.Resting bound := by
  cases h with
  | fresh hnone hlimit =>
    refine Job.resting_takeUp (fun _ => hlimit) (fun kept hkept => ?_) ht
    rw [hnone] at hkept
    cases hkept
  | started h =>
    exact Job.resting_takeUp (fun hnone => absurd hnone h.cursors_ne) h.resting ht

/-- Every context of a step keeps to the limits. -/
theorem Executing.confined (h : Executing e fuel job start path left m)
    (inForce : InForce e job bound) : Confined e.environment bound path m := by
  obtain ⟨_, ht, hturn, rfl, hwithin⟩ := h
  exact hwithin.confined (Job.confined_seat (inForce.resting ht _ hturn.mem) _ _ _)

/-- A fault of an instruction that is no runtime fault and no defect is how the step fails. -/
theorem Executing.outcome_of_execute (h : Executing e fuel job start path (left + 1) m)
    (hfetch : fetch e.environment m = .ok i m₁)
    (fails : execute e.environment (toCompletion e.environment left) i m₁ = .error (.fault f) m')
    (kind : f.kind ≠ .runtime) (recoverable : f.isFatal = false) :
    (e.stepWith fuel job).1 = .failed f := by
  have hstep : (fetch e.environment >>= execute e.environment (toCompletion e.environment left)) m =
      .error (.fault f) m' := by
    rw [bind_of_ok hfetch, fails]
  obtain ⟨k, hk⟩ := h.within.surfaces hstep fun _ _ _ => kind
  rw [h.outcome_of_error hk, recoverable]
  rfl

/-- Let a step of a job come to a machine, in a turn or at any depth of nested jobs. Its context has
a frame, and at most as many as the bound in force allows, all frames of the contexts around it
counted; it stands on the frames of the context around it as they were but for the locals on top,
and these are the base of its block. As many nested jobs are counted as there are constructs around
the machine, and at most as many as the engine allows.

A call of the next instruction puts its frame on top if there is room for it. Otherwise the call
fails, and the machine is the one from before the call, after the inputs were evaluated. A nested job
at the limit fails too: the machine is the one from before the job, and nothing of the frames, the
world and the streams has changed but for the draws of the agent's own stream by the argument and by
births, and the births themselves. Either fault is how the step fails. -/
theorem within_depth_limits (inForce : InForce e job bound)
    (executing : Executing e fuel job start path left m) :
    (m.context.frames.frames ≠ [] ∧ m.context.frames.frames.length ≤ max 1 bound)
      ∧ (1 ≤ m.context.baseDepth ∧ m.context.baseDepth ≤ m.context.frames.frames.length)
      ∧ (m.context.baseDepth = startDepth path ∧ ∀ x outer, path = x :: outer →
        TopLike x.machine.context.frames.frames (m.context.frames.base m.context.baseDepth))
      ∧ (m.nesting = path.length ∧ m.nesting ≤ e.limits.nesting)
      ∧ ∀ rest i m₁, left = rest + 1 → fetch e.environment m = .ok i m₁ →
        (∀ frame m₂, Calls e.environment i m₁ frame m₂ → Drew m₁ m₂
          ∧ (m.context.frames.frames.length < bound →
            ∃ m', execute e.environment (toCompletion e.environment rest) i m₁ = .ok () m'
              ∧ m'.context.frames.frames = frame :: m.context.frames.frames)
          ∧ (bound ≤ m.context.frames.frames.length →
            execute e.environment (toCompletion e.environment rest) i m₁ =
                .error (.fault (.ofCause (.callDepth bound))) m₂
              ∧ (e.stepWith fuel job).1 = .failed (.ofCause (.callDepth bound))))
        ∧ ∀ s r m₂, Drives e.environment i m₁ s r m₂ → e.limits.nesting ≤ path.length →
          execute e.environment (toCompletion e.environment rest) i m₁ =
              .error (.fault (.ofCause (.nesting e.limits.nesting))) (abandoned i m₁ m₂)
            ∧ Unentered i m₁ (abandoned i m₁ m₂)
            ∧ (e.stepWith fuel job).1 = .failed (.ofCause (.nesting e.limits.nesting)) := by
  have hconfined := executing.confined inForce
  rw [CallStack.length_frames]
  refine ⟨⟨m.context.frames.frames_ne_nil, hconfined.bounded.depth⟩,
    ⟨hconfined.base_pos, hconfined.base_le⟩, ⟨hconfined.base_eq, hconfined.inherited⟩,
    ⟨hconfined.nesting_eq, hconfined.nesting_le⟩, ?_⟩
  rintro rest i m₁ rfl hfetch
  have hfetched := hconfined.fetch hfetch
  obtain ⟨rfl, _, _⟩ := fetch_eq_ok hfetch
  refine ⟨fun frame m₂ hcalls => ⟨hcalls.drew, hcalls.execute_of_room hfetched.bounded,
    fun full => ?_⟩, fun s r m₂ hdrives deep => ?_⟩
  · have fails := hcalls.execute_of_full hfetched.bounded full (toCompletion e.environment rest)
    exact ⟨fails, executing.outcome_of_execute hfetch fails (by rintro ⟨⟩) rfl⟩
  · rw [← hfetched.nesting_eq] at deep
    have fails := hdrives.execute_of_deep deep (toCompletion e.environment rest)
    exact ⟨fails, hdrives.unentered, executing.outcome_of_execute hfetch fails (by rintro ⟨⟩) rfl⟩

/-- An engine whose observer carefully asks a patch to start over. -/
def relay (limits : Limits) : Engine :=
  { ofProgram (World.build .default) (.ofSeed 0)
      (ProgramDef.layout ⟨[.ofBody "go"
        [⟨.carefully, [],
          [[⟨.ask, [.constant (.agent (.patch 0))], [[⟨.call "go" 0, [], [], .zero⟩]], .zero⟩],
            []], .zero⟩]]⟩) with limits := limits }

def errand : Job :=
  .ofAgents (.ofAgent .observer) 0 0 Streams.main

/-- With room for one frame, the patch cannot call; with one nested job allowed, the observer cannot
ask the patch inside of `carefully`, which does not catch the fault. -/
theorem within_depth_limits_errand :
    (∃ start asked guarded m, Executing (relay ⟨1, 2, 9⟩) 9 errand start [asked, guarded] 7 m
        ∧ m.nesting = 2 ∧ m.context.frames.frames.length ≤ 1
        ∧ ((relay ⟨1, 2, 9⟩).stepWith 9 errand).1 = .failed (.ofCause (.callDepth 1)))
      ∧ ∃ start guarded m, Executing (relay ⟨1, 1, 9⟩) 9 errand start [guarded] 8 m
        ∧ guarded.Catches ∧ m.nesting = 1
        ∧ ((relay ⟨1, 1, 9⟩).stepWith 9 errand).1 = .failed (.ofCause (.nesting 1)) := by
  constructor
  · obtain ⟨start, asked, guarded, m, i, m₁, frame, m₂, executing, hfetch, hcalls⟩ :
        ∃ start asked guarded m i m₁ frame m₂,
          Executing (relay ⟨1, 2, 9⟩) 9 errand start [asked, guarded] 7 m
            ∧ fetch (relay ⟨1, 2, 9⟩).environment m = .ok i m₁
            ∧ Calls (relay ⟨1, 2, 9⟩).environment i m₁ frame m₂ := by
      refine ⟨_, ⟨_, _, 7⟩, ⟨_, _, 8⟩, _, _, _, _, _, ⟨rfl, rfl, .here rfl, rfl, .nested (.nested
        (.turn (.refl rfl)) rfl (.carefully rfl rfl ⟨by decide, rfl, .here rfl⟩) (.refl rfl)) rfl
        (.ask rfl rfl ?_ rfl ⟨by decide, rfl, .here rfl⟩) (.refl rfl)⟩, rfl, ⟨rfl, rfl, rfl, rfl⟩⟩
      rintro a ⟨⟩
      rfl
    obtain ⟨⟨_, hlength⟩, _, _, ⟨hnesting, _⟩, hnext⟩ :=
      within_depth_limits (.fresh rfl rfl) executing
    obtain ⟨_, _, hfull⟩ := (hnext 6 i m₁ rfl hfetch).1 frame m₂ hcalls
    have hone : m.context.frames.frames.length = 1 :=
      Nat.le_antisymm hlength (List.length_pos_iff.2 m.context.frames.frames_ne_nil)
    exact ⟨start, asked, guarded, m, executing, hnesting, hlength,
      (hfull (Nat.le_of_eq hone.symm)).2⟩
  · obtain ⟨start, guarded, m, i, m₁, s, r, m₂, executing, catches, hfetch, hdrives⟩ :
        ∃ start guarded m i m₁ s r m₂, Executing (relay ⟨1, 1, 9⟩) 9 errand start [guarded] 8 m
          ∧ guarded.Catches ∧ fetch (relay ⟨1, 1, 9⟩).environment m = .ok i m₁
          ∧ Drives (relay ⟨1, 1, 9⟩).environment i m₁ s r m₂ := by
      refine ⟨_, ⟨_, _, 8⟩, _, _, _, _, _, _, ⟨rfl, rfl, .here rfl, rfl, .nested
        (.turn (.refl rfl)) rfl (.carefully rfl rfl ⟨by decide, rfl, .here rfl⟩) (.refl rfl)⟩,
        rfl, rfl, .ask rfl rfl ?_ rfl⟩
      rintro a ⟨⟩
      rfl
    obtain ⟨_, _, _, ⟨hnesting, _⟩, hnext⟩ := within_depth_limits (.fresh rfl rfl) executing
    obtain ⟨_, _, hfails⟩ := (hnext 7 i m₁ rfl hfetch).2 s r m₂ hdrives (Nat.le_refl 1)
    exact ⟨start, guarded, m, executing, catches, hnesting, hfails⟩

end Engine

end Swarm
