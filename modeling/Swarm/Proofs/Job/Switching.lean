import Swarm.Proofs.Exec.Refinement
import Swarm.Proofs.Job.Effects
import Swarm.Proofs.Tree.Simulation

/-!
# Turns and whole runs

An agent that shares a job with others runs one turn in each step, and is put down as pending work
in between. If it is alone in its job, nothing happens between its turns, and all of them together
are one run to the end of its block. A turn may end before a last instruction that would only end the
block; the run carries this instruction out, and nothing comes of it as long as the halt flag is
left alone in between.

## Main definitions

* `Job.turnwise`: the turns of one agent, one after another
* `Job.drive`: the steps of a job, one after another
* `Job.aliveAtTurns`: whether the agent is alive whenever it takes a turn

## Main results

* `Job.restOfTurn_cases`: how a turn goes on after an instruction
* `Job.toCompletion_below_turns`, `Job.turns_below_toCompletion`: neither is ahead of the other
* `Job.turnwise_agrees_toCompletion`: turns and whole runs end in the same way
-/

namespace Swarm.Job

open Exec

/-- Let the running agent take turn after turn, at most `turns` of them, until its block ends. After
each turn its state is put down as pending work, and taken up again. -/
def turnwise (env : Environment) (fuel : Nat) (stream : StreamRef) : Nat → Exec Unit
  | 0 => throw .exhausted
  | turns + 1 => do
    untilSwitch env fuel
    if (← context).finished then return ()
    modify fun m => seat stream m.context.toCursor m.toSimulation
    turnwise env fuel stream turns

/-- The turns that are left after one of them. -/
def turnsLeft (env : Environment) (fuel : Nat) (stream : StreamRef) (turns : Nat) : Exec Unit := do
  if (← context).finished then return ()
  modify fun m => seat stream m.context.toCursor m.toSimulation
  turnwise env fuel stream turns

/-- An agent in its seat, with work left. Nobody touches the halt flag. -/
structure Seated (stream : StreamRef) (m : Machine) : Prop where
  running : m.context.finished = false
  nesting : m.nesting = 0
  stream : m.context.stream = stream
  untouched : m.halt.upcoming = []

variable {env : Environment} {stream : StreamRef} {m t : Machine} {i : Instruction}

theorem seated_seat (stream : StreamRef) (c : Cursor) {sim : Simulation}
    (untouched : sim.halt.upcoming = []) : Seated stream (seat stream c sim) :=
  ⟨rfl, rfl, rfl, untouched⟩

/-- Putting work down and taking it up again loses the value reported last alone. -/
theorem Seated.unreported_seat (h : Seated stream m) :
    (seat stream m.context.toCursor m.toSimulation).unreported = m.unreported := by
  obtain ⟨sim, nesting, cursor, own, last, finished⟩ := m
  obtain ⟨rfl, rfl, rfl, _⟩ := h
  rfl

theorem Seated.congr (h : Seated stream m) (hm : m.unreported = t.unreported) :
    Seated stream t where
  running := (congrArg (fun k => k.context.finished) hm.symm).trans h.running
  nesting := (congrArg (fun k => k.nesting) hm.symm).trans h.nesting
  stream := (congrArg (fun k => k.context.stream) hm.symm).trans h.stream
  untouched := (congrArg (fun k => k.halt.upcoming) hm.symm).trans h.untouched

/-- Readings find a flag that nobody touches as it was before an instruction. -/
theorem Seated.halt_of_execute {fuel : Nat} {m' : Machine} (h : Seated stream m)
    (hexecute : execute env (toCompletion env fuel) i m = .ok () m') : m'.halt = m.halt :=
  (precedes_effects.of_execute hexecute).eq_of_upcoming_nil h.untouched

/-- An instruction leaves its agent in the seat, unless it ends the block. -/
theorem Seated.execute {fuel : Nat} {m' : Machine} (h : Seated stream m)
    (hexecute : execute env (toCompletion env fuel) i m = .ok () m')
    (running : m'.context.finished = false) : Seated stream m' := by
  have hseat := sameSeat_effects.of_execute hexecute
  refine ⟨running, hseat.nesting.trans h.nesting, hseat.stream.trans h.stream, ?_⟩
  rw [h.halt_of_execute hexecute]
  exact h.untouched

-- ════════════════════════════════════════════════════════════════════════
-- One instruction of a turn
-- ════════════════════════════════════════════════════════════════════════

theorem turnwise_succ (fuel turns : Nat) :
    turnwise env fuel stream (turns + 1) =
      (untilSwitch env fuel >>= fun _ => turnsLeft env fuel stream turns) :=
  rfl

theorem untilSwitch_succ_bind (fuel : Nat) (f : Exec Unit) :
    (untilSwitch env (fuel + 1) >>= fun _ => f) =
      (fetch env >>= fun i => execute env (toCompletion env fuel) i >>= fun _ =>
        restOfTurn env fuel i >>= fun _ => f) := by
  rw [untilSwitch_succ]
  simp only [bind_assoc]

/-- In an assembled program only commands with one argument know it in advance. -/
theorem known_of_assemble {d : ProgramDef} {w : World} {forgiving : Bool} {program : Program}
    (assembled : d.assemble w forgiving = .ok program) {procedure ip : Nat}
    (hi : program.instruction procedure ip = .ok i) (hc : i.command.isUnary = false) :
    i.known = none := by
  obtain ⟨q, hq, hcode⟩ := Except.bind_eq_ok hi
  have hmem : i ∈ q.code := by
    cases hat : q.code[ip]? with
    | none =>
      rw [hat] at hcode
      cases hcode
    | some j =>
      rw [hat] at hcode
      cases hcode
      exact Array.mem_of_getElem? hat
  have hplace : program.procedures[procedure]? = some q := by
    rw [Program.procedure] at hq
    cases hp : program.procedures[procedure]? with
    | none =>
      rw [hp] at hq
      cases hq
    | some p =>
      rw [hp] at hq
      cases hq
      rfl
  obtain ⟨p, _, _, hfits, _⟩ := ProgramDef.fits_of_assemble assembled hplace hmem
  cases hk : i.known with
  | none => rfl
  | some v =>
    obtain ⟨hu, _⟩ := hfits.known v hk
    rw [hc] at hu
    cases hu

/-- Whether an instruction only ends the block of the agent that carries it out. -/
def endsBlock (c : Context) (i : Instruction) : Bool :=
  match i.command with
  | .done => true
  | .ret => c.atBase
  | .stop => c.atBase
  | _ => false

theorem atTerminal_apply
    (fetched : env.program.instruction m.context.procedure m.context.ip = .ok i) :
    atTerminal env m = .ok (endsBlock m.context i) m := by
  rw [atTerminal, context_bind, fetched, ofExcept_ok, pure_bind, endsBlock]
  cases i.command <;> rfl

theorem execute_of_endsBlock {run : Exec Unit} (known : i.command.isUnary = false → i.known = none)
    (h : endsBlock m.context i = true) : execute env run i m = .ok () (Tree.ended m) := by
  have hperform (hc : i.command.isUnary = false)
      (hp : perform env run i m = .ok () (Tree.ended m)) :
      execute env run i m = .ok () (Tree.ended m) := by
    rw [execute_of_known (known hc), Tree.located, mapFault, hp]
  unfold endsBlock at h
  split at h
  · next hc => exact hperform (by rw [hc]; rfl) (by simp only [perform, hc]; rfl)
  · next hc =>
    refine hperform (by rw [hc]; rfl) ?_
    simp only [perform, hc]
    exact Tree.leave_of_atBase h
  · next hc =>
    refine hperform (by rw [hc]; rfl) ?_
    simp only [perform, hc]
    exact Tree.leave_of_atBase h
  · cases h

/-- A run that comes to the end of its agent's block ends. -/
theorem toCompletion_of_endsBlock (live : m.halt.isRaised = false)
    (running : m.context.finished = false)
    (fetched : env.program.instruction m.context.procedure m.context.ip = .ok i)
    (known : i.command.isUnary = false → i.known = none) (h : endsBlock m.context i = true)
    (fuel : Nat) : toCompletion env (fuel + 1) m = .ok () (Tree.ended m.haltRead) := by
  rw [toCompletion_of_live live running fetched,
    bind_of_ok (execute_of_endsBlock (m := m.haltRead) known h)]
  exact toCompletion_of_finished rfl fuel

/-- After an instruction that leaves its agent with work, a turn goes on, or it ends and another one
begins; or it ends where the run to the end of the block would end as well. -/
theorem restOfTurn_cases {d : ProgramDef} {w : World} {forgiving : Bool}
    (assembled : d.assemble w forgiving = .ok env.program) (live : m.halt.isRaised = false)
    (hm : Seated stream m) (i : Instruction) (first fuel turns : Nat) :
    (i.switches = false ∧
        (restOfTurn env first i >>= fun _ => turnsLeft env fuel stream turns) m =
          (untilSwitch env first >>= fun _ => turnsLeft env fuel stream turns) m)
      ∨ (restOfTurn env first i >>= fun _ => turnsLeft env fuel stream turns) m =
          turnwise env fuel stream turns (seat stream m.context.toCursor m.toSimulation)
      ∨ ∀ left, toCompletion env (left + 1) m =
          (restOfTurn env first i >>= fun _ => turnsLeft env fuel stream turns) m := by
  have running := hm.running
  rw [bind_apply, restOfTurn_of_running first i running]
  cases hs : i.switches with
  | false => exact .inl ⟨rfl, (bind_apply _ _ m).symm⟩
  | true =>
    refine .inr ?_
    simp only [if_true]
    cases hj : env.program.instruction m.context.procedure m.context.ip with
    | error f =>
      -- there is no next instruction, which the run finds out as well
      right
      intro left
      rw [toCompletion_of_running running, bind_of_error (fetch_of_missing live hj),
        haltRead_of_untouched hm.untouched, endTurn, atTerminal, bind_apply, context_bind, hj]
      rfl
    | ok j =>
      have hend : endTurn env m =
          .ok () { m with context := { m.context with finished := endsBlock m.context j } } := by
        rw [endTurn, bind_of_ok (atTerminal_apply hj)]
        rfl
      rw [hend]
      cases hended : endsBlock m.context j with
      | false =>
        left
        have hsame : ({ m with context := { m.context with finished := false } } : Machine) = m := by
          rw [← running]
        dsimp only
        rw [hsame, turnsLeft, context_bind, running]
        rfl
      | true =>
        right
        intro left
        rw [toCompletion_of_endsBlock live running hj (known_of_assemble assembled hj) hended,
          haltRead_of_untouched hm.untouched]
        rfl

-- ════════════════════════════════════════════════════════════════════════
-- Turns against a whole run
-- ════════════════════════════════════════════════════════════════════════

/-- Two runs go on in the same way after an instruction if they do so from machines in which the
agent has work left. -/
theorem below_of_step {fuel fuel' : Nat} {f g : Instruction → Exec Unit} (hfuel : fuel ≤ fuel')
    (hm : Seated stream m) (hmt : m.unreported = t.unreported)
    (hf : ∀ i k, k.context.finished = true → f i k = .ok () k)
    (hg : ∀ i k, k.context.finished = true → g i k = .ok () k)
    (hfg : ∀ i m₁ t₁, m₁.halt.isRaised = false → t₁.halt.isRaised = false → Seated stream m₁ →
      Seated stream t₁ → m₁.unreported = t₁.unreported → Below (f i m₁) (g i t₁)) :
    Below ((fetch env >>= fun i => execute env (toCompletion env fuel) i >>= fun _ => f i) m)
      ((fetch env >>= fun i => execute env (toCompletion env fuel') i >>= fun _ => g i) t) := by
  apply (refines_fetch env m t hmt).bind
  intro i m₀ t₀ hfm hft _
  obtain ⟨rfl, live, _⟩ := fetch_eq_ok hfm
  obtain ⟨rfl, _, _⟩ := fetch_eq_ok hft
  rw [haltRead_of_untouched hm.untouched, haltRead_of_untouched (hm.congr hmt).untouched]
  apply (refines_execute (refines_toCompletion env hfuel) i m t hmt).bind
  intro _ m₁ t₁ hm₁ _ h₁
  cases hrunning : m₁.context.finished with
  | true =>
    have hfinished : t₁.context.finished = true := by
      rw [← hrunning]
      exact congrArg (fun k => k.context.finished) h₁.symm
    rw [hf i m₁ hrunning, hg i t₁ hfinished]
    exact .inr (.ok () h₁)
  | false =>
    have hseated := hm.execute hm₁ hrunning
    have live₁ : m₁.halt.isRaised = false := by
      rw [hm.halt_of_execute hm₁, live]
    have live₂ : t₁.halt.isRaised = false := by
      rw [← live₁]
      exact congrArg (fun k => k.halt.isRaised) h₁.symm
    exact hfg i m₁ t₁ live₁ live₂ hseated (hseated.congr h₁) h₁

theorem restOfTurn_of_finished (first fuel turns : Nat) (i : Instruction)
    (h : m.context.finished = true) :
    (restOfTurn env first i >>= fun _ => turnsLeft env fuel stream turns) m = .ok () m := by
  have hrest : restOfTurn env first i m = .ok () m := by
    rw [restOfTurn, context_bind, h]
    rfl
  rw [bind_of_ok hrest, turnsLeft, context_bind, h]
  rfl

section Compare

variable {d : ProgramDef} {w : World} {forgiving : Bool}
  (assembled : d.assemble w forgiving = .ok env.program)
include assembled

/-- A run to the end of the block that does not run out of fuel ends as enough turns do. -/
theorem toCompletion_below_turns {fuel each : Nat} (heach : fuel ≤ each) :
    ∀ {first turns : Nat} {m t : Machine}, fuel ≤ first → fuel ≤ turns → Seated stream m →
      m.unreported = t.unreported →
      Below (toCompletion env fuel m)
        ((untilSwitch env first >>= fun _ => turnsLeft env each stream turns) t) := by
  induction fuel with
  | zero =>
    intro first turns m t _ _ hm _
    exact .inl (toCompletion_zero hm.running)
  | succ fuel ih =>
    intro first turns m t hfirst hturns hm hmt
    obtain ⟨first, rfl⟩ : ∃ less, first = less + 1 := ⟨first - 1, by omega⟩
    rw [toCompletion_of_running hm.running, untilSwitch_succ_bind]
    refine below_of_step (by omega) hm hmt (fun _ k hk => toCompletion_of_finished hk fuel)
      (fun j k hk => restOfTurn_of_finished first each turns j hk) ?_
    intro i m₁ t₁ _ live hm₁ ht₁ h₁
    rcases restOfTurn_cases assembled live ht₁ i first each turns with
      ⟨_, hrest⟩ | hrest | hrest
    · rw [hrest]
      exact ih (by omega) (by omega) (by omega) hm₁ h₁
    · obtain ⟨turns, rfl⟩ : ∃ less, turns = less + 1 := ⟨turns - 1, by omega⟩
      rw [hrest, turnwise_succ]
      exact ih (by omega) (by omega) (by omega) hm₁ (h₁.trans ht₁.unreported_seat.symm)
    · cases fuel with
      | zero => exact .inl (toCompletion_zero hm₁.running)
      | succ fuel =>
        rw [← hrest fuel]
        exact refines_toCompletion env (Nat.le_refl _) m₁ t₁ h₁

/-- Turns that do not run out of fuel end as a run to the end of the block with enough fuel does. -/
theorem turns_below_toCompletion {each fuel : Nat} :
    ∀ {first turns : Nat} {m t : Machine}, first + turns * each < fuel → Seated stream m →
      m.unreported = t.unreported →
      Below ((untilSwitch env first >>= fun _ => turnsLeft env each stream turns) m)
        (toCompletion env fuel t) := by
  induction fuel with
  | zero =>
    intro first turns m t hfuel
    omega
  | succ fuel ih =>
    intro first turns m t hfuel hm hmt
    cases first with
    | zero => exact .inl trivial
    | succ first =>
      rw [toCompletion_of_running (hm.congr hmt).running, untilSwitch_succ_bind]
      refine below_of_step (by omega) hm hmt
        (fun j k hk => restOfTurn_of_finished first each turns j hk)
        (fun _ k hk => toCompletion_of_finished hk fuel) ?_
      intro i m₁ t₁ live _ hm₁ ht₁ h₁
      rcases restOfTurn_cases assembled live hm₁ i first each turns with
        ⟨_, hrest⟩ | hrest | hrest
      · rw [hrest]
        exact ih (by omega) hm₁ h₁
      · rw [hrest]
        cases turns with
        | zero => exact .inl trivial
        | succ turns =>
          rw [turnwise_succ]
          rw [Nat.succ_mul] at hfuel
          exact ih (by omega) (seated_seat _ _ hm₁.untouched) (hm₁.unreported_seat.trans h₁)
      · obtain ⟨less, rfl⟩ : ∃ less, fuel = less + 1 := ⟨fuel - 1, by omega⟩
        rw [← hrest less]
        exact refines_toCompletion env (Nat.le_refl _) m₁ t₁ h₁

end Compare

-- ════════════════════════════════════════════════════════════════════════
-- A job with one agent
-- ════════════════════════════════════════════════════════════════════════

/-- Take steps of a job until one of them ends it, at most `steps` of them. -/
def drive (env : Environment) (fuel : Nat) :
    Nat → Job → Simulation → Except Stop Bool × Job × Simulation
  | 0, job, sim => (.error .exhausted, job, sim)
  | steps + 1, job, sim =>
    match job.step env fuel sim with
    | (.ok false, job, sim) => drive env fuel steps job sim
    | ended => ended

/-- Whether the agent of a machine is alive whenever it takes one of its turns. -/
def aliveAtTurns (env : Environment) (fuel : Nat) (stream : StreamRef) : Nat → Machine → Bool
  | 0, _ => true
  | turns + 1, m =>
    m.world.isAlive m.context.agent &&
      match untilSwitch env fuel m with
      | .ok _ m => m.context.finished ||
        aliveAtTurns env fuel stream turns (seat stream m.context.toCursor m.toSimulation)
      | .error _ _ => true

/-- What a step answers at the end of an agent's block. -/
def answer : Ending Unit → Except Stop Bool
  | .ok _ _ => .ok true
  | .error e _ => .error e

section Alone

variable {job : Job} {sim sim' : Simulation} {c : Cursor} {fuel : Nat}

/-- A step of a job with one agent left, which is alive, is a turn of this agent. -/
theorem step_of_alone (start : job.takeUp env sim = (.ok [c], sim'))
    (alive : sim'.world.isAlive c.agent = true)
    (hm : untilSwitch env fuel (seat job.stream c sim') = .ok () m) :
    job.step env fuel sim =
      (.ok m.context.finished,
        { job with
          steps := job.steps + 1
          cursors := some (if m.context.finished then [] else [m.context.toCursor]) },
        m.toSimulation) := by
  rw [step, start]
  simp only [turns, alive, if_true, turn_of_ok hm]
  split <;> simp_all

theorem step_of_alone_error {e : Stop} (start : job.takeUp env sim = (.ok [c], sim'))
    (alive : sim'.world.isAlive c.agent = true)
    (hm : untilSwitch env fuel (seat job.stream c sim') = .error e m) :
    job.step env fuel sim =
      (.error e, { job with steps := job.steps + 1 }.abort, m.toSimulation) := by
  rw [step, start]
  simp only [turns, alive, if_true, turn_of_error hm]

/-- The steps of a job with one agent left are its turns, as long as it is alive at each of them. -/
theorem drive_of_alone {turns : Nat} (start : job.takeUp env sim = (.ok [c], sim'))
    (alive : aliveAtTurns env fuel job.stream turns (seat job.stream c sim') = true) :
    (drive env fuel turns job sim).1 =
        answer (turnwise env fuel job.stream turns (seat job.stream c sim'))
      ∧ (¬ Exhausted (turnwise env fuel job.stream turns (seat job.stream c sim')) →
        (drive env fuel turns job sim).2.2 =
          (final (turnwise env fuel job.stream turns (seat job.stream c sim'))).toSimulation) := by
  induction turns generalizing job sim sim' c with
  | zero => exact ⟨rfl, fun h => absurd trivial h⟩
  | succ turns ih =>
    rw [aliveAtTurns, Bool.and_eq_true] at alive
    obtain ⟨halive, hlater⟩ := alive
    rw [drive, turnwise_succ]
    rcases hr : untilSwitch env fuel (seat job.stream c sim') with ⟨_, m⟩ | ⟨e, m⟩
    · rw [step_of_alone start halive hr, bind_of_ok hr, turnsLeft, context_bind]
      cases hfinished : m.context.finished with
      | true => exact ⟨rfl, fun _ => rfl⟩
      | false =>
        simp only [hr, hfinished, Bool.false_or] at hlater
        -- the job that is left has the cursor of the agent's turn
        have hnext : Job.takeUp env { job with
            steps := job.steps + 1, cursors := some [m.context.toCursor] } m.toSimulation =
            (.ok [m.context.toCursor], m.toSimulation) := rfl
        exact ih hnext hlater
    · rw [step_of_alone_error start halive hr, bind_of_error hr]
      exact ⟨rfl, fun _ => rfl⟩

end Alone

/-- Let the only agent of a job run from where it stands; the halt flag may be up or down, and stays
as it is. Taking turns, with its state put down and taken up again after each of them, comes to an
end exactly if one run to the end of its block does; both then have the same value or fault, the
same world, streams and notices, and the same frames, place in the code and caught message. As long
as the agent is alive whenever a step begins, the steps of the job are these turns. -/
theorem turnwise_agrees_toCompletion {d : ProgramDef} {w : World} {forgiving : Bool}
    (assembled : d.assemble w forgiving = .ok env.program) {job : Job} {sim sim' : Simulation}
    {c : Cursor} (untouched : sim.halt.upcoming = [])
    (start : job.takeUp env sim = (.ok [c], sim')) :
    ((∃ fuel turns,
          ¬ Exhausted (turnwise env fuel job.stream turns (seat job.stream c sim')))
        ↔ ∃ fuel, ¬ Exhausted (toCompletion env fuel (seat job.stream c sim')))
      ∧ (∀ fuel turns fuel',
          ¬ Exhausted (turnwise env fuel job.stream turns (seat job.stream c sim')) →
          ¬ Exhausted (toCompletion env fuel' (seat job.stream c sim')) →
          Agrees (turnwise env fuel job.stream turns (seat job.stream c sim'))
            (toCompletion env fuel' (seat job.stream c sim')))
      ∧ ∀ fuel turns, aliveAtTurns env fuel job.stream turns (seat job.stream c sim') = true →
          (drive env fuel turns job sim).1 =
              answer (turnwise env fuel job.stream turns (seat job.stream c sim'))
            ∧ (¬ Exhausted (turnwise env fuel job.stream turns (seat job.stream c sim')) →
              (drive env fuel turns job sim).2.2 =
                (final (turnwise env fuel job.stream turns
                  (seat job.stream c sim'))).toSimulation) := by
  have hhalt : sim.halt.Precedes sim'.halt := by
    have htaken := takeUp_effects (S := fun s s' => s.halt.Precedes s'.halt) precedes_effects env
      job sim
    rwa [start] at htaken
  have hseated : Seated job.stream (seat job.stream c sim') := by
    apply seated_seat
    rw [hhalt.eq_of_upcoming_nil untouched, untouched]
  -- enough fuel for a run that ends as the turns do, and any more will do
  have henough (fuel turns : Nat)
      (h : ¬ Exhausted (turnwise env fuel job.stream turns (seat job.stream c sim'))) (more : Nat) :
      Agrees (turnwise env fuel job.stream turns (seat job.stream c sim'))
        (toCompletion env (turns * fuel + 1 + more) (seat job.stream c sim')) := by
    cases turns with
    | zero => exact absurd trivial h
    | succ turns =>
      refine (turns_below_toCompletion assembled ?_ hseated rfl).resolve_left h
      rw [Nat.succ_mul]
      omega
  refine ⟨⟨?_, ?_⟩, ?_, fun fuel turns halive => drive_of_alone start halive⟩
  · rintro ⟨fuel, turns, h⟩
    refine ⟨turns * fuel + 1, fun hout => h ?_⟩
    exact (henough fuel turns h 0).exhausted.2 hout
  · rintro ⟨fuel, h⟩
    refine ⟨fuel, fuel + 1, fun hout => h ?_⟩
    have hbelow := toCompletion_below_turns assembled (Nat.le_refl fuel) (Nat.le_refl fuel)
      (Nat.le_refl fuel) hseated rfl
    exact (hbelow.resolve_left h).exhausted.2 hout
  · intro fuel turns fuel' hturns hrun
    have hmore := refines_toCompletion env (Nat.le_add_left fuel' (turns * fuel + 1))
      (seat job.stream c sim') (seat job.stream c sim') rfl
    exact (henough fuel turns hturns fuel').trans (hmore.resolve_left hrun).symm

/-- A patch is painted in a procedure, and once more after it. -/
def dauber : ProgramDef :=
  ⟨[.ofBody "go"
      [.ofCommand (.call "paint" 1),
        ⟨.ifThen, [.constant (.boolean true)],
          [[⟨.setVariable .patch 3, [.constant (.number 25)], [], .zero⟩]], .zero⟩],
    .ofBody "paint" [⟨.setVariable .patch 3, [.constant (.number 15)], [], .zero⟩]]⟩

def dauberEnvironment : Environment :=
  ⟨dauber.layout, .default⟩

def dauberSimulation : Simulation :=
  ⟨World.build .default, .ofMain (.ofSeed 0), #[], .steady false⟩

def dauberJob : Job :=
  .ofAgents ⟨.patch, [.patch 0], true⟩ 0 0 Streams.main

/-- A patch that paints takes three turns, and ends as if it had taken one. -/
theorem turnwise_agrees_toCompletion_dauber :
    ∃ c sim, dauberJob.takeUp dauberEnvironment dauberSimulation = (.ok [c], sim)
      ∧ Exhausted (turnwise dauberEnvironment 9 Streams.main 2 (seat Streams.main c sim))
      ∧ ¬ Exhausted (turnwise dauberEnvironment 9 Streams.main 3 (seat Streams.main c sim))
      ∧ Agrees (turnwise dauberEnvironment 9 Streams.main 3 (seat Streams.main c sim))
        (toCompletion dauberEnvironment 9 (seat Streams.main c sim))
      ∧ (drive dauberEnvironment 9 3 dauberJob dauberSimulation).2.2 =
        (final (turnwise dauberEnvironment 9 Streams.main 3
          (seat Streams.main c sim))).toSimulation := by
  have hassembled : dauber.assemble (World.build .default) false = .ok dauberEnvironment.program :=
    rfl
  obtain ⟨_, hagrees, hsteps⟩ := turnwise_agrees_toCompletion hassembled rfl
    (rfl : dauberJob.takeUp dauberEnvironment dauberSimulation = (.ok [_], _))
  refine ⟨_, _, rfl, ?_, ?_, hagrees 9 3 9 ?_ ?_, (hsteps 9 3 ?_).2 ?_⟩
  all_goals decide +kernel

end Swarm.Job
