import Swarm.Proofs.Engine.Failure
import Swarm.Proofs.Exec.Enclosure
import Swarm.Proofs.Job.Effects

/-!
# Faults that surface

A fault arises while some agent of a job takes its turn, inside of any number of constructs. If no
construct around it catches it, it ends the turn, the step of the job and the step of the engine,
which hands it on as it is. A runtime fault inside of the first block of a `carefully` ends nothing
but this block.

## Main definitions

* `Job.TurnOf`: a step comes to the turn of a cursor
* `Engine.Executing`: a step comes to a machine inside of enclosures

## Main results

* `Engine.Executing.outcome_of_error`: a fault that ends a turn is the outcome of the step
* `Engine.Executing.outcome_of_halted`: a halt in the midst of a step is the outcome of the step
* `Engine.faults_surface_or_are_caught`: what becomes of the fault of an instruction
-/

namespace Swarm

open Exec

namespace Job

/-- A step comes to the turn of a cursor, after the turns of the live agents before it. -/
inductive TurnOf (env : Environment) (fuel : Nat) (stream : StreamRef) :
    List Cursor → Simulation → Cursor → Simulation → Prop where
  | here {c : Cursor} {rest : List Cursor} {sim : Simulation} :
    sim.world.isAlive c.agent = true → TurnOf env fuel stream (c :: rest) sim c sim
  | skip {c d : Cursor} {rest : List Cursor} {sim sim' : Simulation} :
    sim.world.isAlive d.agent = false → TurnOf env fuel stream rest sim c sim' →
    TurnOf env fuel stream (d :: rest) sim c sim'
  | next {c d : Cursor} {rest : List Cursor} {sim sim₁ sim' : Simulation} {after : Context} :
    sim.world.isAlive d.agent = true → turn env fuel stream d sim = (.ok after, sim₁) →
    TurnOf env fuel stream rest sim₁ c sim' → TurnOf env fuel stream (d :: rest) sim c sim'

/-- A turn that fails ends the turns of the step. -/
theorem turns_of_error {env : Environment} {fuel : Nat} {stream : StreamRef}
    {cursors : List Cursor} {sim sim' sim'' : Simulation} {c : Cursor} {stop : Stop}
    (h : TurnOf env fuel stream cursors sim c sim')
    (fails : turn env fuel stream c sim' = (.error stop, sim'')) :
    turns env fuel stream cursors sim = (.error stop, sim'') := by
  induction h with
  | here alive =>
    rw [turns, if_pos alive, fails]
  | skip dead _ ih =>
    rw [turns, if_neg (by simp [dead])]
    exact ih fails
  | next alive hturn _ ih =>
    rw [turns, if_pos alive, hturn]
    simp only [ih fails]

end Job

namespace Engine

/-- A step of the engine comes to a machine inside of enclosures, in a turn that started at
`start`. -/
inductive Executing (e : Engine) (fuel : Nat) (job : Job) (start : Machine)
    (path : List Enclosure) (left : Nat) (m : Machine) : Prop where
  | intro {cursors : List Cursor} {c : Cursor} {sim sim' : Simulation} :
    job.isFinished = false → job.takeUp e.environment e.backstage = (.ok cursors, sim) →
    Job.TurnOf e.environment fuel job.stream cursors sim c sim' →
    start = Job.seat job.stream c sim' → Within e.environment fuel start path left m →
    Executing e fuel job start path left m

variable {e : Engine} {fuel left : Nat} {job : Job} {start m m' : Machine}
  {path outer : List Enclosure} {f : Fault}

/-- The step stays in the turn. -/
theorem Executing.within (h : Executing e fuel job start path left m) :
    Within e.environment fuel start path left m := by
  obtain ⟨_, _, _, _, hwithin⟩ := h
  exact hwithin

theorem Executing.of_within {left' : Nat} (h : Executing e fuel job start path left m)
    (hwithin : Within e.environment fuel start outer left' m') :
    Executing e fuel job start outer left' m' := by
  obtain ⟨hpending, htake, hturn, hstart, _⟩ := h
  exact ⟨hpending, htake, hturn, hstart, hwithin⟩

/-- A fault that ends a turn is the outcome of the step. -/
theorem Executing.outcome_of_error (h : Executing e fuel job start path left m)
    (fails : untilSwitch e.environment fuel start = .error (.fault f) m') :
    (e.stepWith fuel job).1 = if f.isFatal then .defect f else .failed f := by
  obtain ⟨hpending, htake, hturn, rfl, _⟩ := h
  have hturns := Job.turns_of_error hturn (Job.turn_of_error fails)
  rw [stepWith_of_pending hpending, Job.step, htake]
  simp only [hturns]
  rfl

/-- A halt that an agent finds before an instruction, at any depth of nested jobs, is how the step
fails. -/
theorem Executing.outcome_of_halted (h : Executing e fuel job start path (left + 1) m)
    (raised : m.halt.isRaised = true) : (e.stepWith fuel job).1 = .failed (.ofCause .halted) := by
  have fails : (fetch e.environment >>= execute e.environment (toCompletion e.environment left)) m =
      .error (.fault (.ofCause .halted)) m.haltRead := bind_of_error (fetch_of_halted raised)
  obtain ⟨k, hk⟩ := h.within.surfaces fails fun _ _ _ => by rintro ⟨⟩
  rw [h.outcome_of_error hk]
  rfl

/-- Let an instruction fail in the midst of a step, at any depth of nested jobs, or let the run be
halted before it. The fault needs no further record. If it is no runtime fault, or if no `carefully`
around it runs its first block, it is the outcome of the step as it is, a defect or a failure by its
class. Otherwise the innermost such `carefully` catches it: the agent that runs the construct goes
on at the second block with the message of the fault, in the call and as deep as before and inside
of as many nested jobs, and the step with it; if the construct ends turns, the turn of the agent
ends there. -/
theorem faults_surface_or_are_caught (executing : Executing e fuel job start path (left + 1) m)
    (fails : (fetch e.environment >>= execute e.environment (toCompletion e.environment left)) m =
      .error (.fault f) m') :
    Site.isOpen f = false
      ∧ (f.kind ≠ .runtime → (e.stepWith fuel job).1 = if f.isFatal then .defect f else .failed f)
      ∧ (f.kind = .runtime → (∀ x ∈ path, ¬ x.Catches) → (e.stepWith fuel job).1 = .failed f)
      ∧ (f.kind = .runtime → ∀ inner x outer, path = inner ++ x :: outer →
        (∀ y ∈ inner, ¬ y.Catches) → x.Catches →
        ∃ after, execute e.environment (toCompletion e.environment x.fuel) x.instruction x.machine =
            .ok () after
          ∧ Handled x.instruction f x.machine after
          ∧ (outer ≠ [] ∨ x.instruction.switches = false →
            Executing e fuel job start outer x.fuel after)
          ∧ (outer = [] → x.instruction.switches = true →
            untilSwitch e.environment fuel start = endTurn e.environment after)) := by
  have hwithin := executing.within
  refine ⟨isOpen_of_step fails, fun kind => ?_, fun kind uncaught => ?_, ?_⟩
  · obtain ⟨k, hk⟩ := hwithin.surfaces fails fun _ _ _ => kind
    exact executing.outcome_of_error hk
  · obtain ⟨k, hk⟩ := hwithin.surfaces fails fun x hx hc => absurd hc (uncaught x hx)
    rw [executing.outcome_of_error hk, Fault.isFatal, kind]
    rfl
  · rintro kind inner x outer rfl uncaught catches
    obtain ⟨after, hexecute, hhandled, hgoes, hends⟩ :=
      hwithin.caught fails kind uncaught catches
    exact ⟨after, hexecute, hhandled, fun goes => executing.of_within (hgoes goes), hends⟩

/-- An engine whose observer asks a patch for a member of an empty list, and prints what went
wrong. -/
def inquirer : Engine :=
  .ofProgram (World.build .default) (.ofSeed 0)
    (ProgramDef.layout ⟨[.ofBody "go"
      [⟨.carefully, [],
        [[⟨.ask, [.constant (.agent (.patch 0))],
            [[⟨.print, [⟨.oneOf, [.constant (.list [])], .zero⟩], [], .zero⟩]], .zero⟩],
          [⟨.print, [.ofReporter .errorMessage], [], .zero⟩]], .zero⟩]]⟩)

def inquiry : Job :=
  .ofAgents (.ofAgent .observer) 0 0 Streams.main

/-- A halt flag that is up at its third reading alone. -/
def briefHalt : HaltFlag :=
  ⟨[false, false, true], false⟩

/-- The fault of the patch passes through `ask`, and `carefully` catches it. If the run is halted
while the patch is about to run its block, the halt passes through both and is how the step fails,
though the flag is down again by then. -/
theorem faults_surface_or_are_caught_inquirer :
    (∃ start asked guarded m m' f,
      Executing inquirer 9 inquiry start [asked, guarded] 7 m
        ∧ (fetch inquirer.environment >>=
            execute inquirer.environment (toCompletion inquirer.environment 6)) m =
          .error (.fault f) m'
        ∧ f.kind = .runtime ∧ ¬ asked.Catches ∧ guarded.Catches
        ∧ ∃ after, Handled guarded.instruction f guarded.machine after
          ∧ Executing inquirer 9 inquiry start [] 8 after)
      ∧ ∃ start asked guarded m m',
        Executing (inquirer.setHalt briefHalt) 9 inquiry start [asked, guarded] 7 m
          ∧ (fetch inquirer.environment >>=
              execute inquirer.environment (toCompletion inquirer.environment 6)) m =
            .error (.fault (.ofCause .halted)) m'
          ∧ m'.halt.isRaised = false ∧ ¬ asked.Catches ∧ guarded.Catches
          ∧ ((inquirer.setHalt briefHalt).stepWith 9 inquiry).1 = .failed (.ofCause .halted) := by
  constructor
  · obtain ⟨start, asked, guarded, m, hexecuting, hasked, hguarded, hfuel, hgoes, m', f, hfails,
        hkind⟩ : ∃ start asked guarded m, Executing inquirer 9 inquiry start [asked, guarded] 7 m
          ∧ ¬ asked.Catches ∧ guarded.Catches ∧ guarded.fuel = 8
          ∧ guarded.instruction.switches = false
          ∧ ∃ m' f, (fetch inquirer.environment >>=
              execute inquirer.environment (toCompletion inquirer.environment 6)) m =
            .error (.fault f) m' ∧ f.kind = .runtime := by
      -- the block of `carefully`, and inside of it the block of `ask`
      refine ⟨_, ⟨_, _, 7⟩, ⟨_, _, 8⟩, _, ⟨rfl, rfl, .here rfl, rfl, .nested (.nested
        (.turn (.refl rfl)) rfl (.carefully rfl rfl ⟨by decide, rfl, .here rfl⟩) (.refl rfl)) rfl
        (.ask rfl rfl ?_ rfl ⟨by decide, rfl, .here rfl⟩) (.refl rfl)⟩, ?_, rfl, rfl, rfl, _, _,
        rfl, rfl⟩
      · rintro a ⟨⟩
        rfl
      · rintro ⟨⟩
    obtain ⟨_, _, _, hcaught⟩ := faults_surface_or_are_caught hexecuting hfails
    obtain ⟨after, _, hhandled, hnext, _⟩ := hcaught hkind [asked] guarded [] rfl
      (by simpa using hasked) hguarded
    rw [hfuel] at hnext
    exact ⟨start, asked, guarded, m, m', f, hexecuting, hfails, hkind, hasked, hguarded, after,
      hhandled, hnext (.inr hgoes)⟩
  · obtain ⟨start, asked, guarded, m, hexecuting, hasked, hguarded, m', hfails, hdown⟩ :
        ∃ start asked guarded m,
          Executing (inquirer.setHalt briefHalt) 9 inquiry start [asked, guarded] 7 m
            ∧ ¬ asked.Catches ∧ guarded.Catches
            ∧ ∃ m', (fetch inquirer.environment >>=
                execute inquirer.environment (toCompletion inquirer.environment 6)) m =
              .error (.fault (.ofCause .halted)) m' ∧ m'.halt.isRaised = false := by
      refine ⟨_, ⟨_, _, 7⟩, ⟨_, _, 8⟩, _, ⟨rfl, rfl, .here rfl, rfl, .nested (.nested
        (.turn (.refl rfl)) rfl (.carefully rfl rfl ⟨by decide, rfl, .here rfl⟩) (.refl rfl)) rfl
        (.ask rfl rfl ?_ rfl ⟨by decide, rfl, .here rfl⟩) (.refl rfl)⟩, ?_, rfl, _, rfl, rfl⟩
      · rintro a ⟨⟩
        rfl
      · rintro ⟨⟩
    exact ⟨start, asked, guarded, m, m', hexecuting, hfails, hdown, hasked, hguarded,
      (faults_surface_or_are_caught hexecuting hfails).2.1 (by rintro ⟨⟩)⟩

end Engine

end Swarm
