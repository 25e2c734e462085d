import Swarm.Proofs.Engine.Failure
import Swarm.Proofs.Job.Effects
import Swarm.Proofs.Provenance.Instruction

/-!
# Faults of runs

A run fails with a fault that an expression or an instruction raised, or because there was nothing
to fetch, or because too many steps were taken. What holds of all these faults as they are raised,
and is kept when the place of a fault is recorded, therefore holds of every fault that ends a run, at
any depth of nested jobs.

## Main definitions

* `Fault.Lasting`: what holds of all faults as they are raised, and is kept by recording them
* `Outcome.Faulty`: an outcome in which a fault has a property

## Main results

* `Exec.failsWith_execute`, `Exec.failsWith_toCompletion`, `Exec.failsWith_untilSwitch`:
  instructions and runs of one agent
* `Engine.faulty_stepWith`, `Engine.faulty_runSteps`: steps and runs of jobs
-/

namespace Swarm

open Exec

/-- What holds of all faults that arise while code is run, and is kept by recording them. -/
structure Fault.Lasting (P : Fault → Prop) : Prop where
  /-- Expressions and instructions raise such faults. -/
  own : ∀ f : Fault, f.Own → P f
  /-- There was nothing to fetch, or there was no place to start at. -/
  fetch : ∀ f : Fault, f.kind = .halted ∨ f.kind = .internalConsistency → P f
  recorded : ∀ (v : View) (primitive : String) (position : Position) (f : Fault),
    P f → P (v.bind primitive position f)
  stepLimit : ∀ limit, P (.ofCause (.stepLimit limit))

namespace Exec

variable {P : Fault → Prop} (lasting : Fault.Lasting P) (env : Environment)
include lasting

theorem failsWith_fetch : FailsWith P (fetch env) :=
  fun _ f _ h => lasting.fetch f (kind_of_fetch h)

/-- If the runs of nested jobs fail with such faults only, then so does the instruction. -/
theorem failsWith_execute {run : Exec Unit} (hrun : FailsWith P run) (i : Instruction) :
    FailsWith P (execute env run i) := by
  intro m f m' h
  rw [execute_eq_carryOut] at h
  obtain ⟨g, hg, rfl⟩ := mapFault_eq_fault h
  refine lasting.recorded _ _ _ g ?_
  cases arises_of_carryOut hg with
  | @argument a m₁ _ ha =>
    exact stopsWith_evaluate (P := Stop.Fails P) (fun f hf => lasting.own f hf.own)
      lasting.recorded env a m₁ (.fault g) m' ha
  | nested _ hk => exact hrun _ _ _ hk
  | own hown _ => exact lasting.own g hown

theorem failsWith_toCompletion (fuel : Nat) : FailsWith P (toCompletion env fuel) := by
  induction fuel with
  | zero =>
    apply failsWith_context
    intro c
    split
    · exact failsWith_pure ()
    · exact fun _ _ _ h => by cases h
  | succ fuel ih =>
    apply failsWith_context
    intro c
    split
    · exact failsWith_pure ()
    · exact (failsWith_fetch lasting env).bind fun i =>
        (failsWith_execute lasting env ih i).bind fun _ => ih

theorem failsWith_atTerminal : FailsWith P (atTerminal env) := by
  apply failsWith_context
  intro c
  have hinstruction : Except.FailsWith P (env.program.instruction c.procedure c.ip) :=
    fun f hf => lasting.fetch f (.inr (Program.kind_of_instruction hf))
  apply (failsWith_ofExcept hinstruction).bind
  intro i
  split <;> exact failsWith_pure _

theorem failsWith_untilSwitch (fuel : Nat) : FailsWith P (untilSwitch env fuel) := by
  induction fuel with
  | zero => exact fun _ _ _ h => by cases h
  | succ fuel ih =>
    rw [untilSwitch]
    apply (failsWith_fetch lasting env).bind
    intro i
    apply (failsWith_execute lasting env (failsWith_toCompletion lasting env fuel) i).bind
    intro _
    apply failsWith_context
    intro c
    split
    · exact failsWith_pure ()
    · split
      · exact (failsWith_atTerminal lasting env).bind fun ended => failsWith_modify _
      · exact ih

end Exec

namespace Job

variable {P : Fault → Prop} {env : Environment} {fuel : Nat} {stream : StreamRef}
  {sim sim' : Simulation} {f : Fault}

/-- The turns of a step fail with such faults only. -/
theorem fault_of_turns (lasting : Fault.Lasting P) {cursors : List Cursor}
    (h : turns env fuel stream cursors sim = (.error (.fault f), sim')) : P f := by
  have hturn (c : Cursor) (sim : Simulation) :
      Answers (fun _ => True) (fun e => ∀ f, e = .fault f → P f) (fun _ => True)
        (turn env fuel stream c sim) := by
    refine ⟨fun _ _ _ => trivial, fun e sim' ht f hf => ?_, trivial⟩
    rcases hrun : untilSwitch env fuel (seat stream c sim) with ⟨_, m⟩ | ⟨e, m⟩
    · rw [turn_of_ok hrun] at ht
      cases ht
    · rw [turn_of_error hrun] at ht
      cases ht
      exact failsWith_untilSwitch lasting env fuel _ f m (hf ▸ hrun)
  exact (answers_turns (Q := fun _ => True) cursors (fun c _ sim _ => hturn c sim) trivial).reason
    (.fault f) sim' h f rfl

end Job

/-- If a fault ended the run, it has a property; it is a defect just if the outcome says so. -/
def Outcome.Faulty (P : Fault → Prop) : Outcome → Prop
  | .failed f => P f ∧ f.isFatal = false
  | .defect f => P f ∧ f.isFatal = true
  | _ => True

namespace Engine

variable {P : Fault → Prop}

theorem faulty_outcome {answer : Except Stop Bool} (h : ∀ f, answer = .error (.fault f) → P f) :
    (outcome answer).Faulty P := by
  match answer with
  | .ok true => trivial
  | .ok false => trivial
  | .error .exhausted => trivial
  | .error (.fault f) =>
    rw [outcome]
    cases hfatal : f.isFatal with
    | true => exact ⟨h f rfl, hfatal⟩
    | false => exact ⟨h f rfl, hfatal⟩

/-- A step of a job ends with such faults only. -/
theorem faulty_stepWith (lasting : Fault.Lasting P) (e : Engine) (fuel : Nat) (job : Job) :
    (e.stepWith fuel job).1.Faulty P := by
  have hends := ends_stepWith e fuel job
  generalize e.stepWith fuel job = after at hends ⊢
  cases hends with
  | idle _ => trivial
  | unstarted _ => exact ⟨lasting.fetch _ (.inr rfl), rfl⟩
  | failed _ _ hturns =>
    refine faulty_outcome fun f hf => ?_
    cases hf
    exact Job.fault_of_turns lasting hturns
  | taken _ _ _ => exact faulty_outcome nofun

/-- All steps of a job end with such faults only. -/
theorem faulty_runSteps (lasting : Fault.Lasting P) (fuel steps : Nat) (e : Engine) (job : Job) :
    (runSteps fuel steps e job).1.Faulty P := by
  induction steps generalizing e job with
  | zero => exact ⟨lasting.stepLimit _, rfl⟩
  | succ steps ih =>
    have hstep := faulty_stepWith lasting e fuel job
    rw [runSteps]
    rcases hr : e.stepWith fuel job with ⟨o, job', e'⟩
    rw [hr] at hstep
    cases o with
    | continuing => exact ih e' job'
    | _ => exact hstep

end Engine

end Swarm
