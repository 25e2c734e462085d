import Swarm.Job
import Swarm.Program.Assemble
import Swarm.World.Spec

/-!
# The engine

An engine holds a simulation and a program and runs jobs on them.

## Main definitions

* `Engine`, `Engine.ofProgram`
* `Engine.job`: a job by the name of its procedure
* `Engine.step`, `Engine.run`: one step, and all steps up to the limit
* `Engine.runProcedure`: a procedure from start to end
* `Outcome`: how a step or a run ended
-/

namespace Swarm

open Swarm.Random (Stream)

/-- How a step or a run of a job ended. -/
inductive Outcome where
  /-- Agents have work left. -/
  | continuing
  /-- No agent has work left. -/
  | finished
  /-- A fault ended the job. -/
  | failed (f : Fault)
  /-- A defect of the program ended the job. -/
  | defect (f : Fault)
  /-- The fuel ran out. -/
  | exhausted

/-- A simulation and the program that runs on it. -/
structure Engine where
  simulation : Simulation
  program : Program
  limits : Limits
  /-- Whether nobody is told what happens during a run. -/
  muted : Bool

namespace Engine

/-- An engine on a fresh world. -/
def ofProgram (w : World) (main : Stream) (program : Program) : Engine where
  simulation := ⟨w, .ofMain main, #[], .steady false⟩
  program := program
  limits := .default
  muted := false

/-- What does not change during a step. -/
def environment (e : Engine) : Environment :=
  ⟨e.program, e.limits⟩

/-- The world that programs run in. -/
def world (e : Engine) : World :=
  e.simulation.world

/-- Replace the world. -/
def setWorld (e : Engine) (w : World) : Engine :=
  { e with simulation := { e.simulation with world := w } }

/-- Touch the halt flag: from now on it will be found as given. -/
def setHalt (e : Engine) (h : HaltFlag) : Engine :=
  { e with simulation := { e.simulation with halt := h } }

/-- A stream of the store. -/
def stream (e : Engine) (r : StreamRef) : Stream :=
  e.simulation.streams.get r

/-- Replace a stream of the store. -/
def setStream (e : Engine) (r : StreamRef) (s : Stream) : Engine :=
  { e with simulation := { e.simulation with streams := e.simulation.streams.set r s } }

/-- Add a stream to the store. -/
def addStream (e : Engine) (s : Stream) : StreamRef × Engine :=
  let (r, streams) := e.simulation.streams.add s
  (r, { e with simulation := { e.simulation with streams := streams } })

/-- A job on the main stream. A procedure with inputs cannot be run as a job. -/
def job (e : Engine) (procedure : String) (agents : AgentSet) : Except Fault Job := do
  let (index, q) ← e.program.lookup procedure
  if 0 < q.inputs then throw (Fault.ofCause (.jobWithInputs q.name q.inputs))
  return .ofAgents agents index 0 Streams.main

/-- How the answer of a job's step ends the engine's step. -/
def outcome : Except Stop Bool → Outcome
  | .ok true => .finished
  | .ok false => .continuing
  | .error (.fault f) => if f.isFatal then .defect f else .failed f
  | .error .exhausted => .exhausted

/-- One step of a job. A finished job stays as it is. -/
def stepWith (fuel : Nat) : Engine → Job → Outcome × Job × Engine
  | ⟨sim, program, limits, muted⟩, job =>
    if job.isFinished then (.finished, job, ⟨sim, program, limits, muted⟩)
    else
      let env : Environment := ⟨program, limits⟩
      let (answer, job, sim) :=
        if muted then job.silentStep env fuel sim else job.step env fuel sim
      (outcome answer, job, ⟨sim, program, limits, muted⟩)

/-- Steps of a job until it ends, at most `steps` of them. -/
def runSteps (fuel : Nat) : Nat → Engine → Job → Outcome × Job × Engine
  | 0, e, job => (.failed (.ofCause (.stepLimit e.limits.steps)), job.abort, e)
  | steps + 1, e, job =>
    match e.stepWith fuel job with
    | (.continuing, job, e) => runSteps fuel steps e job
    | ended => ended

/-- One step of a job. -/
def step (e : Engine) (job : Job) : Outcome × Job × Engine :=
  e.stepWith Exec.ampleFuel job

/-- Run a job until it ends or the limit of steps is reached. -/
def run (e : Engine) (job : Job) : Outcome × Job × Engine :=
  runSteps Exec.ampleFuel e.limits.steps e job

/-- Run a procedure as a job. A job that cannot be made is a defect of the call. -/
def runProcedure (e : Engine) (procedure : String) (agents : AgentSet) : Outcome × Engine :=
  match e.job procedure agents with
  | .error f => (.defect f, e)
  | .ok job =>
    let (outcome, _, e) := e.run job
    (outcome, e)

end Engine

end Swarm
