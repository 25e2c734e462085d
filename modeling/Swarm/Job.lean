import Swarm.Machine.Run

/-!
# Jobs

A job lets the agents of a set run a procedure, all at the same time: each step visits every agent
with work left and lets it run until the end of its turn.

## Main definitions

* `Job`, `Job.pending`, `Job.isFinished`, `Job.abort`
* `Job.start`: the cursors of all agents, in the order of visit
* `Job.step`: one step of the job
-/

namespace Swarm

/-- A procedure run by the agents of a set. -/
structure Job where
  agents : AgentSet
  /-- The place of the procedure in the program. -/
  procedure : Nat
  /-- The instruction that agents start at. -/
  entry : Nat
  /-- The stream that agents draw from. -/
  stream : StreamRef
  /-- The agents with work left, once the job has started. -/
  cursors : Option (List Cursor)
  /-- Steps taken. -/
  steps : Nat

namespace Job

/-- A job that has not started. -/
def ofAgents (agents : AgentSet) (procedure entry : Nat) (stream : StreamRef) : Job :=
  ⟨agents, procedure, entry, stream, none, 0⟩

/-- Whether no agent has work left. -/
def isFinished (job : Job) : Bool :=
  match job.cursors with
  | some cursors => cursors.isEmpty
  | none => false

/-- Number of agents with work left. -/
def pending (job : Job) : Nat :=
  match job.cursors with
  | some cursors => cursors.length
  | none => job.agents.size

/-- Drop all work that is left. -/
def abort (job : Job) : Job :=
  { job with cursors := some [] }

/-- The cursors of all agents, in the order of visit. -/
def start (env : Environment) (job : Job) (sim : Simulation) :
    Except Fault (List Cursor) × Simulation :=
  match env.program.procedure job.procedure with
  | .error f => (.error f, sim)
  | .ok q =>
    let (order, s) := job.agents.visitOrder (sim.streams.get job.stream)
    let base := CallStack.ofFrame env.limits.callDepth (.fresh job.procedure q.locals 0)
    (.ok (order.map fun a => ⟨a, job.entry, base, 1, none⟩),
      { sim with streams := sim.streams.set job.stream s })

/-- The cursors of the agents with work left; a job that has not started is started. -/
def takeUp (env : Environment) (job : Job) (sim : Simulation) :
    Except Fault (List Cursor) × Simulation :=
  match job.cursors with
  | some cursors => (.ok cursors, sim)
  | none => job.start env sim

/-- Let an agent take its turn, and give its context after it. -/
def turn (env : Environment) (fuel : Nat) (stream : StreamRef) (c : Cursor) (sim : Simulation) :
    Except Stop Context × Simulation :=
  match Exec.untilSwitch env fuel { sim with nesting := 0, context := .resume c stream } with
  | .ok _ m => (.ok m.context, m.toSimulation)
  | .error e m => (.error e, m.toSimulation)

/-- Let the live agents take their turns in order, and give the cursors of those with work
left. -/
def turns (env : Environment) (fuel : Nat) (stream : StreamRef) :
    List Cursor → Simulation → Except Stop (List Cursor) × Simulation
  | [], sim => (.ok [], sim)
  | c :: rest, sim =>
    if sim.world.isAlive c.agent then
      match turn env fuel stream c sim with
      | (.error e, sim) => (.error e, sim)
      | (.ok after, sim) =>
        match turns env fuel stream rest sim with
        | (.error e, sim) => (.error e, sim)
        | (.ok pending, sim) =>
          (.ok (if after.finished then pending else after.toCursor :: pending), sim)
    else turns env fuel stream rest sim

/-- One step: start the job if need be, then let every agent take its turn. The answer is whether
the job is finished. A job whose agent fails is aborted. -/
def step (env : Environment) (fuel : Nat) (job : Job) (sim : Simulation) :
    Except Stop Bool × Job × Simulation :=
  match job.takeUp env sim with
  | (.error f, sim) => (.error (.fault f), job, sim)
  | (.ok cursors, sim) =>
    let job := { job with steps := job.steps + 1 }
    match turns env fuel job.stream cursors sim with
    | (.error e, sim) => (.error e, job.abort, sim)
    | (.ok pending, sim) => (.ok pending.isEmpty, { job with cursors := some pending }, sim)

/-- One step of which nobody is told. -/
def silentStep (env : Environment) (fuel : Nat) (job : Job) (sim : Simulation) :
    Except Stop Bool × Job × Simulation :=
  let told := sim.notices
  let (answer, job, sim) := job.step env fuel { sim with notices := #[] }
  (answer, job, { sim with notices := told })

end Job

end Swarm
