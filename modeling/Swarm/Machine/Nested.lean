import Swarm.Machine.Basic

/-!
# Nested jobs

Some commands run their block as a job of its own: every agent of a set runs the block to its end
before the next one starts. Agents start with the frames of the enclosing context, see and change
its locals, and hand the frames on. Agents that died before their turn are skipped.

The functions take the computation that runs one agent to the end of its block as an argument.

## Main definitions

* `Exec.runAgent`: one agent's run
* `Exec.runAgents`: the runs of several agents
* `Exec.runExclusive`: a nested job
* `Exec.withStream`: a scope with another stream
* `Exec.withStreamCopy`: a scope with a copy of the main stream
-/

namespace Swarm.Exec

variable {α : Type}

/-- The context in which an agent runs a block from `entry` on. -/
def nestedContext (outer : Context) (a : AgentRef) (entry : Nat) (stream : StreamRef) : Context :=
  .resume ⟨a, entry, outer.frames, outer.frames.depth, none⟩ stream

/-- Let an agent run a block. The enclosing context gets the frames back as deep as they were,
whether or not the run fails. -/
def runAgent (run : Exec Unit) (entry : Nat) (stream : StreamRef) (a : AgentRef) : Exec Unit := do
  let outer ← context
  modifyContext fun _ => nestedContext outer a entry stream
  let result ← attempt run
  modifyContext fun inner => { outer with frames := inner.frames.unwindTo outer.frames.depth }
  resumeWith result

/-- Let the live agents of a list run a block one after another. -/
def runAgents (run : Exec Unit) (entry : Nat) (stream : StreamRef) : List AgentRef → Exec Unit
  | [] => pure ()
  | a :: rest => do
    if (← get).world.isAlive a then runAgent run entry stream a
    runAgents run entry stream rest

/-- Run a block as a nested job over a set. -/
def runExclusive (env : Environment) (run : Exec Unit) (s : AgentSet) (entry : Nat)
    (stream : StreamRef) : Exec Unit := do
  let m ← get
  if env.limits.nesting ≤ m.nesting then fail (.ofCause (.nesting env.limits.nesting))
  let order ← drawFrom stream (Draw.ofStream s.visitOrder)
  modify fun m => { m with nesting := m.nesting + 1 }
  let result ← attempt (runAgents run entry stream order)
  modify fun m => { m with nesting := m.nesting - 1 }
  resumeWith result

/-- Let the running agent draw from another stream during a computation. Afterwards it draws from
its own stream again, whether or not the computation fails. -/
def withStream (replacement : StreamRef) (x : Exec α) : Exec α := do
  let own := (← context).stream
  modifyContext fun c => { c with stream := replacement }
  let result ← attempt x
  modifyContext fun c => { c with stream := own }
  resumeWith result

/-- Run a computation with a stream that starts as a copy of the main one, and that is gone
afterwards. -/
def withStreamCopy (x : StreamRef → Exec Unit) : Exec Unit := do
  let (copy, streams) := (← get).streams.addCopy Streams.main
  modify fun m => { m with streams := streams }
  let result ← attempt (withStream copy (x copy))
  modify fun m => { m with streams := m.streams.truncate copy.index }
  resumeWith result

end Swarm.Exec
