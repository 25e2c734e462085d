import Swarm.Machine.Perform

/-!
# Runs

An agent runs instruction after instruction: either to the end of its block, or until an
instruction that ends its turn in a concurrent step. Both are bounded by fuel, one unit for each
instruction; a block run as a nested job has the fuel that is left at its command.

## Main definitions

* `Exec.readHalt`: a reading of the halt flag
* `Exec.fetch`: the instruction to carry out next
* `Exec.toCompletion`: the run to the end of the block
* `Exec.untilSwitch`: the run to the end of the turn
-/

namespace Swarm.Exec

/-- Read the halt flag. -/
def readHalt : Exec Bool := do
  let raised := (← get).halt.isRaised
  modify fun m => { m with halt := m.halt.later }
  return raised

/-- The instruction to carry out next, unless the halt flag is found raised. -/
def fetch (env : Environment) : Exec Instruction := do
  if ← readHalt then fail (.ofCause .halted)
  let c ← context
  ofExcept (env.program.instruction c.procedure c.ip)

/-- Whether the next instruction would only end the agent's block. -/
def atTerminal (env : Environment) : Exec Bool := do
  let c ← context
  let i ← ofExcept (env.program.instruction c.procedure c.ip)
  match i.command with
  | .done => return true
  | .ret => return c.atBase
  | .stop => return c.atBase
  | _ => return false

/-- Run to the end of the agent's block. -/
def toCompletion (env : Environment) : Nat → Exec Unit
  | 0 => do
    if (← context).finished then return ()
    throw .exhausted
  | fuel + 1 => do
    if (← context).finished then return ()
    let i ← fetch env
    execute env (toCompletion env fuel) i
    toCompletion env fuel

/-- Run until an instruction that ends the agent's turn, or to the end of its block. -/
def untilSwitch (env : Environment) : Nat → Exec Unit
  | 0 => throw .exhausted
  | fuel + 1 => do
    let i ← fetch env
    execute env (toCompletion env fuel) i
    if (← context).finished then return ()
    if i.switches then
      let ended ← atTerminal env
      modifyContext fun c => { c with finished := ended }
    else untilSwitch env fuel

/-- Fuel for runs that are bounded by nothing else. -/
def ampleFuel : Nat := Nat.pow 2 60

end Swarm.Exec
