import Swarm.Machine.Run
import Swarm.Program.Assemble

/-!
# Running trees

Statement trees run as they are written, without instructions and places: a block runs its
statements from left to right, and a construct runs its blocks. How a block ended says whether the
statements after it are run.

Runs are bounded by fuel here as well. A statement hands on one unit less to the statements inside
it, and a loop makes at most as many passes as it has fuel.

## Main definitions

* `Tree.Exit`: how a block ended
* `Tree.block`, `Tree.loop`: sequences and loops
* `Tree.construct`: a statement, given how blocks are run
* `Tree.statement`: a statement
* `Tree.agentBlock`: an agent's block

## Design notes

The effects of commands are those of the machine; what differs is how a run goes on after them.
Frames have places to return to and contexts have instruction pointers, which trees do not need:
they are zero or left alone. `goesOn` decides when a counted loop makes another pass.
-/

namespace Swarm.Tree

open Swarm.Exec

variable {α : Type}

/-- How a block ended. -/
inductive Exit where
  /-- After its last statement. -/
  | normal
  /-- The running call, or the agent's block at its base, is left. -/
  | stopped
  /-- The agent died. -/
  | died
deriving Repr, DecidableEq

/-- Go on unless the first part was left early. -/
def andThen (x next : Exec Exit) : Exec Exit := do
  match ← x with
  | .normal => next
  | exit => return exit

/-- Run statements from left to right. -/
def block (run : Statement → Exec Exit) : List Statement → Exec Exit
  | [] => return .normal
  | s :: rest => andThen (run s) (block run rest)

/-- Run a body as long as a check made before every pass allows. -/
def loop (check : Exec Bool) (body : Exec Exit) : Nat → Exec Exit
  | 0 => throw .exhausted
  | fuel + 1 => do
    if ← check then andThen body (loop check body fuel) else return .normal

/-- Record the command in which a fault arose. -/
def located (env : Environment) (c : Command) (position : Position) (x : Exec α) : Exec α :=
  mapFault (fun m f => (m.view env).bind (c.describe m.world.variableName) position f) x

-- ════════════════════════════════════════════════════════════════════════
-- Effects of commands
-- ════════════════════════════════════════════════════════════════════════

/-- Whether an argument is true. -/
def test (env : Environment) (c : Command) (args : List Expr) (position : Position) : Exec Bool :=
  located env c position do ofExcept (Argument.boolean c.token (← evaluateAt env args 0))

/-- Write a variable of the agent that the running one addresses. -/
def write (kind : AgentKind) (slot : Nat) (token : String) (v : Value) : Exec Unit := do
  let m ← get
  let a ← ofExcept (Argument.target m.world m.context.agent kind token)
  writeVariable a slot v

/-- Set the counter of a loop to a number without its fraction. -/
def startCount (slot : Nat) (token : String) (v : Value) : Exec Unit := do
  let count ← ofExcept (Argument.count token v)
  setLocal slot (.number (Float.ofNat count))

/-- Whether a counted loop makes another pass, which is counted. -/
def countPass (goesOn : Float → Bool) (slot : Nat) : Exec Bool := do
  let left ← ofExcept (Argument.number "repeat" (← getLocal slot))
  if goesOn left then
    setLocal slot (.number (left - 1))
    return true
  else return false

/-- A counter that is not spent: not at zero or below. An undefined counter is never spent. -/
def unspent (left : Float) : Bool :=
  !decide (left ≤ 0)

/-- Let an agent or the agents of a set run a block. -/
def ask (env : Environment) (run : Exec Unit) (entry : Nat) (token : String) (v : Value) :
    Exec Unit := do
  let m ← get
  match v with
  | .agent a => if !m.world.isAlive a then fail (.ofCause (.agentDead a.text))
  | _ => pure ()
  let s ← ofExcept (Argument.agents token v)
  runExclusive env run s entry m.context.stream

/-- Create turtles and let each run a block. -/
def createTurtles (env : Environment) (run : Exec Unit) (entry : Nat) (token : String)
    (v : Value) : Exec Unit := do
  let c ← context
  if c.agent.kind ≠ .observer then fail (.ofCause (.wrongAgent token c.agent.kind))
  let count ← ofExcept (Argument.count token v)
  let created ← spawn count
  runExclusive env run created entry c.stream

/-- Run a block with a copy of the main stream. -/
def withLocalRandomness (env : Environment) (run : Exec Unit) (entry : Nat) : Exec Unit := do
  let c ← context
  withStreamCopy fun copy => runExclusive env run (.ofAgent c.agent) entry copy

/-- Catch a runtime fault and keep its message; whether there was one. -/
def caught (x : Exec Unit) : Exec Bool := do
  match ← attempt x with
  | .ok _ => return false
  | .error (.fault f) =>
    if f.kind = .runtime then
      modifyContext fun c => { c with errorMessage := some f.message }
      return true
    else throw (.fault f)
  | .error .exhausted => throw .exhausted

/-- Run a block; whether there was a runtime fault in it. -/
def carefully (env : Environment) (run : Exec Unit) (entry : Nat) : Exec Bool := do
  let c ← context
  caught (runExclusive env run (.ofAgent c.agent) entry c.stream)

/-- Lay out springs between turtles. -/
def layoutSpring (env : Environment) (args : List Expr) (token : String) : Exec Unit := do
  let nodes ← agentsetAt env args 0 token
  let links ← agentsetAt env args 1 token
  let constant ← numberAt env args 2 token
  let length ← numberAt env args 3 token
  let repulsion ← numberAt env args 4 token
  checkKind token nodes .turtle
  checkKind token links .link
  let w := (← get).world
  let (written, w) ← draw (w.layoutSpring nodes links ⟨constant, length, repulsion⟩)
  modify fun m => { m with world := w }
  notifySlots written

/-- Evaluate arguments in the running call, and enter a call that gets them as its inputs. -/
def enterCall (env : Environment) (args : List Expr) (frame : Frame) : Exec Unit := do
  let frame ← fillInputs env 0 args frame
  let frames ← ofExcept ((← context).frames.push frame)
  modifyContext fun c => { c with frames := frames }

/-- Leave the running call. -/
def leaveCall : Exec Unit := do
  let (_, frames) ← ofExcept (← context).frames.pop
  modifyContext fun c => { c with frames := frames }

/-- Run the body of the call that was entered, and leave the call unless the agent died. -/
def callBody (body : Exec Exit) : Exec Exit := do
  match ← body with
  | .died => return .died
  | _ =>
    leaveCall
    return .normal

-- ════════════════════════════════════════════════════════════════════════
-- Statements
-- ════════════════════════════════════════════════════════════════════════

/-- An agent's block, given how blocks are run. A run that finds the halt flag raised does
nothing. -/
def agentBlock (run : List Statement → Exec Exit) (b : List Statement) : Exec Unit := do
  if ← readHalt then fail (.ofCause .halted)
  let _ ← run b
  finish

/-- Call the procedure at a place, given how blocks are run. -/
def callAt (d : ProgramDef) (env : Environment) (run : List Statement → Exec Exit) (c : Command)
    (args : List Expr) (position : Position) (index : Nat) : Exec Exit :=
  match d.procedures[index]? with
  | some p => do
    located env c position (enterCall env args (.fresh index p.locals 0))
    callBody (run p.body)
  | none => fail (.ofDefect (.noProcedure index))

/-- A statement with its callee resolved, given how blocks are run. -/
def construct (goesOn : Float → Bool) (d : ProgramDef) (env : Environment)
    (run : List Statement → Exec Exit) (fuel : Nat) (c : Command) (args : List Expr)
    (blocks : List (List Statement)) (position : Position) : Exec Exit := do
  let argument := evaluateAt env args 0
  match c, blocks with
  | .ifThen, [b] => if ← test env c args position then run b else return .normal
  | .ifElse, [b, e] => if ← test env c args position then run b else run e
  | .whileTrue, [b] => loop (test env c args position) (run b) fuel
  | .repeatTimes slot, [b] =>
    located env c position do startCount slot c.token (← argument)
    loop (located env (.repeatCheck slot) position (countPass goesOn slot)) (run b) fuel
  | .call _ index, [] => callAt d env run c args position index
  | .ask, [b] =>
    located env c position do ask env (agentBlock run b) 0 c.token (← argument)
    return .normal
  | .createTurtles, [b] =>
    located env c position do createTurtles env (agentBlock run b) 0 c.token (← argument)
    return .normal
  | .withLocalRandomness, [b] =>
    located env c position (withLocalRandomness env (agentBlock run b) 0)
    return .normal
  | .carefully, [b, e] =>
    if ← located env c position (carefully env (agentBlock run b) 0) then run e
    else return .normal
  | .stop, [] => return .stopped
  | .die, [] =>
    located env c position die
    return .died
  | .setVariable kind slot, [] =>
    located env c position do write kind slot c.token (← argument)
    return .normal
  | .letLocal slot, [] =>
    located env c position do setLocal slot (← argument)
    return .normal
  | .setLocal slot, [] =>
    located env c position do setLocal slot (← argument)
    return .normal
  | .print, [] =>
    located env c position do notify (.output (← argument).text)
    return .normal
  | .layoutSpring, [] =>
    located env c position (layoutSpring env args c.token)
    return .normal
  | c, _ => fail (.ofDefect (.noGenericEntry c.token))

/-- Run a statement. -/
def statement (goesOn : Float → Bool) (d : ProgramDef) (env : Environment) :
    Nat → Statement → Exec Exit
  | 0, _ => throw .exhausted
  | fuel + 1, s =>
    construct goesOn d env (block (statement goesOn d env fuel)) (fuel + 1)
      (s.command.resolve d.procedures) s.args s.blocks s.position

/-- Run the body of a procedure as the block of the running agent. -/
def procedure (goesOn : Float → Bool) (d : ProgramDef) (env : Environment) (fuel : Nat)
    (p : ProcedureDef) : Exec Unit :=
  agentBlock (block (statement goesOn d env fuel)) p.body

end Swarm.Tree
