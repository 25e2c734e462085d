import Swarm.Machine.Nested

/-!
# Commands

What each command does to the machine. Every command moves the instruction pointer or ends the
running agent's block.

Commands with one argument take it as a value, so that an argument known in advance need not be
evaluated; `Exec.perform` evaluates it first.

## Main definitions

* `Exec.performUnary`: a command with one argument, given its value
* `Exec.perform`: any command
* `Exec.execute`: an instruction, with faults recorded where they arose
-/

namespace Swarm.Exec

/-- Leave the running call, or end the agent's block at its base. -/
def leave : Exec Unit := do
  let c ← context
  if c.atBase then finish
  else
    let (frame, frames) ← ofExcept c.frames.pop
    modifyContext fun c => { c with frames := frames, ip := frame.returnIp }

/-- Evaluate arguments into the locals of a frame, from `slot` on. -/
def fillInputs (env : Environment) : Nat → List Expr → Frame → Exec Frame
  | _, [], frame => pure frame
  | slot, e :: rest, frame => do
    let v ← evaluate env e
    let frame ← ofExcept (frame.set slot v)
    fillInputs env (slot + 1) rest frame

/-- Call the procedure at a place. -/
def call (env : Environment) (i : Instruction) (index : Nat) : Exec Unit := do
  let q ← ofExcept (env.program.procedure index)
  let frame ← fillInputs env 0 i.args (.fresh index q.locals i.next)
  let frames ← ofExcept ((← context).frames.push frame)
  modifyContext fun c => { c with frames := frames, ip := 0 }

/-- Kill the running agent. -/
def die : Exec Unit := do
  let m ← get
  ofExcept (m.world.mortal m.context.agent)
  modify fun m => { m with world := m.world.remove m.context.agent }
  finish

/-- Tell observers the present values of slots. -/
def notifySlots : List (AgentRef × Nat) → Exec Unit
  | [] => pure ()
  | (a, slot) :: rest => do
    let v ← ofExcept ((← get).world.getVariable a slot)
    notify (.changed a slot v)
    notifySlots rest

/-- Check that a set given to `layout-spring` has a kind. -/
def checkKind (token : String) (s : AgentSet) (kind : AgentKind) : Exec Unit :=
  if s.kind = kind then pure ()
  else ofExcept (Argument.mismatch token ("a " ++ kind.name ++ " agentset") (.agentset s))

/-- Lay out springs between turtles. -/
def layoutSpring (env : Environment) (i : Instruction) : Exec Unit := do
  let token := i.command.token
  let nodes ← agentsetAt env i.args 0 token
  let links ← agentsetAt env i.args 1 token
  let constant ← numberAt env i.args 2 token
  let length ← numberAt env i.args 3 token
  let repulsion ← numberAt env i.args 4 token
  checkKind token nodes .turtle
  checkKind token links .link
  let w := (← get).world
  let (written, w) ← draw (w.layoutSpring nodes links ⟨constant, length, repulsion⟩)
  modify fun m => { m with world := w }
  notifySlots written
  goto i.next

/-- Run the block with a copy of the main stream. -/
def withLocalRandomness (env : Environment) (run : Exec Unit) (i : Instruction) : Exec Unit := do
  let c ← context
  withStreamCopy fun copy => runExclusive env run (.ofAgent c.agent) i.next copy
  goto i.offset

/-- Run the first block; after a runtime fault in it, go on with the second one. -/
def carefully (env : Environment) (run : Exec Unit) (i : Instruction) : Exec Unit := do
  let c ← context
  match ← attempt (runExclusive env run (.ofAgent c.agent) i.next c.stream) with
  | .ok _ => goto i.offset
  | .error (.fault f) =>
    if f.kind = .runtime then
      modifyContext fun c => { c with errorMessage := some f.message, ip := i.alternate }
    else throw (.fault f)
  | .error .exhausted => throw .exhausted

/-- Leave a counted loop at zero, and count down otherwise. -/
def countDown (i : Instruction) (slot : Nat) : Exec Unit := do
  let left ← ofExcept (Argument.number "repeat" (← getLocal slot))
  if left ≤ 0 then goto i.offset
  else
    setLocal slot (.number (left - 1))
    goto i.next

/-- Run the block for an agent or for each agent of a set. -/
def ask (env : Environment) (run : Exec Unit) (i : Instruction) (v : Value) : Exec Unit := do
  let m ← get
  match v with
  | .agent a => if !m.world.isAlive a then fail (.ofCause (.agentDead a.text))
  | _ => pure ()
  let s ← ofExcept (Argument.agents i.command.token v)
  runExclusive env run s i.next m.context.stream
  goto i.offset

/-- Create turtles from the stream of the running agent. -/
def spawn (count : Nat) : Exec AgentSet :=
  fun m =>
    let r := m.context.stream
    let (created, w, s) := m.world.createTurtles count (m.streams.get r)
    .ok created { m with world := w, streams := m.streams.set r s }

/-- Create turtles and run the block for each. Only the observer can. -/
def createTurtles (env : Environment) (run : Exec Unit) (i : Instruction) (v : Value) :
    Exec Unit := do
  let c ← context
  if c.agent.kind ≠ .observer then fail (.ofCause (.wrongAgent i.command.token c.agent.kind))
  let count ← ofExcept (Argument.count i.command.token v)
  let created ← spawn count
  runExclusive env run created i.next c.stream
  goto i.offset

/-- Go on at one of two places. -/
def branch (i : Instruction) (v : Value) (otherwise : Nat) : Exec Unit := do
  if ← ofExcept (Argument.boolean i.command.token v) then goto i.next else goto otherwise

/-- Carry out a command with one argument, given its value. -/
def performUnary (env : Environment) (run : Exec Unit) (i : Instruction) (v : Value) :
    Exec Unit := do
  match i.command with
  | .setVariable kind slot =>
    let m ← get
    let a ← ofExcept (Argument.target m.world m.context.agent kind i.command.token)
    writeVariable a slot v
    goto i.next
  | .letLocal slot =>
    setLocal slot v
    goto i.next
  | .setLocal slot =>
    setLocal slot v
    goto i.next
  | .print =>
    notify (.output v.text)
    goto i.next
  | .ask => ask env run i v
  | .createTurtles => createTurtles env run i v
  | .ifThen => branch i v i.offset
  | .ifElse => branch i v i.alternate
  | .whileTrue => branch i v i.offset
  | .repeatTimes slot =>
    let count ← ofExcept (Argument.count i.command.token v)
    setLocal slot (.number (Float.ofNat count))
    goto i.next
  | c => fail (.ofDefect (.notUnaryCommand c.token))

/-- Carry out a command, evaluating its arguments. -/
def perform (env : Environment) (run : Exec Unit) (i : Instruction) : Exec Unit := do
  if i.command.isUnary then
    let v ← evaluateAt env i.args 0
    performUnary env run i v
  else
    match i.command with
    | .withLocalRandomness => withLocalRandomness env run i
    | .carefully => carefully env run i
    | .call _ index => call env i index
    | .stop => leave
    | .ret => leave
    | .die => die
    | .layoutSpring => layoutSpring env i
    | .goto => goto i.offset
    | .repeatCheck slot => countDown i slot
    | .done => finish
    | c => fail (.ofDefect (.noGenericEntry c.token))

/-- Record the instruction in which a fault arose. -/
def bindInstruction (env : Environment) (i : Instruction) (m : Machine) (f : Fault) : Fault :=
  (m.view env).bind (i.command.describe m.world.variableName) i.position f

/-- Carry out an instruction. A fault is recorded with it unless it arose further inside. -/
def execute (env : Environment) (run : Exec Unit) (i : Instruction) : Exec Unit :=
  mapFault (bindInstruction env i) <|
    match i.known with
    | some v => performUnary env run i v
    | none => perform env run i

end Swarm.Exec
