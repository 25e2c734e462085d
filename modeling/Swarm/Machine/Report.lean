import Swarm.Fault.Site
import Swarm.Machine.Argument
import Swarm.Machine.Frame
import Swarm.Program.Basic
import Swarm.World.Spring

/-!
# Reporting

The value of an expression. An expression sees the world and the running agent and changes
nothing but the stream that it draws from; this is what the type of `Expr.report` says.

## Main definitions

* `View`: what an expression sees
* `View.bind`: recording where a fault arose
* `Reporter.report0`, `Reporter.report1`, `Reporter.report2`: reporters applied to values
* `Expr.report`: the value of an expression

## Design notes

`and` and `or` do not look at their second argument if the first one decides. Reporters applied
to values that are already there have no such choice.
-/

namespace Swarm

/-- What an expression sees. -/
structure View where
  program : Program
  world : World
  /-- The running agent. -/
  agent : AgentRef
  /-- The frame of the running call. -/
  frame : Frame
  /-- The message of the fault caught last. -/
  errorMessage : Option String

namespace View

/-- The place of a primitive run by the viewing agent. -/
def site (v : View) (primitive : String) (position : Position) : Site where
  primitive := primitive
  procedure :=
    match v.program.procedure v.frame.procedure with
    | .ok q => q.name
    | .error _ => ""
  position := position
  agent := v.agent.text
  message := ""

/-- Record where a fault arose, unless that is already known. -/
def bind (v : View) (primitive : String) (position : Position) (f : Fault) : Fault :=
  if Site.isOpen f then (v.site primitive position).bind f else f

/-- Record the reporter in which a fault arose. -/
def bindReporter (v : View) (r : Reporter) (position : Position) (f : Fault) : Fault :=
  v.bind (r.describe v.world.variableName) position f

end View

namespace Draw

/-- Transform the fault of a failing computation. -/
def mapFault {α : Type} (change : Fault → Fault) (x : Draw α) : Draw α :=
  fun s =>
    match x s with
    | .ok a s => .ok a s
    | .error f s => .error (change f) s

end Draw

namespace Reporter

/-- The value of a reporter without arguments. -/
def report0 (v : View) (r : Reporter) (position : Position) : Except Fault Value :=
  match r with
  | .getVariable kind slot => do
    let a ← Argument.target v.world v.agent kind r.token
    v.world.getVariable a slot
  | .constant value => .ok value
  | .getLocal slot => v.frame.get slot
  | .self =>
    if v.agent.kind = .observer then .error (.ofCause (.wrongAgent r.token .observer))
    else .ok (.agent v.agent)
  | .turtles => .ok (.agentset (v.world.agents .turtle))
  | .patches => .ok (.agentset (v.world.agents .patch))
  | .links => .ok (.agentset (v.world.agents .link))
  | .errorMessage => .ok (.string (v.errorMessage.getD ""))
  | .unknown name => .error (.ofDefect (.unresolved name position.text))
  | r => .error (.ofDefect (.takesArguments r.token))

/-- A random integer between zero and `x`, of the sign of `x`. -/
def randomInteger (x : Float) : Draw Float :=
  let n := Number.truncate x
  if n > 0 then do
    let k ← Draw.ofStream (Random.Stream.below (Number.toNatSaturating Number.wordMax n))
    return Float.ofNat k
  else if n < 0 then do
    let k ← Draw.ofStream (Random.Stream.below (Number.toNatSaturating Number.wordMax (-n)))
    return -(Float.ofNat k)
  else return 0

/-- A random member of a list, or a random live agent of a set; nobody if no agent lives. -/
def pickOne (w : World) (token : String) (a : Value) : Draw Value :=
  match a with
  | .agentset s => do
    let live := (AgentSet.empty s.kind).insertAll (s.agents.filter w.isAlive)
    match ← Draw.ofStream (Random.Stream.pick live.agents) with
    | some a => return .agent a
    | none => return .nobody
  | .list [] => throw (Fault.ofCause .emptyList)
  | .list items => do
    match ← Draw.ofStream (Random.Stream.pick items) with
    | some item => return item
    | none => return .nobody
  | a => Draw.ofExcept (Argument.mismatch token "a list or agentset" a)

/-- The value of a reporter applied to one value. -/
def report1 (w : World) (r : Reporter) (a : Value) : Draw Value :=
  match r with
  | .count => do
    let s ← Draw.ofExcept (Argument.agentset r.token a)
    return .number (Float.ofNat (s.agents.filter w.isAlive).length)
  | .random => do
    let x ← Draw.ofExcept (Argument.number r.token a)
    return .number (← randomInteger x)
  | .randomFloat => do
    let x ← Draw.ofExcept (Argument.number r.token a)
    return .number (x * (← Draw.ofStream Random.Stream.unit))
  | .oneOf => pickOne w r.token a
  | .not => do
    let b ← Draw.ofExcept (Argument.boolean r.token a)
    return .boolean !b
  | r => throw (Fault.ofDefect (.notUnaryReporter r.token))

/-- The value of a reporter applied to two values. -/
def report2 (r : Reporter) (a b : Value) : Except Fault Value :=
  match r with
  | .equal => .ok (.boolean (a == b))
  | .and => do
    if ← Argument.boolean r.token a then return .boolean (← Argument.boolean r.token b)
    else return .boolean false
  | .or => do
    if ← Argument.boolean r.token a then return .boolean true
    else return .boolean (← Argument.boolean r.token b)
  | r => do
    let x ← Argument.number r.token a
    let y ← Argument.number r.token b
    match r with
    | .plus => return .number (x + y)
    | .minus => return .number (x - y)
    | .mult => return .number (x * y)
    | .div => if y == 0 then throw (Fault.ofCause .divisionByZero) else return .number (x / y)
    | .lt => return .boolean (x < y)
    | .gt => return .boolean (x > y)
    | r => throw (Fault.ofDefect (.notBinaryReporter r.token))

end Reporter

namespace Expr

/-- The value of an expression. A fault is recorded with the innermost expression in which it
arose. -/
def report (v : View) : Expr → Draw Value
  | ⟨reporter, args, position⟩ =>
    Draw.mapFault (v.bindReporter reporter position) <|
      match reporter, args with
      | .and, [a, b] => do
        let x ← report v a
        if ← Draw.ofExcept (Argument.boolean (Reporter.token .and) x) then
          let y ← report v b
          return .boolean (← Draw.ofExcept (Argument.boolean (Reporter.token .and) y))
        else return .boolean false
      | .or, [a, b] => do
        let x ← report v a
        if ← Draw.ofExcept (Argument.boolean (Reporter.token .or) x) then return .boolean true
        else
          let y ← report v b
          return .boolean (← Draw.ofExcept (Argument.boolean (Reporter.token .or) y))
      | r, [] => Draw.ofExcept (r.report0 v position)
      | r, [a] => do
        let x ← report v a
        r.report1 v.world x
      | r, [a, b] => do
        let x ← report v a
        let y ← report v b
        Draw.ofExcept (r.report2 x y)
      | r, args => throw (Fault.ofDefect (.argumentCount r.token args.length))

end Expr

end Swarm
