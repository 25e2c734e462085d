import Swarm.Value

/-!
# Primitives

The instruction set, in two shapes. A command has an effect and moves the instruction pointer; a
reporter computes a value for the primitive around it.

## Main definitions

* `Command`, `Reporter`
* `Command.arity`, `Command.blocks`, `Reporter.arity`: how many arguments and blocks they take
* `Command.switches`: whether the command ends the turn of an agent in a concurrent step
* `Command.describe`, `Reporter.describe`: names in listings and messages
-/

namespace Swarm

/-- A command. -/
inductive Command where
  /-- Set a variable of the running agent, of the patch under a turtle, or of the observer. -/
  | setVariable (kind : AgentKind) (slot : Nat)
  /-- Introduce a local. -/
  | letLocal (slot : Nat)
  /-- Assign a local. -/
  | setLocal (slot : Nat)
  /-- Run the block for an agent or for each agent of a set. -/
  | ask
  /-- Run the block with a private copy of the main stream. -/
  | withLocalRandomness
  /-- Create turtles and run the block for each. -/
  | createTurtles
  /-- Run the first block, and the second one after a runtime fault in it. -/
  | carefully
  | ifThen
  | ifElse
  /-- Run the block a number of times, counted in a local. -/
  | repeatTimes (slot : Nat)
  | whileTrue
  /-- Call a procedure; `index` is its place in the program once it is assembled. -/
  | call (procedure : String) (index : Nat)
  /-- Leave the running procedure. -/
  | stop
  /-- Kill the running agent. -/
  | die
  | print
  /-- Lay out turtles joined by springs. -/
  | layoutSpring
  /-- Jump; made by assembly only. -/
  | goto
  /-- Count a loop down and leave it at zero; made by assembly only. -/
  | repeatCheck (slot : Nat)
  /-- The end of a block run as a nested job; made by assembly only. -/
  | done
  /-- The end of a procedure; made by assembly only. -/
  | ret
deriving Repr, DecidableEq, Inhabited

namespace Command

/-- The name in listings and messages. -/
def token : Command → String
  | setVariable kind _ => "set-" ++ kind.name ++ "-variable"
  | letLocal _ => "let"
  | setLocal _ => "set-local"
  | ask => "ask"
  | withLocalRandomness => "with-local-randomness"
  | createTurtles => "create-turtles"
  | carefully => "carefully"
  | ifThen => "if"
  | ifElse => "ifelse"
  | repeatTimes _ => "repeat"
  | whileTrue => "while"
  | call .. => "call"
  | stop => "stop"
  | die => "die"
  | print => "print"
  | layoutSpring => "layout-spring"
  | goto => "goto"
  | repeatCheck _ => "repeat-check"
  | done => "done"
  | ret => "return"

/-- Number of arguments; `none` for a call, which takes the inputs of its procedure. -/
def arity : Command → Option Nat
  | setVariable .. => some 1
  | letLocal _ => some 1
  | setLocal _ => some 1
  | ask => some 1
  | createTurtles => some 1
  | ifThen => some 1
  | ifElse => some 1
  | repeatTimes _ => some 1
  | whileTrue => some 1
  | print => some 1
  | layoutSpring => some 5
  | call .. => none
  | _ => some 0

/-- Number of blocks. -/
def blocks : Command → Nat
  | ask => 1
  | withLocalRandomness => 1
  | createTurtles => 1
  | ifThen => 1
  | repeatTimes _ => 1
  | whileTrue => 1
  | ifElse => 2
  | carefully => 2
  | _ => 0

/-- Whether the command itself ends the turn of an agent in a concurrent step. -/
def switches : Command → Bool
  | setVariable .. => true
  | createTurtles => true
  | die => true
  | layoutSpring => true
  | _ => false

/-- Whether the command takes one argument. -/
def isUnary (c : Command) : Bool :=
  c.arity == some 1

/-- Whether the command runs a block as a nested job. -/
def isExclusive : Command → Bool
  | ask => true
  | withLocalRandomness => true
  | createTurtles => true
  | carefully => true
  | _ => false

/-- Whether the command ends a block or a procedure. -/
def isTerminal : Command → Bool
  | done => true
  | ret => true
  | _ => false

/-- Whether only assembly may produce the command. -/
def isSynthetic : Command → Bool
  | goto => true
  | repeatCheck _ => true
  | done => true
  | ret => true
  | _ => false

/-- The kind and slot of the variable that the command writes. -/
def slot? : Command → Option (AgentKind × Nat)
  | setVariable kind slot => some (kind, slot)
  | _ => none

/-- The local that the command writes, if source code chooses it. -/
def local? : Command → Option Nat
  | letLocal slot => some slot
  | setLocal slot => some slot
  | repeatTimes slot => some slot
  | _ => none

/-- The token with the parameter that tells instances apart; `nameOf` names variables. -/
def describe (nameOf : AgentKind → Nat → String) (c : Command) : String :=
  match c with
  | setVariable kind slot => c.token ++ ":" ++ nameOf kind slot
  | call procedure _ => c.token ++ ":" ++ procedure
  | _ => c.token

end Command

/-- A reporter. -/
inductive Reporter where
  | constant (value : Value)
  | getVariable (kind : AgentKind) (slot : Nat)
  | getLocal (slot : Nat)
  /-- The running agent. -/
  | self
  | turtles
  | patches
  | links
  /-- Number of live agents of a set. -/
  | count
  /-- A random integer. -/
  | random
  /-- A random real. -/
  | randomFloat
  /-- A random member of a list or set. -/
  | oneOf
  | plus
  | minus
  | mult
  | div
  | lt
  | gt
  | equal
  | not
  | and
  | or
  /-- The message of the fault caught by the enclosing `carefully`. -/
  | errorMessage
  /-- A name that was not resolved. -/
  | unknown (name : String)
deriving Inhabited

namespace Reporter

/-- The name in listings and messages. -/
def token : Reporter → String
  | constant _ => "constant"
  | getVariable kind _ => kind.name ++ "-variable"
  | getLocal _ => "local"
  | self => "self"
  | turtles => "turtles"
  | patches => "patches"
  | links => "links"
  | count => "count"
  | random => "random"
  | randomFloat => "random-float"
  | oneOf => "one-of"
  | plus => "+"
  | minus => "-"
  | mult => "*"
  | div => "/"
  | lt => "<"
  | gt => ">"
  | equal => "="
  | not => "not"
  | and => "and"
  | or => "or"
  | errorMessage => "error-message"
  | unknown _ => "unknown-identifier"

/-- Number of arguments. -/
def arity : Reporter → Nat
  | count => 1
  | random => 1
  | randomFloat => 1
  | oneOf => 1
  | not => 1
  | plus => 2
  | minus => 2
  | mult => 2
  | div => 2
  | lt => 2
  | gt => 2
  | equal => 2
  | and => 2
  | or => 2
  | _ => 0

/-- The kind and slot of the variable that the reporter reads. -/
def slot? : Reporter → Option (AgentKind × Nat)
  | getVariable kind slot => some (kind, slot)
  | _ => none

/-- The token with the parameter that tells instances apart; `nameOf` names variables. -/
def describe (nameOf : AgentKind → Nat → String) (r : Reporter) : String :=
  match r with
  | getVariable kind slot => r.token ++ ":" ++ nameOf kind slot
  | constant value => r.token ++ ":" ++ value.text
  | getLocal slot => r.token ++ ":" ++ toString slot
  | unknown name => r.token ++ ":" ++ name
  | _ => r.token

end Reporter

end Swarm
