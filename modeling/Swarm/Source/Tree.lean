import Swarm.Source.Position
import Swarm.Source.Primitive

/-!
# Source programs

Programs as a compiler hands them over: procedures made of statements whose variables are
resolved to slots and whose blocks are still trees.

## Main definitions

* `Expr`: a reporter applied to expressions
* `Statement`: a command applied to expressions and blocks
* `ProcedureDef`, `ProgramDef`
-/

namespace Swarm

/-- A reporter with its arguments. -/
structure Expr where
  reporter : Reporter
  args : List Expr
  position : Position
deriving Inhabited

namespace Expr

/-- A reporter without arguments and position. -/
def ofReporter (reporter : Reporter) : Expr :=
  ⟨reporter, [], .zero⟩

/-- A constant without a position. -/
def constant (value : Value) : Expr :=
  ofReporter (.constant value)

/-- Add an argument. -/
def withArg (e : Expr) (arg : Expr) : Expr :=
  { e with args := e.args ++ [arg] }

/-- Set the position. -/
def atPosition (e : Expr) (position : Position) : Expr :=
  { e with position := position }

/-- The constant that the expression stands for, if its reporter is one. -/
def constant? (e : Expr) : Option Value :=
  match e.reporter with
  | .constant value => some value
  | _ => none

end Expr

/-- A command with its arguments and blocks. -/
structure Statement where
  command : Command
  args : List Expr
  blocks : List (List Statement)
  position : Position
deriving Inhabited

namespace Statement

/-- A command without arguments, blocks and position. -/
def ofCommand (command : Command) : Statement :=
  ⟨command, [], [], .zero⟩

/-- Add an argument. -/
def withArg (s : Statement) (arg : Expr) : Statement :=
  { s with args := s.args ++ [arg] }

/-- Add a block. -/
def withBlock (s : Statement) (block : List Statement) : Statement :=
  { s with blocks := s.blocks ++ [block] }

/-- Set the position. -/
def atPosition (s : Statement) (position : Position) : Statement :=
  { s with position := position }

end Statement

/-- A procedure before assembly. -/
structure ProcedureDef where
  name : String
  /-- Number of inputs, which take the first locals. -/
  inputs : Nat
  /-- Number of locals, inputs included. -/
  locals : Nat
  body : List Statement
deriving Inhabited

namespace ProcedureDef

/-- A procedure without inputs and locals. -/
def ofBody (name : String) (body : List Statement) : ProcedureDef :=
  ⟨name, 0, 0, body⟩

/-- Set the number of inputs, and make room for them among the locals. -/
def withInputs (p : ProcedureDef) (inputs : Nat) : ProcedureDef :=
  { p with inputs := inputs, locals := max p.locals inputs }

/-- Set the number of locals, but to no fewer than the inputs. -/
def withLocals (p : ProcedureDef) (locals : Nat) : ProcedureDef :=
  { p with locals := max locals p.inputs }

end ProcedureDef

/-- A program before assembly. -/
structure ProgramDef where
  procedures : List ProcedureDef
deriving Inhabited

end Swarm
