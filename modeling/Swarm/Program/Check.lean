import Swarm.Program.Basic
import Swarm.World.Basic

/-!
# Checking source programs

A program is assembled only if its procedures have distinct names and every statement and
expression fits its primitive. Statements are checked before the statements of their blocks, and
in the order in which they are written.

## Main definitions

* `calleeIndex?`: the procedure that a call refers to
* `Scope`: what a procedure is checked against
* `Scope.checkExpr`, `Scope.checkStatement`: the checks of trees
* `ProgramDef.check`: the check of a whole program
-/

namespace Swarm

/-- The place of the procedure that a call by `name` refers to. Names are compared by their full
lower case. -/
def calleeIndex? (procedures : List ProcedureDef) (name : String) : Option Nat :=
  procedures.findIdx? fun p => Text.toLower p.name == Text.toLower name

/-- What the body of a procedure is checked against. -/
structure Scope where
  /-- Whether names that stand for nothing are let through. -/
  forgiving : Bool
  /-- Number of variables of each kind. -/
  slots : AgentKind → Nat
  procedures : List ProcedureDef
  /-- The procedure that is checked. -/
  procedure : ProcedureDef

namespace Scope

/-- A refusal of the procedure. -/
def refuse {α : Type} (sc : Scope) (refusal : Refusal) : Except Fault α :=
  .error (.ofCause (.refused sc.procedure.name refusal))

/-- Check that a primitive or procedure gets the arguments it expects. -/
def checkCount (sc : Scope) (called : String) (expects got : Nat) : Except Fault Unit :=
  if got = expects then .ok () else sc.refuse (.inputCount called expects got)

/-- Check that the world has a variable. -/
def checkVariable (sc : Scope) : Option (AgentKind × Nat) → Except Fault Unit
  | none => .ok ()
  | some (kind, slot) =>
    if slot < sc.slots kind then .ok () else sc.refuse (.missingVariable kind slot)

/-- Check that the procedure has a local. -/
def checkLocal (sc : Scope) : Option Nat → Except Fault Unit
  | none => .ok ()
  | some slot =>
    if slot < sc.procedure.locals then .ok ()
    else sc.refuse (.missingLocal slot sc.procedure.locals)

/-- Check what a reporter refers to. -/
def checkReporter (sc : Scope) (r : Reporter) (position : Position) : Except Fault Unit :=
  match r with
  | .unknown name =>
    if sc.forgiving then .ok ()
    else
      .error (.ofCause (.refusedAt sc.procedure.name (.undefinedName name) position.text))
  | .getLocal slot => sc.checkLocal (some slot)
  | .getVariable kind slot => sc.checkVariable (some (kind, slot))
  | _ => .ok ()

mutual

/-- Check an expression, then its arguments. -/
def checkExpr (sc : Scope) : Expr → Except Fault Unit
  | ⟨reporter, args, position⟩ => do
    sc.checkCount reporter.token reporter.arity args.length
    sc.checkReporter reporter position
    checkExprs sc args

/-- Check expressions in order. -/
def checkExprs (sc : Scope) : List Expr → Except Fault Unit
  | [] => .ok ()
  | e :: rest => do
    checkExpr sc e
    checkExprs sc rest

end

/-- Check the callee of a command, and the number of its arguments. -/
def checkArity (sc : Scope) (c : Command) (got : Nat) : Except Fault Unit :=
  match c with
  | .call name _ =>
    match (calleeIndex? sc.procedures name).bind fun index => sc.procedures[index]? with
    | some callee => sc.checkCount name callee.inputs got
    | none => .error (.ofCause (.noSuchProcedure name))
  | c => sc.checkCount c.token (c.arity.getD 0) got

/-- Check a statement without its blocks. -/
def checkHead (sc : Scope) (c : Command) (args : List Expr) (blocks : Nat) : Except Fault Unit := do
  if c.isSynthetic then sc.refuse (.synthetic c.token)
  if blocks ≠ c.blocks then sc.refuse (.blockCount c.token c.blocks blocks)
  sc.checkArity c args.length
  sc.checkVariable c.slot?
  sc.checkLocal c.local?
  sc.checkExprs args

mutual

/-- Check a statement, then its blocks. -/
def checkStatement (sc : Scope) : Statement → Except Fault Unit
  | ⟨command, args, blocks, _⟩ => do
    sc.checkHead command args blocks.length
    checkBlocks sc blocks

/-- Check blocks in order. -/
def checkBlocks (sc : Scope) : List (List Statement) → Except Fault Unit
  | [] => .ok ()
  | b :: rest => do
    checkBlock sc b
    checkBlocks sc rest

/-- Check the statements of a block in order. -/
def checkBlock (sc : Scope) : List Statement → Except Fault Unit
  | [] => .ok ()
  | s :: rest => do
    checkStatement sc s
    checkBlock sc rest

end

end Scope

namespace ProcedureDef

/-- Check name and locals of the procedures, given the lower-case names that are taken. -/
def checkNames (taken : List String) : List ProcedureDef → Except Fault Unit
  | [] => .ok ()
  | p :: rest => do
    let name := Text.toLower p.name
    if taken.contains name then
      throw (Fault.ofCause (.refused p.name (.definedTwice p.name)))
    if p.locals < p.inputs then
      throw (Fault.ofCause (.refused p.name (.tooFewLocals p.name p.inputs p.locals)))
    checkNames (name :: taken) rest

end ProcedureDef

/-- Check a program: first all names and locals, then the bodies in order. -/
def ProgramDef.check (d : ProgramDef) (w : World) (forgiving : Bool) : Except Fault Unit := do
  ProcedureDef.checkNames [] d.procedures
  d.procedures.forM fun p =>
    Scope.checkBlock ⟨forgiving, fun kind => (w.table kind).size, d.procedures, p⟩ p.body

end Swarm
