import Swarm.Fault.Basic
import Swarm.Source.Tree

/-!
# Assembled programs

Flat instruction sequences with resolved jumps. Procedures are addressed by their place in the
program, instructions by their place in the procedure.

## Main definitions

* `Instruction`, `Procedure`, `Program`
* `Program.lookup`: a procedure by name
* `Program.procedure`, `Program.instruction`: by place
* `Program.verify`: the check that every jump stays inside its procedure
-/

namespace Swarm

/-- One assembled command. -/
structure Instruction where
  command : Command
  args : List Expr
  /-- The instruction after this one. -/
  next : Nat
  /-- Where a construct resumes after itself, or where a jump goes. -/
  offset : Nat
  /-- Where the second block starts. -/
  alternate : Nat
  /-- Whether the instruction ends the turn of an agent in a concurrent step. -/
  switches : Bool
  position : Position
  /-- The value of a single constant argument. -/
  known : Option Value
deriving Inhabited

namespace Instruction

/-- An instruction at place `ip` without jump targets. -/
def plain (command : Command) (args : List Expr) (position : Position) (ip : Nat) : Instruction where
  command := command
  args := args
  next := ip + 1
  offset := 0
  alternate := 0
  switches := command.switches
  position := position
  known := none

/-- Whether the `offset` of the instruction is used. -/
def hasOffset (i : Instruction) : Bool :=
  match i.command with
  | .goto => true
  | .repeatCheck _ => true
  | c => 0 < c.blocks

/-- Whether the `alternate` of the instruction is used. -/
def hasAlternate (i : Instruction) : Bool :=
  match i.command with
  | .ifElse => true
  | .carefully => true
  | _ => false

end Instruction

/-- An assembled procedure. -/
structure Procedure where
  name : String
  inputs : Nat
  locals : Nat
  code : Array Instruction
deriving Inhabited

/-- An assembled program. -/
structure Program where
  procedures : Array Procedure
deriving Inhabited

namespace Program

/-- The first procedure with a name, up to the case of basic Latin letters. -/
def lookup (p : Program) (name : String) : Except Fault (Nat × Procedure) :=
  match p.procedures.findIdx? fun q => Text.eqFolding q.name name with
  | some index =>
    match p.procedures[index]? with
    | some q => .ok (index, q)
    | none => .error (.ofCause (.noSuchProcedure name))
  | none => .error (.ofCause (.noSuchProcedure name))

/-- The procedure at a place. -/
def procedure (p : Program) (index : Nat) : Except Fault Procedure :=
  match p.procedures[index]? with
  | some q => .ok q
  | none => .error (.ofDefect (.noProcedure index))

/-- The instruction at a place of the procedure at a place. -/
def instruction (p : Program) (index ip : Nat) : Except Fault Instruction := do
  let q ← p.procedure index
  match q.code[ip]? with
  | some i => .ok i
  | none => .error (.ofDefect (.outsideProcedure ip q.name))

end Program

/-- Check the jump targets and the callee of the instruction at `ip`. -/
def Instruction.verify (procedures : Nat) (name : String) (size ip : Nat) (i : Instruction) :
    Except Fault Unit := do
  let check (used : Bool) (target : Nat) : Except Fault Unit :=
    if used && size ≤ target then .error (.ofDefect (.jumpOutside name ip target)) else .ok ()
  check (!i.command.isTerminal) i.next
  check i.hasOffset i.offset
  check i.hasAlternate i.alternate
  match i.command with
  | .call _ index =>
    if procedures ≤ index then .error (.ofDefect (.missingCallee name ip index)) else .ok ()
  | _ => .ok ()

namespace Procedure

/-- Whether the last instruction is a return. -/
def endsInReturn (q : Procedure) : Bool :=
  match q.code.back? with
  | some i => i.command == .ret
  | none => false

/-- Check the instructions from place `ip` on. -/
def verifyFrom (procedures : Nat) (name : String) (size : Nat) :
    Nat → List Instruction → Except Fault Unit
  | _, [] => .ok ()
  | ip, i :: rest => do
    i.verify procedures name size ip
    verifyFrom procedures name size (ip + 1) rest

/-- Check a procedure of a program with the given number of procedures. -/
def verify (procedures : Nat) (q : Procedure) : Except Fault Unit :=
  if q.endsInReturn then verifyFrom procedures q.name q.code.size 0 q.code.toList
  else .error (.ofDefect (.noReturn q.name))

end Procedure

/-- Check every jump target and every callee of a program. -/
def Program.verify (p : Program) : Except Fault Unit :=
  p.procedures.toList.forM (Procedure.verify p.procedures.size)

end Swarm
