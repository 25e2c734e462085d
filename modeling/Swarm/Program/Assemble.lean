import Swarm.Program.Check

/-!
# Assembly

Statement trees are laid out as flat code. A construct occupies a contiguous region that starts
with its own instruction, the owner, followed by the code of its blocks and the jumps and marks
between them.

## Main definitions

* `layoutBlock`, `layoutStatement`: the code of trees from a place on
* `ProcedureDef.layout`: the code of a procedure
* `ProgramDef.assemble`: check, layout and verification

## Design notes

The regions of the constructs, with the owner at place `s` and the region ending before `e`:

* `ask`, `create-turtles`, `with-local-randomness`: owner, block, done; the owner resumes at `e`
* `if`: owner, block; the owner resumes at `e`
* `ifelse`: owner, block, jump to `e`, block; the owner's alternate is the second block
* `while`: owner, block, jump to `s`; the owner resumes at `e`
* `repeat`: owner, check, block, jump to the check; check and owner resume at `e`
* `carefully`: owner, block, done, block; the owner's alternate is the second block
-/

namespace Swarm

/-- A command with its callee resolved. -/
def Command.resolve (procedures : List ProcedureDef) : Command → Command
  | .call name _ => .call name ((calleeIndex? procedures name).getD 0)
  | c => c

namespace Instruction

/-- The instruction of a statement's own command. A constant single argument is known. -/
def ofCommand (command : Command) (args : List Expr) (position : Position) (ip : Nat) :
    Instruction :=
  { plain command args position ip with
    known := if command.isUnary then args.head?.bind Expr.constant? else none }

/-- A jump from `ip` to `target`. -/
def jump (position : Position) (ip target : Nat) : Instruction :=
  { plain .goto [] position ip with offset := target }

/-- The head of a counted loop. -/
def loopHead (slot : Nat) (position : Position) (ip exit : Nat) : Instruction :=
  { plain (.repeatCheck slot) [] position ip with offset := exit }

/-- The end of a nested job's block. -/
def mark (position : Position) (ip : Nat) : Instruction :=
  plain .done [] position ip

/-- The end of a procedure. -/
def ending (ip : Nat) : Instruction :=
  { plain .ret [] .zero ip with next := ip }

/-- The owner of a construct that resumes at `resume`. It switches if any instruction of its
blocks does. -/
def owning (owner : Instruction) (resume alternate : Nat) (blocks : List Instruction) :
    Instruction :=
  { owner with
    offset := resume
    alternate := alternate
    switches := owner.switches || blocks.any Instruction.switches }

end Instruction

/-- The code of a construct with one block, whose owner is at `start`; `block` lays the block out
from a place on. -/
def oneBlock (owner : Instruction) (start : Nat) (block : Nat → List Instruction) :
    List Instruction :=
  match owner.command with
  | .ifThen =>
    let body := block (start + 1)
    owner.owning (start + 1 + body.length) 0 body :: body
  | .whileTrue =>
    let body := block (start + 1)
    let back := start + 1 + body.length
    owner.owning (back + 1) 0 body :: (body ++ [.jump owner.position back start])
  | .repeatTimes slot =>
    let body := block (start + 2)
    let back := start + 2 + body.length
    owner.owning (back + 1) 0 body :: .loopHead slot owner.position (start + 1) (back + 1)
      :: (body ++ [.jump owner.position back (start + 1)])
  | _ =>
    let body := block (start + 1)
    let stop := start + 1 + body.length
    owner.owning (stop + 1) 0 body :: (body ++ [.mark owner.position stop])

/-- The code of a construct with two blocks. -/
def twoBlocks (owner : Instruction) (start : Nat) (first second : Nat → List Instruction) :
    List Instruction :=
  let body := first (start + 1)
  let stop := start + 1 + body.length
  let other := second (stop + 1)
  let resume := stop + 1 + other.length
  let between : Instruction :=
    match owner.command with
    | .ifElse => .jump owner.position stop resume
    | _ => .mark owner.position stop
  owner.owning resume (stop + 1) (body ++ other) :: (body ++ between :: other)

mutual

/-- The code of a statement from the place `start` on. -/
def layoutStatement (procedures : List ProcedureDef) (start : Nat) : Statement → List Instruction
  | ⟨command, args, [], position⟩ =>
    [.ofCommand (command.resolve procedures) args position start]
  | ⟨command, args, [b], position⟩ =>
    oneBlock (.ofCommand (command.resolve procedures) args position start) start
      fun place => layoutBlock procedures place b
  | ⟨command, args, b :: c :: _, position⟩ =>
    twoBlocks (.ofCommand (command.resolve procedures) args position start) start
      (fun place => layoutBlock procedures place b) (fun place => layoutBlock procedures place c)

/-- The code of statements from the place `start` on. -/
def layoutBlock (procedures : List ProcedureDef) (start : Nat) : List Statement → List Instruction
  | [] => []
  | s :: rest =>
    let code := layoutStatement procedures start s
    code ++ layoutBlock procedures (start + code.length) rest

end

/-- The code of a procedure: its body and a return. -/
def ProcedureDef.layout (procedures : List ProcedureDef) (p : ProcedureDef) : Procedure :=
  let body := layoutBlock procedures 0 p.body
  ⟨p.name, p.inputs, p.locals, (body ++ [Instruction.ending body.length]).toArray⟩

namespace ProgramDef

/-- The code of a program. -/
def layout (d : ProgramDef) : Program :=
  ⟨(d.procedures.map (ProcedureDef.layout d.procedures)).toArray⟩

/-- Assemble a program against the variables of a world. -/
def assemble (d : ProgramDef) (w : World) (forgiving : Bool) : Except Fault Program := do
  d.check w forgiving
  let program := d.layout
  program.verify
  return program

end ProgramDef

end Swarm
