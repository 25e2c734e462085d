import Swarm.Program.Basic

/-!
# Listings

The text of an assembled program, one instruction a line, indented by the blocks around it.

## Main definitions

* `Procedure.depths`: the indentation of each instruction
* `Program.listing`: the text
-/

namespace Swarm

mutual

/-- The text of an expression in a listing. -/
def Expr.brief (nameOf : AgentKind → Nat → String) : Expr → String
  | ⟨reporter, args, _⟩ =>
    let head :=
      match reporter with
      | .constant value => value.text
      | r => r.describe nameOf
    if args.isEmpty then head else "(" ++ head ++ Expr.briefArgs nameOf args ++ ")"

/-- The texts of arguments, each after a blank. -/
def Expr.briefArgs (nameOf : AgentKind → Nat → String) : List Expr → String
  | [] => ""
  | e :: rest => " " ++ e.brief nameOf ++ Expr.briefArgs nameOf rest

end

namespace Instruction

/-- Arguments, jump targets and the mark of a switch. -/
def details (nameOf : AgentKind → Nat → String) (i : Instruction) : List String :=
  i.args.map (Expr.brief nameOf)
    ++ (if i.hasOffset then ["→ " ++ toString i.offset] else [])
    ++ (if i.hasAlternate then ["else " ++ toString i.alternate] else [])
    ++ (if i.switches then ["*"] else [])

/-- Whether the instruction owns a block that ends where the construct resumes. -/
def closesAt (i : Instruction) (ip : Nat) : Bool :=
  0 < i.command.blocks && !i.command.isExclusive && i.offset == ip

end Instruction

namespace Procedure

/-- Number of blocks that end before the instruction at `ip`, given the code before it: the block
of a nested job ends at its mark, other blocks where their construct resumes. -/
def closings (before : List Instruction) (i : Instruction) (ip : Nat) : Nat :=
  (if i.command == .done then 1 else 0) + (before.filter fun owner => owner.closesAt ip).length

/-- The indentation of the instructions from `ip` on; `before` holds the code before them, last
first, and `depth` the blocks open there. -/
def depthsFrom (before : List Instruction) (depth ip : Nat) : List Instruction → List Nat
  | [] => []
  | i :: rest =>
    let here := depth - closings before i ip
    here :: depthsFrom (i :: before) (if 0 < i.command.blocks then here + 1 else here) (ip + 1) rest

/-- The indentation of each instruction. -/
def depths (q : Procedure) : List Nat :=
  depthsFrom [] 0 0 q.code.toList

end Procedure

/-- A number flushed right in three places. -/
def flushPlace (n : Nat) : String :=
  let digits := toString n
  String.ofList (List.replicate (3 - digits.length) ' ') ++ digits

/-- The line of an instruction. -/
def Instruction.line (nameOf : AgentKind → Nat → String) (ip depth : Nat) (i : Instruction) :
    String :=
  let indent := String.join (List.replicate (depth + 1) "    ")
  let details := "  ".intercalate (i.details nameOf)
  flushPlace ip ++ " |" ++ indent ++ i.command.describe nameOf
    ++ (if details.isEmpty then "" else " " ++ details) ++ "\n"

/-- The text of a procedure. -/
def Procedure.listing (nameOf : AgentKind → Nat → String) (q : Procedure) : String :=
  let lines := (q.code.toList.zip q.depths).zipIdx.map fun ((i, depth), ip) =>
    i.line nameOf ip depth
  "--- " ++ q.name ++ " ---\n"
    ++ "Inputs: " ++ toString q.inputs ++ "  Locals: " ++ toString q.locals ++ "\n"
    ++ "Instructions: " ++ toString q.code.size ++ "\n\n"
    ++ String.join lines ++ "\n"

/-- The text of a program; `nameOf` names variables. -/
def Program.listing (nameOf : AgentKind → Nat → String) (p : Program) : String :=
  String.join (p.procedures.toList.map (Procedure.listing nameOf))

end Swarm
