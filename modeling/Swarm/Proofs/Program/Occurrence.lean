import Swarm.Program.Assemble
import Swarm.Proofs.Draw

/-!
# Statements at any depth

A block contains statements, whose blocks contain statements again. `Statement.allOf` lists them
all. Every instruction of assembled code comes from one of them: it is the statement's own command,
or a jump or mark that the statement's construct needs.

## Main definitions

* `Statement.allOf`: the statements of a block at any depth
* `Expr.constantsOf`, `ProgramDef.constants`: the constants of expressions and of a program
* `Instruction.ComesFrom`: an instruction that a statement gives rise to

## Main results

* `Scope.checkHead_of_mem_allOf`: the check of a block checks every statement in it
* `comesFrom_of_mem_layoutBlock`: every instruction comes from a statement
-/

namespace Swarm

namespace Statement

mutual

/-- A statement and the statements in its blocks. -/
def all : Statement → List Statement
  | ⟨command, args, blocks, position⟩ => ⟨command, args, blocks, position⟩ :: allOfBlocks blocks

/-- The statements of several blocks at any depth. -/
def allOfBlocks : List (List Statement) → List Statement
  | [] => []
  | b :: rest => allOf b ++ allOfBlocks rest

/-- The statements of a block at any depth. -/
def allOf : List Statement → List Statement
  | [] => []
  | s :: rest => all s ++ allOf rest

end

end Statement

namespace Expr

mutual

/-- The constants of an expression. -/
def constants : Expr → List Value
  | ⟨reporter, args, position⟩ =>
    (constant? ⟨reporter, args, position⟩).toList ++ constantsOf args

/-- The constants of several expressions. -/
def constantsOf : List Expr → List Value
  | [] => []
  | e :: rest => constants e ++ constantsOf rest

end

theorem mem_constantsOf {v : Value} {e : Expr} {es : List Expr} (he : e ∈ es)
    (hv : v ∈ e.constants) : v ∈ constantsOf es := by
  induction es with
  | nil => cases he
  | cons d rest ih =>
    rw [constantsOf, List.mem_append]
    rcases List.mem_cons.1 he with rfl | he
    · exact .inl hv
    · exact .inr (ih he)

end Expr

/-- The constants of a program. -/
def ProgramDef.constants (d : ProgramDef) : List Value :=
  d.procedures.flatMap fun p => (Statement.allOf p.body).flatMap fun s => Expr.constantsOf s.args

namespace Scope

mutual

theorem checkHead_of_mem_all {sc : Scope} :
    ∀ t : Statement, sc.checkStatement t = .ok () → ∀ s ∈ t.all,
      sc.checkHead s.command s.args s.blocks.length = .ok ()
  | ⟨command, args, blocks, position⟩, h, s, hs => by
    obtain ⟨_, hhead, hblocks⟩ := Except.bind_eq_ok h
    rw [Statement.all, List.mem_cons] at hs
    rcases hs with rfl | hs
    · exact hhead
    · exact checkHead_of_mem_allOfBlocks blocks hblocks s hs

theorem checkHead_of_mem_allOfBlocks {sc : Scope} :
    ∀ blocks : List (List Statement), sc.checkBlocks blocks = .ok () →
      ∀ s ∈ Statement.allOfBlocks blocks, sc.checkHead s.command s.args s.blocks.length = .ok ()
  | [], _, s, hs => by
    rw [Statement.allOfBlocks] at hs
    cases hs
  | b :: rest, h, s, hs => by
    obtain ⟨_, hblock, hrest⟩ := Except.bind_eq_ok h
    rw [Statement.allOfBlocks, List.mem_append] at hs
    rcases hs with hs | hs
    · exact checkHead_of_mem_allOf b hblock s hs
    · exact checkHead_of_mem_allOfBlocks rest hrest s hs

/-- The check of a block checks every statement in it. -/
theorem checkHead_of_mem_allOf {sc : Scope} :
    ∀ b : List Statement, sc.checkBlock b = .ok () → ∀ s ∈ Statement.allOf b,
      sc.checkHead s.command s.args s.blocks.length = .ok ()
  | [], _, s, hs => by
    rw [Statement.allOf] at hs
    cases hs
  | t :: rest, h, s, hs => by
    obtain ⟨_, hone, hrest⟩ := Except.bind_eq_ok h
    rw [Statement.allOf, List.mem_append] at hs
    rcases hs with hs | hs
    · exact checkHead_of_mem_all t hone s hs
    · exact checkHead_of_mem_allOf rest hrest s hs

end

end Scope

-- ════════════════════════════════════════════════════════════════════════
-- Where instructions come from
-- ════════════════════════════════════════════════════════════════════════

/-- The instruction is the statement's own command, or one that its construct needs. -/
inductive Instruction.ComesFrom (procedures : List ProcedureDef) (s : Statement)
    (i : Instruction) : Prop where
  | owner (command : i.command = s.command.resolve procedures) (args : i.args = s.args)
    (known : i.known = if i.command.isUnary then i.args.head?.bind Expr.constant? else none)
  | jump (command : i.command = .goto) (args : i.args = []) (known : i.known = none)
  | mark (command : i.command = .done) (args : i.args = []) (known : i.known = none)
  | loopHead {slot : Nat} (owner : s.command = .repeatTimes slot)
    (command : i.command = .repeatCheck slot) (args : i.args = []) (known : i.known = none)

namespace Instruction

theorem comesFrom_ofCommand (procedures : List ProcedureDef) (s : Statement) (ip : Nat) :
    ComesFrom procedures s (ofCommand (s.command.resolve procedures) s.args s.position ip) :=
  .owner rfl rfl rfl

theorem comesFrom_owning {procedures : List ProcedureDef} {s : Statement} (ip resume alternate : Nat)
    (blocks : List Instruction) :
    ComesFrom procedures s
      ((ofCommand (s.command.resolve procedures) s.args s.position ip).owning resume alternate
        blocks) :=
  .owner rfl rfl rfl

theorem comesFrom_jump (procedures : List ProcedureDef) (s : Statement) (position : Position)
    (ip target : Nat) : ComesFrom procedures s (jump position ip target) :=
  .jump rfl rfl rfl

theorem comesFrom_mark (procedures : List ProcedureDef) (s : Statement) (position : Position)
    (ip : Nat) : ComesFrom procedures s (mark position ip) :=
  .mark rfl rfl rfl

end Instruction

theorem Command.resolve_eq_repeatTimes {procedures : List ProcedureDef} {c : Command} {slot : Nat}
    (h : c.resolve procedures = .repeatTimes slot) : c = .repeatTimes slot := by
  cases c <;> simp_all [Command.resolve]

open Instruction (comesFrom_owning comesFrom_jump comesFrom_mark)

/-- The instructions of a construct with one block. -/
theorem mem_oneBlock {procedures : List ProcedureDef} {s : Statement} {start : Nat}
    {block : Nat → List Instruction} {i : Instruction}
    (h : i ∈ oneBlock (.ofCommand (s.command.resolve procedures) s.args s.position start) start
      block) : i.ComesFrom procedures s ∨ ∃ place, i ∈ block place := by
  have command_eq : (Instruction.ofCommand (s.command.resolve procedures) s.args s.position
      start).command = s.command.resolve procedures := rfl
  rw [oneBlock] at h
  split at h
  · rcases List.mem_cons.1 h with rfl | h
    · exact .inl (comesFrom_owning _ _ _ _)
    · exact .inr ⟨_, h⟩
  · simp only [List.mem_cons, List.mem_append, List.not_mem_nil, or_false] at h
    rcases h with rfl | h | rfl
    · exact .inl (comesFrom_owning _ _ _ _)
    · exact .inr ⟨_, h⟩
    · exact .inl (comesFrom_jump _ _ _ _ _)
  · next slot hc =>
    rw [command_eq] at hc
    simp only [List.mem_cons, List.mem_append, List.not_mem_nil, or_false] at h
    rcases h with rfl | rfl | h | rfl
    · exact .inl (comesFrom_owning _ _ _ _)
    · exact .inl (.loopHead (Command.resolve_eq_repeatTimes hc) rfl rfl rfl)
    · exact .inr ⟨_, h⟩
    · exact .inl (comesFrom_jump _ _ _ _ _)
  · simp only [List.mem_cons, List.mem_append, List.not_mem_nil, or_false] at h
    rcases h with rfl | h | rfl
    · exact .inl (comesFrom_owning _ _ _ _)
    · exact .inr ⟨_, h⟩
    · exact .inl (comesFrom_mark _ _ _ _)

/-- The instructions of a construct with two blocks. -/
theorem mem_twoBlocks {procedures : List ProcedureDef} {s : Statement} {start : Nat}
    {first second : Nat → List Instruction} {i : Instruction}
    (h : i ∈ twoBlocks (.ofCommand (s.command.resolve procedures) s.args s.position start) start
      first second) :
    i.ComesFrom procedures s ∨ (∃ place, i ∈ first place) ∨ ∃ place, i ∈ second place := by
  rw [twoBlocks] at h
  simp only [List.mem_cons, List.mem_append] at h
  rcases h with rfl | h | rfl | h
  · exact .inl (comesFrom_owning _ _ _ _)
  · exact .inr (.inl ⟨_, h⟩)
  · left
    split
    · exact comesFrom_jump _ _ _ _ _
    · exact comesFrom_mark _ _ _ _
  · exact .inr (.inr ⟨_, h⟩)

mutual

theorem comesFrom_of_mem_layoutStatement {procedures : List ProcedureDef} {i : Instruction} :
    ∀ (t : Statement) (start : Nat), i ∈ layoutStatement procedures start t →
      ∃ s ∈ t.all, i.ComesFrom procedures s
  | ⟨command, args, [], position⟩, start, h => by
    rw [layoutStatement, List.mem_singleton] at h
    subst h
    exact ⟨⟨command, args, [], position⟩, by simp [Statement.all],
      Instruction.comesFrom_ofCommand _ _ _⟩
  | ⟨command, args, [b], position⟩, start, h => by
    rw [layoutStatement] at h
    rcases mem_oneBlock (s := ⟨command, args, [b], position⟩) h with hown | ⟨place, hb⟩
    · exact ⟨_, by simp [Statement.all], hown⟩
    · obtain ⟨s, hs, hi⟩ := comesFrom_of_mem_layoutBlock b place hb
      exact ⟨s, by simp [Statement.all, Statement.allOfBlocks, hs], hi⟩
  | ⟨command, args, b :: c :: rest, position⟩, start, h => by
    rw [layoutStatement] at h
    rcases mem_twoBlocks (s := ⟨command, args, b :: c :: rest, position⟩) h with
      hown | ⟨place, hb⟩ | ⟨place, hc⟩
    · exact ⟨_, by simp [Statement.all], hown⟩
    · obtain ⟨s, hs, hi⟩ := comesFrom_of_mem_layoutBlock b place hb
      exact ⟨s, by simp [Statement.all, Statement.allOfBlocks, hs], hi⟩
    · obtain ⟨s, hs, hi⟩ := comesFrom_of_mem_layoutBlock c place hc
      exact ⟨s, by simp [Statement.all, Statement.allOfBlocks, hs], hi⟩

/-- Every instruction of a block's code comes from a statement of the block. -/
theorem comesFrom_of_mem_layoutBlock {procedures : List ProcedureDef} {i : Instruction} :
    ∀ (b : List Statement) (start : Nat), i ∈ layoutBlock procedures start b →
      ∃ s ∈ Statement.allOf b, i.ComesFrom procedures s
  | [], start, h => by
    rw [layoutBlock] at h
    cases h
  | t :: rest, start, h => by
    rw [layoutBlock] at h
    rcases List.mem_append.1 h with h | h
    · obtain ⟨s, hs, hi⟩ := comesFrom_of_mem_layoutStatement t start h
      exact ⟨s, by simp [Statement.allOf, hs], hi⟩
    · obtain ⟨s, hs, hi⟩ := comesFrom_of_mem_layoutBlock rest _ h
      exact ⟨s, by simp [Statement.allOf, hs], hi⟩

end

end Swarm
