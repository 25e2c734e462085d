import Swarm.Proofs.Program.Fits

/-!
# Code that leads forward

A loop is the only construct whose code jumps back. Every other one leads from its owner into a block
or past it, and from the end of a block past the construct. So in the code of a program without loops
every instruction names places after its own alone, and an agent that goes through a procedure comes
to its end.

## Main definitions

* `ProgramDef.LoopFree`: no statement of the program is a loop
* `Instruction.Forward`: an instruction that names places after its own
* `Program.Forward`: a program of such instructions

## Main results

* `forward_layoutBlock`: the code of statements without loops leads forward
* `ProgramDef.forward_of_assemble`: so does an assembled program without loops
-/

namespace Swarm

/-- Whether the command runs its block again and again. -/
def Command.isLoop : Command → Bool
  | repeatTimes _ => true
  | whileTrue => true
  | _ => false

/-- No statement of the program, at any depth, is a loop. -/
def ProgramDef.LoopFree (d : ProgramDef) : Prop :=
  ∀ p ∈ d.procedures, ∀ s ∈ Statement.allOf p.body, s.command.isLoop = false

/-- A statement that source programs have, with as many blocks as its command takes, and no loop. -/
structure Statement.Straight (s : Statement) : Prop where
  source : s.command.isSynthetic = false
  blocks : s.blocks.length = s.command.blocks
  noLoop : s.command.isLoop = false

/-- Every place that the instruction at `ip` names lies after `ip`. -/
structure Instruction.Forward (ip : Nat) (i : Instruction) : Prop where
  next : i.command.isTerminal = false → ip < i.next
  offset : i.hasOffset = true → ip < i.offset
  alternate : i.hasAlternate = true → ip < i.alternate

/-- Every place that an instruction of the program names lies after the instruction. -/
def Program.Forward (program : Program) : Prop :=
  ∀ (index : Nat) (q : Procedure) (ip : Nat) (i : Instruction),
    program.procedures[index]? = some q → q.code[ip]? = some i → i.Forward ip

namespace Command

theorem isLoop_resolve (procedures : List ProcedureDef) (c : Command) :
    (c.resolve procedures).isLoop = c.isLoop := by
  cases c <;> rfl

theorem blocks_resolve (procedures : List ProcedureDef) (c : Command) :
    (c.resolve procedures).blocks = c.blocks := by
  cases c <;> rfl

theorem isSynthetic_resolve (procedures : List ProcedureDef) (c : Command) :
    (c.resolve procedures).isSynthetic = c.isSynthetic := by
  cases c <;> rfl

end Command

namespace Instruction

variable {i owner : Instruction} {ip : Nat}

/-- An instruction of source with an offset owns blocks. -/
theorem blocks_of_hasOffset (h : i.hasOffset = true) (source : i.command.isSynthetic = false) :
    0 < i.command.blocks := by
  unfold hasOffset at h
  split at h
  · next hc => simp [hc, Command.isSynthetic] at source
  · next hc => simp [hc, Command.isSynthetic] at source
  · exact of_decide_eq_true h

/-- An instruction with an alternate owns two blocks. -/
theorem blocks_of_hasAlternate (h : i.hasAlternate = true) : i.command.blocks = 2 := by
  unfold hasAlternate at h
  split at h
  · next hc => rw [hc]; rfl
  · next hc => rw [hc]; rfl
  · cases h

theorem forward_jump {position : Position} {target : Nat} (h : ip < target) :
    (jump position ip target).Forward ip :=
  ⟨fun _ => Nat.lt_succ_self ip, fun _ => h, by rintro ⟨⟩⟩

theorem forward_mark (position : Position) (ip : Nat) : (mark position ip).Forward ip :=
  ⟨by rintro ⟨⟩, by rintro ⟨⟩, by rintro ⟨⟩⟩

theorem forward_ending (ip : Nat) : (ending ip).Forward ip :=
  ⟨by rintro ⟨⟩, by rintro ⟨⟩, by rintro ⟨⟩⟩

theorem forward_owning {resume alternate : Nat} {blocks : List Instruction}
    (next : ip < owner.next) (resumes : ip < resume)
    (ha : owner.command.blocks = 2 → ip < alternate) :
    (owner.owning resume alternate blocks).Forward ip :=
  ⟨fun _ => next, fun _ => resumes, fun h => ha (blocks_of_hasAlternate h)⟩

end Instruction

-- ════════════════════════════════════════════════════════════════════════
-- Code
-- ════════════════════════════════════════════════════════════════════════

/-- Code laid out from a place on, each of whose instructions names places after its own. -/
def LeadsForward (start : Nat) (code : List Instruction) : Prop :=
  ∀ (k : Nat) (i : Instruction), code[k]? = some i → i.Forward (start + k)

namespace LeadsForward

variable {start : Nat} {code rest : List Instruction} {i : Instruction}

theorem nil (start : Nat) : LeadsForward start [] := by
  rintro k i ⟨⟩

theorem cons (h : i.Forward start) (hrest : LeadsForward (start + 1) rest) :
    LeadsForward start (i :: rest) := by
  intro k j hk
  cases k with
  | zero =>
    cases hk
    exact h
  | succ k =>
    have hplace : start + (k + 1) = start + 1 + k := by omega
    rw [hplace]
    exact hrest k j hk

theorem append (h : LeadsForward start code) (hrest : LeadsForward (start + code.length) rest) :
    LeadsForward start (code ++ rest) := by
  intro k j hk
  by_cases hlt : k < code.length
  · rw [List.getElem?_append_left hlt] at hk
    exact h k j hk
  · rw [List.getElem?_append_right (by omega)] at hk
    have hplace : start + k = start + code.length + (k - code.length) := by omega
    rw [hplace]
    exact hrest _ j hk

end LeadsForward

open Instruction (forward_owning forward_jump forward_mark)

/-- A construct with one block that is no loop: a test, or a nested job. -/
theorem leadsForward_oneBlock {owner : Instruction} {start : Nat} {block : Nat → List Instruction}
    (noLoop : owner.command.isLoop = false) (one : owner.command.blocks = 1)
    (next : start < owner.next) (hblock : ∀ place, LeadsForward place (block place)) :
    LeadsForward start (oneBlock owner start block) := by
  have single : owner.command.blocks = 2 → start < 0 := by omega
  unfold oneBlock
  split
  · exact .cons (forward_owning next (by omega) single) (hblock _)
  · next hc => simp [hc, Command.isLoop] at noLoop
  · next hc => simp [hc, Command.isLoop] at noLoop
  · exact .cons (forward_owning next (by omega) single)
      ((hblock _).append (.cons (forward_mark _ _) (.nil _)))

theorem leadsForward_twoBlocks {owner : Instruction} {start : Nat}
    {first second : Nat → List Instruction} (next : start < owner.next)
    (hfirst : ∀ place, LeadsForward place (first place))
    (hsecond : ∀ place, LeadsForward place (second place)) :
    LeadsForward start (twoBlocks owner start first second) := by
  unfold twoBlocks
  refine .cons (forward_owning next (by omega) fun _ => by omega)
    ((hfirst _).append (.cons ?_ (hsecond _)))
  split
  · exact forward_jump (by omega)
  · exact forward_mark _ _

mutual

theorem forward_layoutStatement (procedures : List ProcedureDef) :
    ∀ (t : Statement) (start : Nat), (∀ s ∈ t.all, s.Straight) →
      LeadsForward start (layoutStatement procedures start t)
  | ⟨command, args, [], position⟩, start, h => by
    obtain ⟨source, blocks, _⟩ := h ⟨command, args, [], position⟩ (by simp [Statement.all])
    have none : (command.resolve procedures).blocks = 0 :=
      (Command.blocks_resolve _ _).trans blocks.symm
    have hsource := (Command.isSynthetic_resolve procedures command).trans source
    rw [layoutStatement]
    refine .cons ⟨fun _ => Nat.lt_succ_self start, fun ho => ?_, fun ha => ?_⟩ (.nil _)
    · have hpos := Instruction.blocks_of_hasOffset ho hsource
      exact absurd none (Nat.pos_iff_ne_zero.1 hpos)
    · have htwo := Instruction.blocks_of_hasAlternate ha
      exact absurd (none.symm.trans htwo) (by decide)
  | ⟨command, args, [b], position⟩, start, h => by
    rw [Statement.all, List.forall_mem_cons] at h
    obtain ⟨⟨_, blocks, noLoop⟩, hinner⟩ := h
    rw [Statement.allOfBlocks, List.forall_mem_append] at hinner
    rw [layoutStatement]
    exact leadsForward_oneBlock ((Command.isLoop_resolve _ _).trans noLoop)
      ((Command.blocks_resolve _ _).trans blocks.symm) (Nat.lt_succ_self start)
      fun place => forward_layoutBlock procedures b place hinner.1
  | ⟨command, args, b :: c :: rest, position⟩, start, h => by
    rw [Statement.all, List.forall_mem_cons] at h
    have hinner := h.2
    rw [Statement.allOfBlocks, List.forall_mem_append, Statement.allOfBlocks,
      List.forall_mem_append] at hinner
    rw [layoutStatement]
    exact leadsForward_twoBlocks (Nat.lt_succ_self start)
      (fun place => forward_layoutBlock procedures b place hinner.1)
      fun place => forward_layoutBlock procedures c place hinner.2.1

/-- The code of statements without loops leads forward. -/
theorem forward_layoutBlock (procedures : List ProcedureDef) :
    ∀ (b : List Statement) (start : Nat), (∀ s ∈ Statement.allOf b, s.Straight) →
      LeadsForward start (layoutBlock procedures start b)
  | [], start, _ => by
    rw [layoutBlock]
    exact .nil start
  | t :: rest, start, h => by
    rw [Statement.allOf, List.forall_mem_append] at h
    rw [layoutBlock]
    exact (forward_layoutStatement procedures t start h.1).append
      (forward_layoutBlock procedures rest _ h.2)

end

/-- In an assembled program without loops every instruction leads forward. -/
theorem ProgramDef.forward_of_assemble {d : ProgramDef} {w : World} {forgiving : Bool}
    {program : Program} (h : d.assemble w forgiving = .ok program) (loopFree : d.LoopFree) :
    program.Forward := by
  intro index q ip i hq hi
  obtain ⟨p, hp, rfl, _, hbody⟩ := procedure_of_assemble h hq
  have straight : ∀ s ∈ Statement.allOf p.body, s.Straight := by
    intro s hs
    obtain ⟨source, blocks, _⟩ :=
      Scope.checkHead_eq_ok (Scope.checkHead_of_mem_allOf p.body hbody s hs)
    exact ⟨source, blocks, loopFree p (List.mem_of_getElem? hp) s hs⟩
  have hcode : LeadsForward 0 (layoutBlock d.procedures 0 p.body
      ++ [Instruction.ending (layoutBlock d.procedures 0 p.body).length]) := by
    refine (forward_layoutBlock d.procedures p.body 0 straight).append (.cons ?_ (.nil _))
    rw [Nat.zero_add]
    exact Instruction.forward_ending _
  rw [← Nat.zero_add ip]
  exact hcode ip i (by simpa [ProcedureDef.layout] using hi)

end Swarm
