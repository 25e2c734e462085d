import Swarm.Proofs.Exec.Steering
import Swarm.Proofs.Program.Emission
import Swarm.Proofs.Program.Forward
import Swarm.Proofs.Tree.Preservation

/-!
# Where statements stand

Every statement of an assembled program, at any depth, occupies a region of its procedure's code.
The region starts with the statement's own instruction, which leads into the region of its first
block and resumes where its region stops. The regions of the statements of a block follow one
another in source order, and no instruction of a region names a place outside of it.

The layout of a construct is said here construct by construct, without a word on how it is made:
code that is laid out with all lengths known and code that is emitted in one pass, with its jumps
patched later, both have it.

## Main definitions

* `Program.Owns`: the instruction at the start of a region
* `Program.Occupies`, `Program.OccupiesBlock`: the region of a statement, and of a block
* `Instruction.Stays`, `StaysWithin`: code that names places of a region alone

## Main results

* `within_layoutStatement`: the code of a statement names places of its region alone
* `occupies_layoutStatement`: the code of a statement is its region
* `ProgramDef.occupies_of_assemble`: the regions of a whole program
-/

namespace Swarm

/-- The instruction does not return, and names places between `low` and `high` alone. -/
structure Instruction.Stays (low high : Nat) (i : Instruction) : Prop where
  inside : i.command ≠ .ret
  between : ∀ target, i.Names target → low ≤ target ∧ target ≤ high

-- ════════════════════════════════════════════════════════════════════════
-- Regions
-- ════════════════════════════════════════════════════════════════════════

namespace Program

variable (program : Program) (procedures : List ProcedureDef) (index : Nat)

/-- The instruction of a statement whose region is from `start` to `stop`. Whatever stands in the
region names places of the region, or the place after it, and does not return. -/
structure Owns (s : Statement) (start stop : Nat) (owner : Instruction) : Prop where
  there : program.instruction index start = .ok owner
  command : owner.command = s.command.resolve procedures
  args : owner.args = s.args
  position : owner.position = s.position
  next : owner.next = start + 1
  resumes : 0 < s.command.blocks → owner.offset = stop
  closed : ∀ ip i, start ≤ ip → ip < stop → program.instruction index ip = .ok i →
    i.Stays start stop

/-- A jump stands at a place. -/
def JumpsAt (place target : Nat) : Prop :=
  ∃ i, program.instruction index place = .ok i ∧ i.command = .goto ∧ i.offset = target

/-- The mark at the end of a nested job's block stands at a place. -/
def MarksAt (place : Nat) : Prop :=
  ∃ i, program.instruction index place = .ok i ∧ i.command = .done

mutual

/-- The region of a statement from `start` to `stop`. -/
inductive Occupies : Statement → Nat → Nat → Prop where
  | plain {s : Statement} {owner : Instruction} {start : Nat} : s.blocks = [] →
    Owns program procedures index s start (start + 1) owner → Occupies s start (start + 1)
  /-- The block ends with a mark. -/
  | nested {s : Statement} {b : List Statement} {owner : Instruction} {start mid : Nat} :
    s.command = .ask ∨ s.command = .createTurtles ∨ s.command = .withLocalRandomness →
    s.blocks = [b] → Owns program procedures index s start (mid + 1) owner →
    OccupiesBlock b (start + 1) mid → MarksAt program index mid → Occupies s start (mid + 1)
  | ifThen {s : Statement} {b : List Statement} {owner : Instruction} {start stop : Nat} :
    s.command = .ifThen → s.blocks = [b] → Owns program procedures index s start stop owner →
    OccupiesBlock b (start + 1) stop → Occupies s start stop
  /-- The block ends with a jump over the second block. -/
  | ifElse {s : Statement} {b c : List Statement} {owner : Instruction} {start mid stop : Nat} :
    s.command = .ifElse → s.blocks = [b, c] → Owns program procedures index s start stop owner →
    OccupiesBlock b (start + 1) mid → JumpsAt program index mid stop →
    owner.alternate = mid + 1 → OccupiesBlock c (mid + 1) stop → Occupies s start stop
  /-- The block ends with a jump to the owner. -/
  | whileTrue {s : Statement} {b : List Statement} {owner : Instruction} {start mid : Nat} :
    s.command = .whileTrue → s.blocks = [b] →
    Owns program procedures index s start (mid + 1) owner → OccupiesBlock b (start + 1) mid →
    JumpsAt program index mid start → Occupies s start (mid + 1)
  /-- The block comes after a check of the counter, and ends with a jump to the check. -/
  | repeatTimes {s : Statement} {slot : Nat} {b : List Statement} {owner check : Instruction}
    {start mid : Nat} : s.command = .repeatTimes slot → s.blocks = [b] →
    Owns program procedures index s start (mid + 1) owner →
    program.instruction index (start + 1) = .ok check → check.command = .repeatCheck slot →
    check.next = start + 2 → check.offset = mid + 1 → OccupiesBlock b (start + 2) mid →
    JumpsAt program index mid (start + 1) → Occupies s start (mid + 1)
  /-- The first block ends with a mark. -/
  | carefully {s : Statement} {b c : List Statement} {owner : Instruction} {start mid stop : Nat} :
    s.command = .carefully → s.blocks = [b, c] → Owns program procedures index s start stop owner →
    OccupiesBlock b (start + 1) mid → MarksAt program index mid → owner.alternate = mid + 1 →
    OccupiesBlock c (mid + 1) stop → Occupies s start stop

/-- The region of statements, one after another. -/
inductive OccupiesBlock : List Statement → Nat → Nat → Prop where
  | nil {start : Nat} : OccupiesBlock [] start start
  | cons {s : Statement} {rest : List Statement} {start mid stop : Nat} : Occupies s start mid →
    OccupiesBlock rest mid stop → OccupiesBlock (s :: rest) start stop

end

end Program

section Inside

variable {program : Program} {procedures : List ProcedureDef} {index : Nat}

mutual

/-- No region is empty. -/
theorem Program.Occupies.lt : ∀ {s : Statement} {start stop : Nat},
    program.Occupies procedures index s start stop → start < stop
  | _, _, _, .plain _ _ => Nat.lt_succ_self _
  | _, _, _, .nested _ _ _ hb _ => by have hle := hb.le; omega
  | _, _, _, .ifThen _ _ _ hb => hb.le
  | _, _, _, .ifElse _ _ _ hb _ _ hc => by have hle := hb.le; have hle' := hc.le; omega
  | _, _, _, .whileTrue _ _ _ hb _ => by have hle := hb.le; omega
  | _, _, _, .repeatTimes _ _ _ _ _ _ _ hb _ => by have hle := hb.le; omega
  | _, _, _, .carefully _ _ _ hb _ _ hc => by have hle := hb.le; have hle' := hc.le; omega

theorem Program.OccupiesBlock.le : ∀ {b : List Statement} {start stop : Nat},
    program.OccupiesBlock procedures index b start stop → start ≤ stop
  | _, _, _, .nil => Nat.le_refl _
  | _, _, _, .cons hs hrest => by have hlt := hs.lt; have hle := hrest.le; omega

end

/-- The region of each block is inside of the statement's. -/
theorem Program.Occupies.blocks {t : Statement} {start stop : Nat}
    (h : program.Occupies procedures index t start stop) : ∀ b ∈ t.blocks, ∃ low high,
      start ≤ low ∧ high ≤ stop ∧ program.OccupiesBlock procedures index b low high := by
  have single {b : List Statement} {low high : Nat} (hblocks : t.blocks = [b]) (hlow : start ≤ low)
      (hhigh : high ≤ stop) (hb : program.OccupiesBlock procedures index b low high) :
      ∀ b ∈ t.blocks, ∃ low high,
        start ≤ low ∧ high ≤ stop ∧ program.OccupiesBlock procedures index b low high := by
    rw [hblocks]
    intro b' hb'
    cases List.mem_singleton.1 hb'
    exact ⟨low, high, hlow, hhigh, hb⟩
  have pair {b c : List Statement} {mid : Nat} (hblocks : t.blocks = [b, c])
      (hb : program.OccupiesBlock procedures index b (start + 1) mid)
      (hc : program.OccupiesBlock procedures index c (mid + 1) stop) :
      ∀ b ∈ t.blocks, ∃ low high,
        start ≤ low ∧ high ≤ stop ∧ program.OccupiesBlock procedures index b low high := by
    have hle := hb.le
    have hle' := hc.le
    rw [hblocks]
    refine List.forall_mem_cons.2 ⟨⟨_, _, by omega, by omega, hb⟩, fun b' hb' => ?_⟩
    cases List.mem_singleton.1 hb'
    exact ⟨_, _, by omega, by omega, hc⟩
  cases h with
  | plain hblocks _ =>
    rw [hblocks]
    rintro b ⟨⟩
  | nested _ hblocks _ hb _ => exact single hblocks (by omega) (by omega) hb
  | ifThen _ hblocks _ hb => exact single hblocks (by omega) (by omega) hb
  | whileTrue _ hblocks _ hb _ => exact single hblocks (by omega) (by omega) hb
  | repeatTimes _ hblocks _ _ _ _ _ hb _ => exact single hblocks (by omega) (by omega) hb
  | ifElse _ hblocks _ hb _ _ hc => exact pair hblocks hb hc
  | carefully _ hblocks _ hb _ _ hc => exact pair hblocks hb hc

mutual

theorem Program.Occupies.of_mem_all {s : Statement} : ∀ {t : Statement} {start stop : Nat},
    program.Occupies procedures index t start stop → s ∈ t.all →
      ∃ low high, start ≤ low ∧ high ≤ stop ∧ program.Occupies procedures index s low high
  | ⟨command, args, blocks, position⟩, start, stop, h, hs => by
    rw [Statement.all, List.mem_cons] at hs
    rcases hs with rfl | hs
    · exact ⟨start, stop, Nat.le_refl _, Nat.le_refl _, h⟩
    · exact Program.Occupies.of_mem_allOfBlocks h.blocks hs

theorem Program.Occupies.of_mem_allOfBlocks {s : Statement} :
    ∀ {blocks : List (List Statement)} {start stop : Nat}, (∀ b ∈ blocks, ∃ low high,
      start ≤ low ∧ high ≤ stop ∧ program.OccupiesBlock procedures index b low high) →
      s ∈ Statement.allOfBlocks blocks →
      ∃ low high, start ≤ low ∧ high ≤ stop ∧ program.Occupies procedures index s low high
  | [], _, _, _, hs => by
    rw [Statement.allOfBlocks] at hs
    cases hs
  | b :: rest, start, stop, h, hs => by
    rw [List.forall_mem_cons] at h
    obtain ⟨⟨low, high, hlow, hhigh, hb⟩, hrest⟩ := h
    rw [Statement.allOfBlocks, List.mem_append] at hs
    rcases hs with hs | hs
    · obtain ⟨low', high', hlow', hhigh', hs⟩ := Program.OccupiesBlock.of_mem_allOf hb hs
      exact ⟨low', high', by omega, by omega, hs⟩
    · exact Program.Occupies.of_mem_allOfBlocks hrest hs

/-- Every statement at any depth has its region inside of the block's. -/
theorem Program.OccupiesBlock.of_mem_allOf {s : Statement} :
    ∀ {b : List Statement} {start stop : Nat},
      program.OccupiesBlock procedures index b start stop → s ∈ Statement.allOf b →
      ∃ low high, start ≤ low ∧ high ≤ stop ∧ program.Occupies procedures index s low high
  | [], _, _, _, hs => by
    rw [Statement.allOf] at hs
    cases hs
  | t :: rest, start, stop, h, hs => by
    cases h with
    | @cons _ _ _ mid _ ht hrest =>
      have hlt := ht.lt
      have hle := hrest.le
      rw [Statement.allOf, List.mem_append] at hs
      rcases hs with hs | hs
      · obtain ⟨low, high, hlow, hhigh, hs⟩ := Program.Occupies.of_mem_all ht hs
        exact ⟨low, high, hlow, by omega, hs⟩
      · obtain ⟨low, high, hlow, hhigh, hs⟩ := Program.OccupiesBlock.of_mem_allOf hrest hs
        exact ⟨low, high, by omega, hhigh, hs⟩

end

end Inside

-- ════════════════════════════════════════════════════════════════════════
-- Places that code names
-- ════════════════════════════════════════════════════════════════════════

namespace Instruction.Stays

variable {low high low' high' ip : Nat} {i owner : Instruction} {position : Position}

theorem mono (h : i.Stays low high) (hlow : low' ≤ low) (hhigh : high ≤ high') :
    i.Stays low' high' := by
  refine ⟨h.inside, fun target hnames => ?_⟩
  obtain ⟨hge, hle⟩ := h.between target hnames
  exact ⟨by omega, by omega⟩

/-- An owner names its next place, where it resumes, and, with two blocks, the second. -/
theorem owning {resume alternate : Nat} {blocks : List Instruction}
    (owns : 0 < owner.command.blocks) (hnext : low ≤ owner.next ∧ owner.next ≤ high)
    (hresume : low ≤ resume ∧ resume ≤ high)
    (halternate : owner.command.blocks = 2 → low ≤ alternate ∧ alternate ≤ high) :
    (owner.owning resume alternate blocks).Stays low high where
  inside hret := by
    have hcommand : owner.command = .ret := hret
    rw [hcommand] at owns
    exact absurd owns (by decide)
  between target hnames := by
    cases hnames with
    | next _ => exact hnext
    | offset _ => exact hresume
    | alternate h => exact halternate (blocks_of_hasAlternate h)

theorem jump {target : Nat} (hnext : low ≤ ip + 1 ∧ ip + 1 ≤ high)
    (htarget : low ≤ target ∧ target ≤ high) : (jump position ip target).Stays low high where
  inside := by rintro ⟨⟩
  between place hnames := by
    cases hnames with
    | next _ => exact hnext
    | offset _ => exact htarget
    | alternate h => cases h

theorem loopHead {slot exit : Nat} (hnext : low ≤ ip + 1 ∧ ip + 1 ≤ high)
    (hexit : low ≤ exit ∧ exit ≤ high) : (loopHead slot position ip exit).Stays low high where
  inside := by rintro ⟨⟩
  between place hnames := by
    cases hnames with
    | next _ => exact hnext
    | offset _ => exact hexit
    | alternate h => cases h

theorem mark (low high : Nat) : (mark position ip).Stays low high where
  inside := by rintro ⟨⟩
  between place hnames := by
    cases hnames with
    | next h => cases h
    | offset h => cases h
    | alternate h => cases h

/-- A command of source without blocks names its next place alone. -/
theorem ofCommand {command : Command} {args : List Expr} (source : command.isSynthetic = false)
    (none : command.blocks = 0) (hnext : low ≤ ip + 1 ∧ ip + 1 ≤ high) :
    (ofCommand command args position ip).Stays low high where
  inside hret := by
    have hcommand : command = .ret := hret
    rw [hcommand] at source
    cases source
  between place hnames := by
    cases hnames with
    | next _ => exact hnext
    | offset h => exact absurd none (Nat.pos_iff_ne_zero.1 (blocks_of_hasOffset h source))
    | alternate h => exact absurd (none.symm.trans (blocks_of_hasAlternate h)) (by decide)

end Instruction.Stays

/-- The code of a region, or a part of it. -/
def StaysWithin (low high : Nat) (code : List Instruction) : Prop :=
  ∀ i ∈ code, i.Stays low high

namespace StaysWithin

variable {low high low' high' : Nat} {i : Instruction} {code rest : List Instruction}

theorem nil (low high : Nat) : StaysWithin low high [] := by
  rintro i ⟨⟩

theorem mono (h : StaysWithin low high code) (hlow : low' ≤ low) (hhigh : high ≤ high') :
    StaysWithin low' high' code :=
  fun i hi => (h i hi).mono hlow hhigh

theorem cons (h : i.Stays low high) (hrest : StaysWithin low high rest) :
    StaysWithin low high (i :: rest) :=
  List.forall_mem_cons.2 ⟨h, hrest⟩

theorem append (h : StaysWithin low high code) (hrest : StaysWithin low high rest) :
    StaysWithin low high (code ++ rest) :=
  List.forall_mem_append.2 ⟨h, hrest⟩

end StaysWithin

section

variable {owner : Instruction} {start : Nat} {block first second : Nat → List Instruction}

theorem within_oneBlock (one : owner.command.blocks = 1) (next : owner.next = start + 1)
    (hblock : ∀ place, StaysWithin place (place + (block place).length) (block place)) :
    StaysWithin start (start + (oneBlock owner start block).length)
      (oneBlock owner start block) := by
  have howner {high resume : Nat} {blocks : List Instruction} (hhigh : start + 1 ≤ high)
      (hresume : start ≤ resume ∧ resume ≤ high) :
      (owner.owning resume 0 blocks).Stays start high :=
    .owning (by omega) (by omega) hresume (by omega)
  unfold oneBlock
  split
  · simp only [List.length_cons]
    exact .cons (howner (by omega) (by omega)) ((hblock _).mono (by omega) (by omega))
  · simp only [List.length_cons, List.length_append, List.length_nil]
    exact .cons (howner (by omega) (by omega)) (((hblock _).mono (by omega) (by omega)).append
      (.cons (.jump (by omega) (by omega)) (.nil _ _)))
  · simp only [List.length_cons, List.length_append, List.length_nil]
    exact .cons (howner (by omega) (by omega)) (.cons (.loopHead (by omega) (by omega))
      (((hblock _).mono (by omega) (by omega)).append
        (.cons (.jump (by omega) (by omega)) (.nil _ _))))
  · simp only [List.length_cons, List.length_append, List.length_nil]
    exact .cons (howner (by omega) (by omega)) (((hblock _).mono (by omega) (by omega)).append
      (.cons (.mark _ _) (.nil _ _)))

theorem within_twoBlocks (two : owner.command.blocks = 2) (next : owner.next = start + 1)
    (hfirst : ∀ place, StaysWithin place (place + (first place).length) (first place))
    (hsecond : ∀ place, StaysWithin place (place + (second place).length) (second place)) :
    StaysWithin start (start + (twoBlocks owner start first second).length)
      (twoBlocks owner start first second) := by
  unfold twoBlocks
  simp only [List.length_cons, List.length_append]
  refine .cons (.owning (by omega) (by omega) (by omega) (by omega))
    (((hfirst _).mono (by omega) (by omega)).append
      (.cons ?_ ((hsecond _).mono (by omega) (by omega))))
  split
  · exact .jump (by omega) (by omega)
  · exact .mark _ _

end

/-- A statement with two blocks or more has two. -/
theorem Statement.Fits.two {sc : Scope} {command : Command} {args : List Expr}
    {b c : List Statement} {rest : List (List Statement)} {position : Position}
    (h : Statement.Fits sc ⟨command, args, b :: c :: rest, position⟩) :
    rest = [] ∧ command.blocks = 2 := by
  have hblocks : rest.length + 2 = command.blocks := h.blocks
  cases rest with
  | nil => exact ⟨rfl, hblocks.symm⟩
  | cons b' rest => cases command <;> simp [Command.blocks] at hblocks

variable {sc : Scope} (procedures : List ProcedureDef)

mutual

/-- The code of a statement names places of its region alone. -/
theorem within_layoutStatement :
    ∀ (t : Statement) (start : Nat), (∀ s ∈ t.all, s.Fits sc) →
      StaysWithin start (start + (layoutStatement procedures start t).length)
        (layoutStatement procedures start t)
  | ⟨command, args, [], position⟩, start, h => by
    have hfits := h ⟨command, args, [], position⟩ (by simp [Statement.all])
    have hsource := (Command.isSynthetic_resolve procedures command).trans hfits.source
    have hnone := (Command.blocks_resolve procedures command).trans hfits.blocks.symm
    rw [layoutStatement, List.length_singleton]
    exact .cons (.ofCommand hsource hnone (by omega)) (.nil _ _)
  | ⟨command, args, [b], position⟩, start, h => by
    rw [Statement.all, List.forall_mem_cons] at h
    obtain ⟨hfits, hinner⟩ := h
    rw [Statement.allOfBlocks, List.forall_mem_append] at hinner
    rw [layoutStatement]
    exact within_oneBlock ((Command.blocks_resolve _ _).trans hfits.blocks.symm) rfl
      fun place => within_layoutBlock b place hinner.1
  | ⟨command, args, b :: c :: rest, position⟩, start, h => by
    rw [Statement.all, List.forall_mem_cons] at h
    obtain ⟨hfits, hinner⟩ := h
    rw [Statement.allOfBlocks, List.forall_mem_append, Statement.allOfBlocks,
      List.forall_mem_append] at hinner
    rw [layoutStatement]
    exact within_twoBlocks ((Command.blocks_resolve _ _).trans hfits.two.2) rfl
      (fun place => within_layoutBlock b place hinner.1)
      fun place => within_layoutBlock c place hinner.2.1

theorem within_layoutBlock :
    ∀ (b : List Statement) (start : Nat), (∀ s ∈ Statement.allOf b, s.Fits sc) →
      StaysWithin start (start + (layoutBlock procedures start b).length)
        (layoutBlock procedures start b)
  | [], start, _ => by
    rw [layoutBlock]
    exact .nil _ _
  | t :: rest, start, h => by
    rw [Statement.allOf, List.forall_mem_append] at h
    rw [layoutBlock]
    simp only [List.length_append]
    exact ((within_layoutStatement t start h.1).mono (by omega) (by omega)).append
      ((within_layoutBlock rest _ h.2).mono (by omega) (by omega))

end

-- ════════════════════════════════════════════════════════════════════════
-- Code that is in place
-- ════════════════════════════════════════════════════════════════════════

/-- The instruction of a statement before its blocks are laid out. -/
def Statement.own (procedures : List ProcedureDef) (s : Statement) (start : Nat) : Instruction :=
  .ofCommand (s.command.resolve procedures) s.args s.position start

variable {procedures} {program : Program} {index start : Nat}

section Shapes

variable {s : Statement} {block first second : Nat → List Instruction}

theorem oneBlock_ifThen (hc : s.command = .ifThen) :
    oneBlock (s.own procedures start) start block =
      (s.own procedures start).owning (start + 1 + (block (start + 1)).length) 0 (block (start + 1))
        :: block (start + 1) := by
  simp only [oneBlock, Statement.own, Instruction.ofCommand, Instruction.plain, hc, Command.resolve]

theorem oneBlock_whileTrue (hc : s.command = .whileTrue) :
    oneBlock (s.own procedures start) start block =
      (s.own procedures start).owning (start + 1 + (block (start + 1)).length + 1) 0
          (block (start + 1))
        :: (block (start + 1)
          ++ [.jump s.position (start + 1 + (block (start + 1)).length) start]) := by
  simp only [oneBlock, Statement.own, Instruction.ofCommand, Instruction.plain, hc, Command.resolve]

theorem oneBlock_repeatTimes {slot : Nat} (hc : s.command = .repeatTimes slot) :
    oneBlock (s.own procedures start) start block =
      (s.own procedures start).owning (start + 2 + (block (start + 2)).length + 1) 0
          (block (start + 2))
        :: .loopHead slot s.position (start + 1) (start + 2 + (block (start + 2)).length + 1)
        :: (block (start + 2)
          ++ [.jump s.position (start + 2 + (block (start + 2)).length) (start + 1)]) := by
  simp only [oneBlock, Statement.own, Instruction.ofCommand, Instruction.plain, hc, Command.resolve]

theorem oneBlock_nested
    (hc : s.command = .ask ∨ s.command = .createTurtles ∨ s.command = .withLocalRandomness) :
    oneBlock (s.own procedures start) start block =
      (s.own procedures start).owning (start + 1 + (block (start + 1)).length + 1) 0
          (block (start + 1))
        :: (block (start + 1)
          ++ [.mark s.position (start + 1 + (block (start + 1)).length)]) := by
  rcases hc with hc | hc | hc <;>
    simp only [oneBlock, Statement.own, Instruction.ofCommand, Instruction.plain, hc,
      Command.resolve]

/-- The place of the instruction between two blocks, of the second block's code, and after it. -/
theorem twoBlocks_ifElse (hc : s.command = .ifElse) :
    let stop := start + 1 + (first (start + 1)).length
    let resume := stop + 1 + (second (stop + 1)).length
    twoBlocks (s.own procedures start) start first second =
      (s.own procedures start).owning resume (stop + 1) (first (start + 1) ++ second (stop + 1))
        :: (first (start + 1) ++ .jump s.position stop resume :: second (stop + 1)) := by
  simp only [twoBlocks, Statement.own, Instruction.ofCommand, Instruction.plain, hc,
    Command.resolve]

theorem twoBlocks_carefully (hc : s.command = .carefully) :
    let stop := start + 1 + (first (start + 1)).length
    let resume := stop + 1 + (second (stop + 1)).length
    twoBlocks (s.own procedures start) start first second =
      (s.own procedures start).owning resume (stop + 1) (first (start + 1) ++ second (stop + 1))
        :: (first (start + 1) ++ .mark s.position stop :: second (stop + 1)) := by
  simp only [twoBlocks, Statement.own, Instruction.ofCommand, Instruction.plain, hc,
    Command.resolve]

end Shapes

/-- Code in place that stays in its region. -/
theorem Program.Holds.stays {code : List Instruction} (hcode : program.Holds index start code)
    {stop : Nat} (hstop : start + code.length = stop) (hwithin : StaysWithin start stop code)
    (ip : Nat) (i : Instruction) (hge : start ≤ ip) (hlt : ip < stop)
    (hi : program.instruction index ip = .ok i) : i.Stays start stop := by
  have hin : ip - start < code.length := by omega
  have hthere := hcode (ip - start) _ (List.getElem?_eq_getElem hin)
  rw [show start + (ip - start) = ip by omega, hi] at hthere
  cases hthere
  exact hwithin _ (List.getElem_mem hin)

/-- A construct whose code is in place: its owner, and what comes after the owner. -/
theorem owns_of_holds {s : Statement} {code blocks rest : List Instruction} {alternate stop : Nat}
    (hcode : program.Holds index start code)
    (hwithin : StaysWithin start (start + code.length) code)
    (hregion : code = (s.own procedures start).owning stop alternate blocks :: rest)
    (hstop : start + 1 + rest.length = stop) :
    start + code.length = stop
      ∧ program.Owns procedures index s start stop
        ((s.own procedures start).owning stop alternate blocks)
      ∧ program.Holds index (start + 1) rest := by
  have hlength : start + code.length = stop := by
    rw [hregion, List.length_cons]
    omega
  have hclosed := hcode.stays rfl hwithin
  rw [hlength] at hclosed
  rw [hregion] at hcode
  exact ⟨hlength,
    { there := hcode.head
      command := rfl
      args := rfl
      position := rfl
      next := rfl
      resumes := fun _ => rfl
      closed := hclosed },
    hcode.tail⟩

section OneBlock

variable {s : Statement} {b : List Statement} {block : Nat → List Instruction}
  (hb : s.blocks = [b])
  (hcode : program.Holds index start (oneBlock (s.own procedures start) start block))
  (hwithin : StaysWithin start (start + (oneBlock (s.own procedures start) start block).length)
    (oneBlock (s.own procedures start) start block))
  (hblock : ∀ place, program.Holds index place (block place) →
    program.OccupiesBlock procedures index b place (place + (block place).length))
include hb hcode hwithin hblock

theorem occupies_ifThen (hc : s.command = .ifThen) :
    program.Occupies procedures index s start
      (start + (oneBlock (s.own procedures start) start block).length) := by
  obtain ⟨hlength, howns, hrest⟩ := owns_of_holds hcode hwithin (oneBlock_ifThen hc) rfl
  rw [hlength]
  exact .ifThen hc hb howns (hblock _ hrest)

theorem occupies_whileTrue (hc : s.command = .whileTrue) :
    program.Occupies procedures index s start
      (start + (oneBlock (s.own procedures start) start block).length) := by
  obtain ⟨hlength, howns, hrest⟩ := owns_of_holds hcode hwithin (oneBlock_whileTrue hc)
    (by simp only [List.length_append, List.length_singleton]; omega)
  rw [hlength]
  exact .whileTrue hc hb howns (hblock _ hrest.left) ⟨_, hrest.right.head, rfl, rfl⟩

theorem occupies_repeatTimes {slot : Nat} (hc : s.command = .repeatTimes slot) :
    program.Occupies procedures index s start
      (start + (oneBlock (s.own procedures start) start block).length) := by
  obtain ⟨hlength, howns, hrest⟩ := owns_of_holds hcode hwithin (oneBlock_repeatTimes hc)
    (by simp only [List.length_cons, List.length_append, List.length_nil]; omega)
  rw [hlength]
  exact .repeatTimes hc hb howns hrest.head rfl rfl rfl (hblock _ hrest.tail.left)
    ⟨_, hrest.tail.right.head, rfl, rfl⟩

theorem occupies_nested
    (hc : s.command = .ask ∨ s.command = .createTurtles ∨ s.command = .withLocalRandomness) :
    program.Occupies procedures index s start
      (start + (oneBlock (s.own procedures start) start block).length) := by
  obtain ⟨hlength, howns, hrest⟩ := owns_of_holds hcode hwithin (oneBlock_nested hc)
    (by simp only [List.length_append, List.length_singleton]; omega)
  rw [hlength]
  exact .nested hc hb howns (hblock _ hrest.left) ⟨_, hrest.right.head, rfl⟩

end OneBlock

section TwoBlocks

variable {s : Statement} {b c : List Statement} {first second : Nat → List Instruction}
  (hb : s.blocks = [b, c])
  (hcode : program.Holds index start (twoBlocks (s.own procedures start) start first second))
  (hwithin : StaysWithin start
    (start + (twoBlocks (s.own procedures start) start first second).length)
    (twoBlocks (s.own procedures start) start first second))
  (hfirst : ∀ place, program.Holds index place (first place) →
    program.OccupiesBlock procedures index b place (place + (first place).length))
  (hsecond : ∀ place, program.Holds index place (second place) →
    program.OccupiesBlock procedures index c place (place + (second place).length))
include hb hcode hwithin hfirst hsecond

theorem occupies_ifElse (hc : s.command = .ifElse) :
    program.Occupies procedures index s start
      (start + (twoBlocks (s.own procedures start) start first second).length) := by
  obtain ⟨hlength, howns, hrest⟩ := owns_of_holds hcode hwithin (twoBlocks_ifElse hc)
    (by simp only [List.length_append, List.length_cons]; omega)
  rw [hlength]
  exact .ifElse hc hb howns (hfirst _ hrest.left) ⟨_, hrest.right.head, rfl, rfl⟩ rfl
    (hsecond _ hrest.right.tail)

theorem occupies_carefully (hc : s.command = .carefully) :
    program.Occupies procedures index s start
      (start + (twoBlocks (s.own procedures start) start first second).length) := by
  obtain ⟨hlength, howns, hrest⟩ := owns_of_holds hcode hwithin (twoBlocks_carefully hc)
    (by simp only [List.length_append, List.length_cons]; omega)
  rw [hlength]
  exact .carefully hc hb howns (hfirst _ hrest.left) ⟨_, hrest.right.head, rfl⟩ rfl
    (hsecond _ hrest.right.tail)

end TwoBlocks

theorem Command.construct_of_blocks {c : Command} (h : c.blocks = 1) :
    (c = .ask ∨ c = .createTurtles ∨ c = .withLocalRandomness) ∨ c = .ifThen ∨ c = .whileTrue
      ∨ ∃ slot, c = .repeatTimes slot := by
  cases c <;> simp_all [Command.blocks]

theorem Command.choice_of_blocks {c : Command} (h : c.blocks = 2) :
    c = .ifElse ∨ c = .carefully := by
  cases c <;> simp_all [Command.blocks]

mutual

/-- The code of a statement is its region. -/
theorem occupies_layoutStatement :
    ∀ (t : Statement) (start : Nat), (∀ s ∈ t.all, s.Fits sc) →
      program.Holds index start (layoutStatement procedures start t) →
      program.Occupies procedures index t start
        (start + (layoutStatement procedures start t).length)
  | ⟨command, args, [], position⟩, start, h, hcode => by
    have hwithin := within_layoutStatement procedures _ start h
    have hnone := (h ⟨command, args, [], position⟩ (by simp [Statement.all])).blocks
    rw [layoutStatement] at hcode hwithin ⊢
    exact .plain rfl
      { there := hcode.head
        command := rfl
        args := rfl
        position := rfl
        next := rfl
        resumes := fun hblocks => absurd hnone (Nat.ne_of_lt hblocks)
        closed := hcode.stays rfl hwithin }
  | ⟨command, args, [b], position⟩, start, h, hcode => by
    have hwithin := within_layoutStatement procedures _ start h
    rw [Statement.all, List.forall_mem_cons] at h
    obtain ⟨hfits, hinner⟩ := h
    rw [Statement.allOfBlocks, List.forall_mem_append] at hinner
    rw [layoutStatement] at hcode hwithin ⊢
    have hblock (place : Nat) := occupies_layoutBlock b place hinner.1
    rcases Command.construct_of_blocks hfits.blocks.symm with hc | hc | hc | ⟨slot, hc⟩
    · exact occupies_nested rfl hcode hwithin hblock hc
    · exact occupies_ifThen rfl hcode hwithin hblock hc
    · exact occupies_whileTrue rfl hcode hwithin hblock hc
    · exact occupies_repeatTimes rfl hcode hwithin hblock hc
  | ⟨command, args, b :: c :: rest, position⟩, start, h, hcode => by
    have hwithin := within_layoutStatement procedures _ start h
    rw [Statement.all, List.forall_mem_cons] at h
    obtain ⟨hfits, hinner⟩ := h
    obtain ⟨rfl, htwo⟩ := hfits.two
    rw [Statement.allOfBlocks, List.forall_mem_append, Statement.allOfBlocks,
      List.forall_mem_append] at hinner
    rw [layoutStatement] at hcode hwithin ⊢
    have hfirst (place : Nat) := occupies_layoutBlock b place hinner.1
    have hsecond (place : Nat) := occupies_layoutBlock c place hinner.2.1
    rcases Command.choice_of_blocks htwo with hc | hc
    · exact occupies_ifElse rfl hcode hwithin hfirst hsecond hc
    · exact occupies_carefully rfl hcode hwithin hfirst hsecond hc

theorem occupies_layoutBlock :
    ∀ (b : List Statement) (start : Nat), (∀ s ∈ Statement.allOf b, s.Fits sc) →
      program.Holds index start (layoutBlock procedures start b) →
      program.OccupiesBlock procedures index b start
        (start + (layoutBlock procedures start b).length)
  | [], start, _, _ => .nil
  | t :: rest, start, h, hcode => by
    rw [Statement.allOf, List.forall_mem_append] at h
    rw [layoutBlock] at hcode ⊢
    have hrest := occupies_layoutBlock rest _ h.2 hcode.right
    rw [List.length_append, ← Nat.add_assoc]
    exact .cons (occupies_layoutStatement t start h.1 hcode.left) hrest

end

-- ════════════════════════════════════════════════════════════════════════
-- Programs
-- ════════════════════════════════════════════════════════════════════════

/-- The procedures of an assembled program are laid out one by one, and their statements fit. -/
theorem ProgramDef.layout_of_assemble {d : ProgramDef} {w : World} {forgiving : Bool}
    {program : Program} (h : d.assemble w forgiving = .ok program) :
    program.procedures.size = d.procedures.length
      ∧ ∀ (index : Nat) (p : ProcedureDef), d.procedures[index]? = some p →
        program.procedures[index]? = some (p.layout d.procedures)
          ∧ ∀ s ∈ Statement.allOf p.body, s.Fits (d.scope w forgiving p) := by
  obtain ⟨hcheck, rfl, _⟩ := assemble_eq_ok h
  refine ⟨by simp [layout], fun index p hp => ⟨by simp [layout, hp], ?_⟩⟩
  exact (check_eq_ok_iff.1 hcheck).statements p (List.mem_of_getElem? hp)

/-- In an assembled program every statement of every procedure, at any depth, occupies a region, and
the code of a procedure is the regions of its statements and the only return. Emitting the code in
one pass, with the places that are not known yet patched in later, gives this program. -/
theorem ProgramDef.occupies_of_assemble {d : ProgramDef} {w : World} {forgiving : Bool}
    {program : Program} (h : d.assemble w forgiving = .ok program) :
    d.assembleInOnePass w forgiving = .ok program
      ∧ program.procedures.size = d.procedures.length
      ∧ ∀ (index : Nat) (p : ProcedureDef), d.procedures[index]? = some p →
        ∃ q stop, program.procedures[index]? = some q ∧ q.code.size = stop + 1
          ∧ program.OccupiesBlock d.procedures index p.body 0 stop
          ∧ (∀ s ∈ Statement.allOf p.body, ∃ start fin, fin ≤ stop
            ∧ program.Occupies d.procedures index s start fin)
          ∧ ∀ ip i, q.code[ip]? = some i → (i.command = .ret ↔ ip = stop) := by
  obtain ⟨hsize, hlayout⟩ := layout_of_assemble h
  refine ⟨(d.assembleInOnePass_eq w forgiving).trans h, hsize, fun index p hp => ?_⟩
  obtain ⟨hq, hfits⟩ := hlayout index p hp
  have hbody := occupies_layoutBlock p.body 0 hfits (holds_layout h hp).left
  rw [Nat.zero_add] at hbody
  refine ⟨_, _, hq, by simp [ProcedureDef.layout], hbody, fun s hs => ?_, fun ip i hi => ?_⟩
  · obtain ⟨start, fin, _, hfin, hoccupies⟩ := hbody.of_mem_allOf hs
    exact ⟨start, fin, hfin, hoccupies⟩
  -- the return is the instruction after the body
  · have hin : ip < (layoutBlock d.procedures 0 p.body).length + 1 := by
      simpa [ProcedureDef.layout] using (Array.getElem?_eq_some_iff.1 hi).1
    have hcodeAt : (layoutBlock d.procedures 0 p.body
        ++ [.ending (layoutBlock d.procedures 0 p.body).length])[ip]? = some i := by
      simpa [ProcedureDef.layout] using hi
    by_cases hlt : ip < (layoutBlock d.procedures 0 p.body).length
    · rw [List.getElem?_append_left hlt] at hcodeAt
      have hstays := within_layoutBlock _ p.body 0 hfits i (List.mem_of_getElem? hcodeAt)
      exact ⟨fun hret => absurd hret hstays.inside, by omega⟩
    · have hlast : ip = (layoutBlock d.procedures 0 p.body).length := by omega
      subst hlast
      rw [List.getElem?_append_right (Nat.le_refl _), Nat.sub_self] at hcodeAt
      cases hcodeAt
      exact ⟨fun _ => rfl, fun _ => rfl⟩

/-- Nine places of code, and the return at the tenth. -/
theorem ProgramDef.occupies_of_assemble_nestedCall :
    ∃ program p, (nestedCall "SUB").assemble (World.build .default) false = .ok program
      ∧ (nestedCall "SUB").procedures[0]? = some p
      ∧ program.OccupiesBlock (nestedCall "SUB").procedures 0 p.body 0 9
      ∧ ∃ i, program.instruction 0 9 = .ok i ∧ i.command = .ret := by
  have hok : (nestedCall "SUB").assemble (World.build .default) false =
      .ok (nestedCall "SUB").layout := rfl
  obtain ⟨_, _, hregions⟩ := occupies_of_assemble hok
  obtain ⟨q, stop, hq, hsize, hbody, _⟩ := hregions 0 _ rfl
  cases hq
  cases hsize
  exact ⟨_, _, hok, rfl, hbody, _, rfl, rfl⟩

end Swarm
