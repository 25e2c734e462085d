import Mathlib.Data.List.Forall2
import Swarm.Proofs.Program.Regions

/-!
# Where code comes from

Every place of a procedure's code has a locus in the source: the instruction that stands there is a
statement's own command, or one that the statement's construct needs, and the statement lies in the
blocks of the statements around it. The loci are read off the source alone, in the order of the
code; where jumps lead and how long the code is plays no part in them.

## Main definitions

* `Purpose`: what an instruction is there for
* `Locus`: a purpose, and the statements around
* `Statement.loci`, `ProcedureDef.loci`: the loci of code, place by place
* `Instruction.Serves`: an instruction that fulfils a purpose
* `Statement.Lies`: a statement in the blocks of the statements around it
* `Compositional`: a property that each way to put code together keeps

## Main results

* `Compositional.layoutBlock`: such a property holds of the code of every block
* `ProcedureDef.serving_layout`: the instructions of a procedure fulfil the purposes of its loci
* `ProcedureDef.commands_loci`: every statement has one place for its own command
* `ProcedureDef.within_of_mem_loci`: the statements around are those in whose blocks a statement
  lies
-/

namespace Swarm

/-- What an instruction is there for. -/
inductive Purpose where
  /-- To carry out the statement's own command. -/
  | command (s : Statement)
  /-- To check the counter of the statement's loop. -/
  | loopHead (s : Statement)
  /-- To leave or to repeat a block of the statement. -/
  | jump (s : Statement)
  /-- To end the block that the statement runs as a nested job. -/
  | mark (s : Statement)
  /-- To end the procedure. -/
  | ending

namespace Purpose

/-- The statement that the instruction belongs to. -/
def statement? : Purpose → Option Statement
  | command s => some s
  | loopHead s => some s
  | jump s => some s
  | mark s => some s
  | ending => none

/-- The statement whose own command it is. -/
def command? : Purpose → Option Statement
  | command s => some s
  | _ => none

end Purpose

/-- Where in the source an instruction belongs. -/
structure Locus where
  purpose : Purpose
  /-- The statements in whose blocks its statement lies, the innermost first, each with the number
  of the block. -/
  around : List (Statement × Nat)

namespace Locus

/-- The loci of a construct with one block, given those of the block. -/
def oneBlock (s : Statement) (around : List (Statement × Nat)) (block : List Locus) : List Locus :=
  match s.command with
  | .ifThen => ⟨.command s, around⟩ :: block
  | .whileTrue => ⟨.command s, around⟩ :: (block ++ [⟨.jump s, around⟩])
  | .repeatTimes _ =>
    ⟨.command s, around⟩ :: ⟨.loopHead s, around⟩ :: (block ++ [⟨.jump s, around⟩])
  | _ => ⟨.command s, around⟩ :: (block ++ [⟨.mark s, around⟩])

/-- The loci of a construct with two blocks. -/
def twoBlocks (s : Statement) (around : List (Statement × Nat)) (first second : List Locus) :
    List Locus :=
  match s.command with
  | .ifElse => ⟨.command s, around⟩ :: (first ++ ⟨.jump s, around⟩ :: second)
  | _ => ⟨.command s, around⟩ :: (first ++ ⟨.mark s, around⟩ :: second)

section Shapes

variable {s : Statement} {around : List (Statement × Nat)} {block first second : List Locus}

theorem oneBlock_ifThen (hc : s.command = .ifThen) :
    oneBlock s around block = ⟨.command s, around⟩ :: block := by
  simp only [oneBlock, hc]

theorem oneBlock_whileTrue (hc : s.command = .whileTrue) :
    oneBlock s around block = ⟨.command s, around⟩ :: (block ++ [⟨.jump s, around⟩]) := by
  simp only [oneBlock, hc]

theorem oneBlock_repeatTimes {slot : Nat} (hc : s.command = .repeatTimes slot) :
    oneBlock s around block =
      ⟨.command s, around⟩ :: ⟨.loopHead s, around⟩ :: (block ++ [⟨.jump s, around⟩]) := by
  simp only [oneBlock, hc]

theorem oneBlock_nested
    (hc : s.command = .ask ∨ s.command = .createTurtles ∨ s.command = .withLocalRandomness) :
    oneBlock s around block = ⟨.command s, around⟩ :: (block ++ [⟨.mark s, around⟩]) := by
  rcases hc with hc | hc | hc <;> simp only [oneBlock, hc]

theorem twoBlocks_ifElse (hc : s.command = .ifElse) :
    twoBlocks s around first second =
      ⟨.command s, around⟩ :: (first ++ ⟨.jump s, around⟩ :: second) := by
  simp only [twoBlocks, hc]

theorem twoBlocks_carefully (hc : s.command = .carefully) :
    twoBlocks s around first second =
      ⟨.command s, around⟩ :: (first ++ ⟨.mark s, around⟩ :: second) := by
  simp only [twoBlocks, hc]

end Shapes

end Locus

namespace Statement

mutual

/-- The loci of the code of a statement, given the statements around it. -/
def loci (around : List (Statement × Nat)) : Statement → List Locus
  | ⟨command, args, [], position⟩ => [⟨.command ⟨command, args, [], position⟩, around⟩]
  | ⟨command, args, [b], position⟩ =>
    let s : Statement := ⟨command, args, [b], position⟩
    Locus.oneBlock s around (lociOf ((s, 0) :: around) b)
  | ⟨command, args, b :: c :: rest, position⟩ =>
    let s : Statement := ⟨command, args, b :: c :: rest, position⟩
    Locus.twoBlocks s around (lociOf ((s, 0) :: around) b) (lociOf ((s, 1) :: around) c)

/-- The loci of the code of statements, one after another. -/
def lociOf (around : List (Statement × Nat)) : List Statement → List Locus
  | [] => []
  | s :: rest => loci around s ++ lociOf around rest

end

/-- The statement lies in the body, in the blocks of the statements around it. -/
inductive Lies (body : List Statement) : Statement → List (Statement × Nat) → Prop where
  | outermost {s : Statement} : s ∈ body → Lies body s []
  | inside {s outer : Statement} {around : List (Statement × Nat)} {n : Nat} {b : List Statement} :
    Lies body outer around → outer.blocks[n]? = some b → s ∈ b → Lies body s ((outer, n) :: around)

end Statement

/-- The loci of the code of a procedure. -/
def ProcedureDef.loci (p : ProcedureDef) : List Locus :=
  Statement.lociOf [] p.body ++ [⟨.ending, []⟩]

/-- The instruction fulfils the purpose. -/
def Instruction.Serves (procedures : List ProcedureDef) (i : Instruction) : Purpose → Prop
  | .command s =>
    i.command = s.command.resolve procedures ∧ i.args = s.args ∧ i.position = s.position
  | .loopHead s =>
    ∃ slot, s.command = .repeatTimes slot ∧ i.command = .repeatCheck slot ∧ i.position = s.position
  | .jump s => i.command = .goto ∧ i.position = s.position
  | .mark s => i.command = .done ∧ i.position = s.position
  | .ending => i.command = .ret

-- ════════════════════════════════════════════════════════════════════════
-- Code and loci, put together
-- ════════════════════════════════════════════════════════════════════════

/-- A property of a piece of code that each way to put code together keeps. It speaks of the
statements around the piece, the place where it starts, all statements that are laid out in it, the
code and its loci. -/
structure Compositional (procedures : List ProcedureDef) (sc : Scope)
    (P : List (Statement × Nat) → Nat → List Statement → List Instruction → List Locus → Prop) :
    Prop where
  nil {around : List (Statement × Nat)} {start : Nat} : P around start [] [] []
  append {around : List (Statement × Nat)} {start : Nat} {inner rest : List Statement}
    {code more : List Instruction} {loci others : List Locus} : P around start inner code loci →
    P around (start + code.length) rest more others →
    P around start (inner ++ rest) (code ++ more) (loci ++ others)
  bare {s : Statement} {around : List (Statement × Nat)} {start : Nat} : s.Fits sc →
    s.blocks = [] → s.all = [s] →
    P around start s.all [s.own procedures start] [⟨.command s, around⟩]
  oneBlock {s : Statement} {around : List (Statement × Nat)} {start : Nat} {inner : List Statement}
    {block : Nat → List Instruction} {loci : List Locus} : s.command.blocks = 1 →
    s.all = s :: inner → (∀ place, P ((s, 0) :: around) place inner (block place) loci) →
    P around start s.all (oneBlock (s.own procedures start) start block)
      (Locus.oneBlock s around loci)
  twoBlocks {s : Statement} {around : List (Statement × Nat)} {start : Nat}
    {inner rest : List Statement} {first second : Nat → List Instruction}
    {loci others : List Locus} : s.command.blocks = 2 → s.all = s :: (inner ++ rest) →
    (∀ place, P ((s, 0) :: around) place inner (first place) loci) →
    (∀ place, P ((s, 1) :: around) place rest (second place) others) →
    P around start s.all (twoBlocks (s.own procedures start) start first second)
      (Locus.twoBlocks s around loci others)

section Compositional

variable {procedures : List ProcedureDef} {sc : Scope}
  {P : List (Statement × Nat) → Nat → List Statement → List Instruction → List Locus → Prop}

mutual

theorem Compositional.layoutStatement (h : Compositional procedures sc P) :
    ∀ (t : Statement) (around : List (Statement × Nat)) (start : Nat), (∀ s ∈ t.all, s.Fits sc) →
      P around start t.all (layoutStatement procedures start t) (t.loci around)
  | ⟨command, args, [], position⟩, around, start, hfits => by
    have hall : Statement.all ⟨command, args, [], position⟩ = [⟨command, args, [], position⟩] := by
      rw [Statement.all, Statement.allOfBlocks]
    have hself := hfits ⟨command, args, [], position⟩ (by rw [hall]; exact List.mem_singleton_self _)
    rw [Swarm.layoutStatement, Statement.loci]
    exact h.bare hself rfl hall
  | ⟨command, args, [b], position⟩, around, start, hfits => by
    have hall : Statement.all ⟨command, args, [b], position⟩ =
        ⟨command, args, [b], position⟩ :: Statement.allOf b := by
      rw [Statement.all, Statement.allOfBlocks, Statement.allOfBlocks, List.append_nil]
    have hinner := hfits
    rw [hall, List.forall_mem_cons] at hinner
    rw [Swarm.layoutStatement, Statement.loci]
    exact h.oneBlock (s := ⟨command, args, [b], position⟩) hinner.1.blocks.symm hall
      fun place => h.layoutBlock b _ place hinner.2
  | ⟨command, args, b :: c :: rest, position⟩, around, start, hfits => by
    have hinner := hfits
    rw [Statement.all, List.forall_mem_cons] at hinner
    obtain ⟨rfl, htwo⟩ := hinner.1.two
    have hall : Statement.all ⟨command, args, [b, c], position⟩ =
        ⟨command, args, [b, c], position⟩ :: (Statement.allOf b ++ Statement.allOf c) := by
      rw [Statement.all, Statement.allOfBlocks, Statement.allOfBlocks, Statement.allOfBlocks,
        List.append_nil]
    rw [hall, List.forall_mem_cons, List.forall_mem_append] at hfits
    rw [Swarm.layoutStatement, Statement.loci]
    exact h.twoBlocks (s := ⟨command, args, [b, c], position⟩) htwo hall
      (fun place => h.layoutBlock b _ place hfits.2.1)
      fun place => h.layoutBlock c _ place hfits.2.2

/-- What each way to put code together keeps holds of the code of every block. -/
theorem Compositional.layoutBlock (h : Compositional procedures sc P) :
    ∀ (b : List Statement) (around : List (Statement × Nat)) (start : Nat),
      (∀ s ∈ Statement.allOf b, s.Fits sc) →
      P around start (Statement.allOf b) (layoutBlock procedures start b)
        (Statement.lociOf around b)
  | [], around, start, _ => by
    rw [Swarm.layoutBlock, Statement.lociOf, Statement.allOf]
    exact h.nil
  | t :: rest, around, start, hfits => by
    rw [Statement.allOf, List.forall_mem_append] at hfits
    rw [Swarm.layoutBlock, Statement.lociOf, Statement.allOf]
    exact h.append (h.layoutStatement t around start hfits.1)
      (h.layoutBlock rest around _ hfits.2)

end

end Compositional

-- ════════════════════════════════════════════════════════════════════════
-- Instructions and their purposes
-- ════════════════════════════════════════════════════════════════════════

/-- The instructions of code fulfil the purposes of the loci, place by place. -/
def Serving (procedures : List ProcedureDef) : List Instruction → List Locus → Prop :=
  List.Forall₂ fun i locus => i.Serves procedures locus.purpose

section Serving

variable {procedures : List ProcedureDef} {s : Statement} {start : Nat}
  {around : List (Statement × Nat)} {code more : List Instruction} {loci others : List Locus}

theorem Serving.append (h : Serving procedures code loci) (hmore : Serving procedures more others) :
    Serving procedures (code ++ more) (loci ++ others) :=
  List.rel_append h hmore

/-- Every instruction of the code has a locus, whose purpose it fulfils. -/
theorem Serving.exists_locus (h : Serving procedures code loci) :
    ∀ {ip : Nat} {i : Instruction}, code[ip]? = some i →
      ∃ locus, loci[ip]? = some locus ∧ i.Serves procedures locus.purpose := by
  induction h with
  | nil => rintro ip i ⟨⟩
  | @cons j locus _ _ hserves _ ih =>
    intro ip i hi
    cases ip with
    | zero =>
      cases hi
      exact ⟨locus, rfl, hserves⟩
    | succ ip => exact ih hi

theorem Serving.command {resume alternate : Nat} {blocks : List Instruction}
    (hrest : Serving procedures code loci) :
    Serving procedures ((s.own procedures start).owning resume alternate blocks :: code)
      (⟨.command s, around⟩ :: loci) :=
  .cons ⟨rfl, rfl, rfl⟩ hrest

theorem Serving.jump {ip target : Nat} (hrest : Serving procedures code loci) :
    Serving procedures (.jump s.position ip target :: code) (⟨.jump s, around⟩ :: loci) :=
  .cons ⟨rfl, rfl⟩ hrest

theorem Serving.mark {ip : Nat} (hrest : Serving procedures code loci) :
    Serving procedures (.mark s.position ip :: code) (⟨.mark s, around⟩ :: loci) :=
  .cons ⟨rfl, rfl⟩ hrest

theorem serving_oneBlock (one : s.command.blocks = 1) {block : Nat → List Instruction}
    (hblock : ∀ place, Serving procedures (block place) loci) :
    Serving procedures (oneBlock (s.own procedures start) start block)
      (Locus.oneBlock s around loci) := by
  rcases Command.construct_of_blocks one with hc | hc | hc | ⟨slot, hc⟩
  · rw [oneBlock_nested hc, Locus.oneBlock_nested hc]
    exact .command ((hblock _).append (.mark .nil))
  · rw [oneBlock_ifThen hc, Locus.oneBlock_ifThen hc]
    exact .command (hblock _)
  · rw [oneBlock_whileTrue hc, Locus.oneBlock_whileTrue hc]
    exact .command ((hblock _).append (.jump .nil))
  · rw [oneBlock_repeatTimes hc, Locus.oneBlock_repeatTimes hc]
    exact .command (.cons ⟨slot, hc, rfl, rfl⟩ ((hblock _).append (.jump .nil)))

theorem serving_twoBlocks (two : s.command.blocks = 2) {first second : Nat → List Instruction}
    (hfirst : ∀ place, Serving procedures (first place) loci)
    (hsecond : ∀ place, Serving procedures (second place) others) :
    Serving procedures (twoBlocks (s.own procedures start) start first second)
      (Locus.twoBlocks s around loci others) := by
  rcases Command.choice_of_blocks two with hc | hc
  · rw [twoBlocks_ifElse hc, Locus.twoBlocks_ifElse hc]
    exact .command ((hfirst _).append (.jump (hsecond _)))
  · rw [twoBlocks_carefully hc, Locus.twoBlocks_carefully hc]
    exact .command ((hfirst _).append (.mark (hsecond _)))

end Serving

variable {sc : Scope} (procedures : List ProcedureDef)

theorem serving_compositional :
    Compositional procedures sc fun _ _ _ code loci => Serving procedures code loci where
  nil := .nil
  append h hmore := h.append hmore
  bare _ _ _ := .cons ⟨rfl, rfl, rfl⟩ .nil
  oneBlock one _ hblock := serving_oneBlock one hblock
  twoBlocks two _ hfirst hsecond := serving_twoBlocks two hfirst hsecond

/-- The instructions of a procedure fulfil the purposes of its loci. -/
theorem ProcedureDef.serving_layout {p : ProcedureDef}
    (h : ∀ s ∈ Statement.allOf p.body, s.Fits sc) :
    Serving procedures (p.layout procedures).code.toList p.loci :=
  ((serving_compositional procedures).layoutBlock p.body [] 0 h).append (.cons rfl .nil)

-- ════════════════════════════════════════════════════════════════════════
-- Statements and their places
-- ════════════════════════════════════════════════════════════════════════

/-- The statements whose own commands stand at the places, in order. -/
def Locus.commands (loci : List Locus) : List Statement :=
  loci.filterMap fun locus => locus.purpose.command?

/-- The statement of the locus lies in the blocks of the statements around it. -/
def Locus.Within (body : List Statement) (locus : Locus) : Prop :=
  ∀ s, locus.purpose.statement? = some s → s.Lies body locus.around

namespace Locus

variable {body : List Statement} {s : Statement} {around : List (Statement × Nat)}
  {block first second : List Locus}

theorem commands_oneBlock : commands (oneBlock s around block) = s :: commands block := by
  unfold oneBlock
  split <;> simp [commands, Purpose.command?]

theorem commands_twoBlocks :
    commands (twoBlocks s around first second) = s :: (commands first ++ commands second) := by
  unfold twoBlocks
  split <;> simp [commands, Purpose.command?]

theorem within_of_lies (h : s.Lies body around) {purpose : Purpose}
    (hpurpose : purpose.statement? = some s) : Within body ⟨purpose, around⟩ := by
  intro t ht
  cases hpurpose.symm.trans ht
  exact h

theorem within_oneBlock (h : s.Lies body around) (hblock : ∀ locus ∈ block, locus.Within body) :
    ∀ locus ∈ oneBlock s around block, locus.Within body := by
  have own {purpose : Purpose} (hpurpose : purpose.statement? = some s) :
      Within body ⟨purpose, around⟩ := within_of_lies h hpurpose
  have last {purpose : Purpose} (hpurpose : purpose.statement? = some s) :
      ∀ locus ∈ block ++ [⟨purpose, around⟩], locus.Within body :=
    List.forall_mem_append.2 ⟨hblock, List.forall_mem_singleton.2 (own hpurpose)⟩
  unfold oneBlock
  split
  · exact List.forall_mem_cons.2 ⟨own rfl, hblock⟩
  · exact List.forall_mem_cons.2 ⟨own rfl, last rfl⟩
  · exact List.forall_mem_cons.2 ⟨own rfl, List.forall_mem_cons.2 ⟨own rfl, last rfl⟩⟩
  · exact List.forall_mem_cons.2 ⟨own rfl, last rfl⟩

theorem within_twoBlocks (h : s.Lies body around) (hfirst : ∀ locus ∈ first, locus.Within body)
    (hsecond : ∀ locus ∈ second, locus.Within body) :
    ∀ locus ∈ twoBlocks s around first second, locus.Within body := by
  have own {purpose : Purpose} (hpurpose : purpose.statement? = some s) :
      Within body ⟨purpose, around⟩ := within_of_lies h hpurpose
  unfold twoBlocks
  split <;> exact List.forall_mem_cons.2 ⟨own rfl,
    List.forall_mem_append.2 ⟨hfirst, List.forall_mem_cons.2 ⟨own rfl, hsecond⟩⟩⟩

end Locus

theorem commands_compositional :
    Compositional procedures sc fun _ _ inner _ loci => Locus.commands loci = inner where
  nil := rfl
  append h hmore := by rw [← h, ← hmore]; exact List.filterMap_append
  bare _ _ hall := hall.symm
  oneBlock _ hall hblock := by rw [Locus.commands_oneBlock, hblock 0, hall]
  twoBlocks _ hall hfirst hsecond := by
    rw [Locus.commands_twoBlocks, hfirst 0, hsecond 0, hall]

/-- Every statement of a procedure has one place for its own command, in source order. -/
theorem ProcedureDef.commands_loci {p : ProcedureDef}
    (h : ∀ s ∈ Statement.allOf p.body, s.Fits sc) :
    Locus.commands p.loci = Statement.allOf p.body := by
  have hbody := (commands_compositional []).layoutBlock p.body [] 0 h
  rw [Locus.commands, loci, List.filterMap_append]
  rw [Locus.commands] at hbody
  rw [hbody]
  exact List.append_nil _

theorem ProcedureDef.mem_allOf_of_command {p : ProcedureDef}
    (h : ∀ s ∈ Statement.allOf p.body, s.Fits sc) {s : Statement} {around : List (Statement × Nat)}
    (hs : ⟨.command s, around⟩ ∈ p.loci) : s ∈ Statement.allOf p.body := by
  rw [← p.commands_loci h]
  exact List.mem_filterMap.2 ⟨_, hs, rfl⟩

variable {body : List Statement}

mutual

theorem Statement.within_of_mem_loci :
    ∀ (t : Statement) (around : List (Statement × Nat)), t.Lies body around →
      ∀ locus ∈ t.loci around, locus.Within body
  | ⟨command, args, [], position⟩, around, h => by
    rw [loci]
    exact List.forall_mem_singleton.2 (Locus.within_of_lies h rfl)
  | ⟨command, args, [b], position⟩, around, h => by
    rw [loci]
    exact Locus.within_oneBlock h (within_of_mem_lociOf b _ fun s hs => .inside h rfl hs)
  | ⟨command, args, b :: c :: rest, position⟩, around, h => by
    rw [loci]
    exact Locus.within_twoBlocks h (within_of_mem_lociOf b _ fun s hs => .inside h rfl hs)
      (within_of_mem_lociOf c _ fun s hs => .inside h rfl hs)

/-- The statements of a block lie in the blocks that their loci say. -/
theorem Statement.within_of_mem_lociOf :
    ∀ (b : List Statement) (around : List (Statement × Nat)), (∀ s ∈ b, s.Lies body around) →
      ∀ locus ∈ lociOf around b, locus.Within body
  | [], around, _ => by
    rw [lociOf]
    rintro locus ⟨⟩
  | t :: rest, around, h => by
    rw [List.forall_mem_cons] at h
    rw [lociOf]
    exact List.forall_mem_append.2
      ⟨within_of_mem_loci t around h.1, within_of_mem_lociOf rest around h.2⟩

end

/-- The statements around a place are those in whose blocks its statement lies. -/
theorem ProcedureDef.within_of_mem_loci {p : ProcedureDef} {locus : Locus} (h : locus ∈ p.loci) :
    locus.Within p.body := by
  have hbody : ∀ locus ∈ Statement.lociOf [] p.body, locus.Within p.body :=
    Statement.within_of_mem_lociOf p.body [] fun s hs => .outermost hs
  have hend : Locus.Within p.body ⟨.ending, []⟩ := by
    rintro s ⟨⟩
  exact List.forall_mem_append.2 ⟨hbody, List.forall_mem_singleton.2 hend⟩ locus h

end Swarm
