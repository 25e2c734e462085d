import Swarm.Proofs.Program.Loci

/-!
# Which instructions end turns

An instruction of assembled code is flagged if it ends the turn of an agent in a concurrent step.
The flag of a construct is made from the code of its blocks, jumps and marks included. What it says
is a fact about the source: the statement, or one nested in its blocks at any depth, has a command
that ends turns. Jumps, marks, checks of loops and returns are never flagged.

## Main definitions

* `Statement.anySwitches`: whether one of several statements has a command that ends turns
* `Locus.switches`: the flag that the source asks for at a place
* `Flags`: code with the flags that the source asks for

## Main results

* `flags_compositional`: code has its flags
* `ProgramDef.switches_of_assemble`: so has every instruction of an assembled program
-/

namespace Swarm

/-- Whether one of the statements has a command that ends turns. -/
def Statement.anySwitches (statements : List Statement) : Bool :=
  statements.any fun s => s.command.switches

theorem Statement.anySwitches_cons (s : Statement) (rest : List Statement) :
    anySwitches (s :: rest) = (s.command.switches || anySwitches rest) :=
  rfl

theorem Statement.anySwitches_append (statements rest : List Statement) :
    anySwitches (statements ++ rest) = (anySwitches statements || anySwitches rest) :=
  List.any_append

/-- Whether the instruction that belongs here ends turns: it is a statement's own command, and the
statement or one nested in it has a command that does. -/
def Locus.switches (locus : Locus) : Bool :=
  match locus.purpose with
  | .command s => Statement.anySwitches s.all
  | _ => false

/-- The code of statements, given with all that are nested in them, has the flags of its loci. -/
structure Flags (code : List Instruction) (loci : List Locus) (statements : List Statement) :
    Prop where
  each : code.map Instruction.switches = loci.map Locus.switches
  any : code.any Instruction.switches = Statement.anySwitches statements

theorem Command.switches_resolve (procedures : List ProcedureDef) (c : Command) :
    (c.resolve procedures).switches = c.switches := by
  cases c <;> rfl

section Flags

variable {procedures : List ProcedureDef} {s : Statement} {start : Nat}
  {around : List (Statement × Nat)} {code more : List Instruction} {loci others : List Locus}
  {inner rest : List Statement}

theorem Flags.nil : Flags [] [] [] :=
  ⟨rfl, rfl⟩

theorem Flags.append (h : Flags code loci inner) (hmore : Flags more others rest) :
    Flags (code ++ more) (loci ++ others) (inner ++ rest) where
  each := by rw [List.map_append, List.map_append, h.each, hmore.each]
  any := by rw [List.any_append, h.any, hmore.any, Statement.anySwitches_append]

/-- An instruction that is not a statement's own has no flag. -/
theorem Flags.synthetic {i : Instruction} {locus : Locus} (hi : i.switches = false)
    (hlocus : locus.switches = false) (h : Flags code loci inner) :
    Flags (i :: code) (locus :: loci) inner where
  each := by rw [List.map_cons, List.map_cons, hi, hlocus, h.each]
  any := by rw [List.any_cons, hi, Bool.false_or, h.any]

theorem Instruction.switches_own : (s.own procedures start).switches = s.command.switches :=
  Command.switches_resolve procedures s.command

/-- The flag of an owner is made from the flags of its blocks' code. -/
theorem Instruction.switches_owning {resume alternate : Nat} {blocks : List Instruction}
    (hall : s.all = s :: inner)
    (hblocks : blocks.any Instruction.switches = Statement.anySwitches inner) :
    ((s.own procedures start).owning resume alternate blocks).switches =
      Statement.anySwitches s.all := by
  rw [hall, Statement.anySwitches_cons, owning, switches_own, hblocks]

/-- A construct whose blocks have their flags. -/
theorem Flags.construct {resume alternate : Nat} {blocks : List Instruction}
    (hall : s.all = s :: inner)
    (hblocks : blocks.any Instruction.switches = Statement.anySwitches inner)
    (h : Flags code loci inner) :
    Flags ((s.own procedures start).owning resume alternate blocks :: code)
      (⟨.command s, around⟩ :: loci) s.all where
  each := by
    rw [List.map_cons, List.map_cons, h.each, Instruction.switches_owning hall hblocks]
    rfl
  any := by
    rw [List.any_cons, Instruction.switches_owning hall hblocks, h.any, hall,
      Statement.anySwitches_cons, Bool.or_assoc, Bool.or_self]

theorem Flags.bare (hall : s.all = [s]) :
    Flags [s.own procedures start] [⟨.command s, around⟩] s.all where
  each := by
    have hlocus : Locus.switches ⟨.command s, around⟩ = Statement.anySwitches s.all := rfl
    rw [List.map_singleton, List.map_singleton, Instruction.switches_own, hlocus, hall,
      Statement.anySwitches_cons]
    exact congrArg List.singleton (Bool.or_false _).symm
  any := by
    rw [List.any_cons, Instruction.switches_own, hall, Statement.anySwitches_cons]
    rfl

theorem flags_oneBlock (one : s.command.blocks = 1) (hall : s.all = s :: inner)
    {block : Nat → List Instruction} (hblock : ∀ place, Flags (block place) loci inner) :
    Flags (oneBlock (s.own procedures start) start block) (Locus.oneBlock s around loci)
      s.all := by
  have last {place : Nat} {i : Instruction} {locus : Locus} (hi : i.switches = false)
      (hlocus : locus.switches = false) : Flags (block place ++ [i]) (loci ++ [locus]) inner := by
    have hone := (hblock place).append (.synthetic hi hlocus .nil)
    rwa [List.append_nil] at hone
  rcases Command.construct_of_blocks one with hc | hc | hc | ⟨slot, hc⟩
  · rw [oneBlock_nested hc, Locus.oneBlock_nested hc]
    exact .construct hall (hblock _).any (last rfl rfl)
  · rw [oneBlock_ifThen hc, Locus.oneBlock_ifThen hc]
    exact .construct hall (hblock _).any (hblock _)
  · rw [oneBlock_whileTrue hc, Locus.oneBlock_whileTrue hc]
    exact .construct hall (hblock _).any (last rfl rfl)
  · rw [oneBlock_repeatTimes hc, Locus.oneBlock_repeatTimes hc]
    exact .construct hall (hblock _).any (.synthetic rfl rfl (last rfl rfl))

theorem flags_twoBlocks (two : s.command.blocks = 2) (hall : s.all = s :: (inner ++ rest))
    {first second : Nat → List Instruction} (hfirst : ∀ place, Flags (first place) loci inner)
    (hsecond : ∀ place, Flags (second place) others rest) :
    Flags (twoBlocks (s.own procedures start) start first second)
      (Locus.twoBlocks s around loci others) s.all := by
  rcases Command.choice_of_blocks two with hc | hc
  · rw [twoBlocks_ifElse hc, Locus.twoBlocks_ifElse hc]
    exact .construct hall ((hfirst _).append (hsecond _)).any
      ((hfirst _).append (.synthetic rfl rfl (hsecond _)))
  · rw [twoBlocks_carefully hc, Locus.twoBlocks_carefully hc]
    exact .construct hall ((hfirst _).append (hsecond _)).any
      ((hfirst _).append (.synthetic rfl rfl (hsecond _)))

end Flags

variable {sc : Scope} (procedures : List ProcedureDef)

/-- Code has the flags of its loci. -/
theorem flags_compositional :
    Compositional procedures sc fun _ _ inner code loci => Flags code loci inner where
  nil := .nil
  append h hmore := h.append hmore
  bare _ _ hall := .bare hall
  oneBlock one hall hblock := flags_oneBlock one hall hblock
  twoBlocks two hall hfirst hsecond := flags_twoBlocks two hall hfirst hsecond

-- ════════════════════════════════════════════════════════════════════════
-- Programs
-- ════════════════════════════════════════════════════════════════════════

theorem Locus.switches_iff {locus : Locus} :
    locus.switches = true ↔
      ∃ s, locus.purpose = .command s ∧ ∃ t ∈ s.all, t.command.switches = true := by
  obtain ⟨purpose, around⟩ := locus
  cases purpose <;> simp [switches, Statement.anySwitches]

variable {p : ProcedureDef} (h : ∀ s ∈ Statement.allOf p.body, s.Fits sc)
include h

/-- The instructions of a procedure have the flags that its loci ask for. -/
theorem ProcedureDef.map_switches_layout :
    (p.layout procedures).code.toList.map Instruction.switches = p.loci.map Locus.switches :=
  (((flags_compositional procedures).layoutBlock p.body [] 0 h).append
    (.synthetic rfl rfl .nil)).each

theorem ProcedureDef.switches_layout_iff {ip : Nat} {i : Instruction}
    (hi : (p.layout procedures).code[ip]? = some i) :
    i.switches = true ↔ ∃ s around, p.loci[ip]? = some ⟨.command s, around⟩
      ∧ ∃ t ∈ s.all, t.command.switches = true := by
  have hlist : (p.layout procedures).code.toList[ip]? = some i := by simpa using hi
  obtain ⟨⟨purpose, around⟩, hlocus, _⟩ := (p.serving_layout procedures h).exists_locus hlist
  have hflag := congrArg (fun flags => flags[ip]?) (p.map_switches_layout procedures h)
  simp only [List.getElem?_map, hlist, hlocus, Option.map_some, Option.some.injEq] at hflag
  rw [hflag, Locus.switches_iff, hlocus]
  constructor
  · rintro ⟨s, rfl, hs⟩
    exact ⟨s, around, rfl, hs⟩
  · rintro ⟨s, _, ⟨⟩, hs⟩
    exact ⟨s, rfl, hs⟩

/-- The instructions that assembly adds are not flagged. -/
theorem ProcedureDef.not_switches_of_synthetic {i : Instruction}
    (hi : i ∈ (p.layout procedures).code) (synthetic : i.command.isSynthetic = true) :
    i.switches = false := by
  obtain ⟨ip, hip⟩ := Array.mem_iff_getElem?.1 hi
  have hlist : (p.layout procedures).code.toList[ip]? = some i := by simpa using hip
  rw [← Bool.not_eq_true, p.switches_layout_iff procedures h hip]
  rintro ⟨s, around, hs, _⟩
  -- an own command is a statement's, and source has no synthetic commands
  obtain ⟨locus, hlocus, hserves⟩ := (p.serving_layout procedures h).exists_locus hlist
  cases hs.symm.trans hlocus
  have hsource := (h s (p.mem_allOf_of_command h (List.mem_of_getElem? hs))).source
  rw [hserves.1, Command.isSynthetic_resolve, hsource] at synthetic
  cases synthetic

omit h

/-- In an assembled program the loci of a procedure tell place by place what its instructions are
there for, with one place for the command of each of its statements. An instruction is flagged if
and only if it is the own command of a statement such that the statement, or one nested in it at any
depth, has a command that ends turns. The instructions that assembly adds are not flagged. -/
theorem ProgramDef.switches_of_assemble {d : ProgramDef} {w : World} {forgiving : Bool}
    {program : Program} (h : d.assemble w forgiving = .ok program) :
    program.procedures.size = d.procedures.length
      ∧ ∀ (index : Nat) (p : ProcedureDef), d.procedures[index]? = some p →
        ∃ q, program.procedures[index]? = some q
          ∧ Serving d.procedures q.code.toList p.loci
          ∧ Locus.commands p.loci = Statement.allOf p.body
          ∧ (∀ (ip : Nat) (i : Instruction), q.code[ip]? = some i →
            (i.switches = true ↔ ∃ s around, p.loci[ip]? = some ⟨.command s, around⟩
              ∧ ∃ t ∈ s.all, t.command.switches = true))
          ∧ ∀ i ∈ q.code, i.command.isSynthetic = true → i.switches = false := by
  obtain ⟨hsize, hlayout⟩ := layout_of_assemble h
  refine ⟨hsize, fun index p hp => ?_⟩
  obtain ⟨hq, hfits⟩ := hlayout index p hp
  exact ⟨_, hq, p.serving_layout _ hfits, p.commands_loci hfits,
    fun _ _ hi => p.switches_layout_iff _ hfits hi,
    fun _ hi => p.not_switches_of_synthetic _ hfits hi⟩

/-- Turtles that die in the second block of `carefully`. -/
def culling : ProgramDef where
  procedures :=
    [⟨"cull", 0, 0,
        [⟨.ask, [⟨.turtles, [], .zero⟩],
          [[⟨.carefully, [],
              [[⟨.print, [.constant (.number 1)], [], .zero⟩],
                [⟨.ifThen, [.constant (.boolean true)], [[⟨.die, [], [], .zero⟩]], .zero⟩]], .zero⟩,
            ⟨.print, [.constant (.number 2)], [], .zero⟩]], .zero⟩]⟩]

/-- The owners around the death are flagged, and what stands beside it is not. -/
theorem ProgramDef.switches_of_assemble_culling :
    ∃ program q, culling.assemble (World.build .default) false = .ok program
      ∧ program.procedures[0]? = some q
      ∧ (∃ i, q.code[1]? = some i ∧ i.command = .carefully ∧ i.switches = true)
      ∧ (∃ i, q.code[6]? = some i ∧ i.command = .print ∧ i.switches = false)
      ∧ ∃ i, q.code[7]? = some i ∧ i.command = .done ∧ i.switches = false := by
  have hok : culling.assemble (World.build .default) false = .ok culling.layout := rfl
  obtain ⟨_, hprocedures⟩ := switches_of_assemble hok
  obtain ⟨q, hq, _, _, hflag, hsynthetic⟩ := hprocedures 0 _ rfl
  cases hq
  refine ⟨_, _, hok, rfl, ⟨_, rfl, rfl, ?_⟩, ⟨_, rfl, rfl, ?_⟩, ⟨_, rfl, rfl, ?_⟩⟩
  · refine (hflag 1 _ rfl).2 ⟨_, _, rfl, ⟨.die, [], [], .zero⟩, ?_, rfl⟩
    simp [Statement.all, Statement.allOf, Statement.allOfBlocks]
  · refine Bool.eq_false_iff.2 fun hon => ?_
    obtain ⟨s, around, hs, t, ht, hswitches⟩ := (hflag 6 _ rfl).1 hon
    cases hs
    rw [Statement.all, Statement.allOfBlocks, List.mem_singleton] at ht
    subst ht
    cases hswitches
  · exact hsynthetic _ (Array.mem_iff_getElem?.2 ⟨7, rfl⟩) rfl

end Swarm
