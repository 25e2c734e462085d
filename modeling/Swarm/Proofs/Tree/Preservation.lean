import Swarm.Proofs.Tree.Regions

/-!
# Assembly preserves meaning

The code of a statement does what the statement does, by induction on the fuel of the tree: the
regions of the blocks inside it, and of the procedures it calls, have less. A procedure's code is
the code of its body followed by a return, so running it is running its body.

## Main results

* `Tree.simulates_construct`, `Tree.blocksSimulated`: the code of trees
* `Tree.toCompletion_iff_procedure`: assembled procedures run as their trees do
-/

namespace Swarm

namespace ProgramDef

variable {d : ProgramDef} {w : World} {forgiving : Bool} {program : Program} {index : Nat}
  {p : ProcedureDef}

/-- The procedures of an assembled program are laid out in place. -/
theorem procedure_layout (h : d.assemble w forgiving = .ok program)
    (hp : d.procedures[index]? = some p) :
    program.procedure index = .ok (p.layout d.procedures) := by
  obtain ⟨_, rfl, _⟩ := assemble_eq_ok h
  have hlayout : d.layout.procedures[index]? = some (p.layout d.procedures) := by
    simp [layout, hp]
  rw [Program.procedure, hlayout]

/-- The code of a procedure is that of its body and a return. -/
theorem holds_layout (h : d.assemble w forgiving = .ok program)
    (hp : d.procedures[index]? = some p) :
    program.Holds index 0 (layoutBlock d.procedures 0 p.body
      ++ [.ending (layoutBlock d.procedures 0 p.body).length]) := by
  intro k i hk
  have hcode : (p.layout d.procedures).code[k]? = some i := by
    rw [ProcedureDef.layout, List.getElem?_toArray]
    exact hk
  rw [Nat.zero_add]
  exact Program.instruction_eq_ok (procedure_layout h hp) hcode

/-- The bodies of an assembled program were checked. -/
theorem checkBlock_body (h : d.assemble w forgiving = .ok program)
    (hp : d.procedures[index]? = some p) :
    (d.scope w forgiving p).checkBlock p.body = .ok () := by
  obtain ⟨hcheck, _, _⟩ := assemble_eq_ok h
  obtain ⟨_, _, hbodies⟩ := Except.bind_eq_ok hcheck
  exact Except.of_forM_eq_ok hbodies p (List.mem_of_getElem? hp)

end ProgramDef

namespace Tree

open Swarm.Exec

variable {d : ProgramDef} {w : World} {forgiving : Bool} {env : Environment} {n index start : Nat}
  {p : ProcedureDef}

/-- The code of checked blocks does what the blocks do. -/
def BlocksSimulated (d : ProgramDef) (w : World) (forgiving : Bool) (env : Environment) (n : Nat) :
    Prop :=
  ∀ {index : Nat} {p : ProcedureDef}, d.procedures[index]? = some p → ∀ b : List Statement,
    (d.scope w forgiving p).checkBlock b = .ok () → ∀ place,
      env.program.Holds index place (layoutBlock d.procedures place b) →
      Simulates env n index place (place + (layoutBlock d.procedures place b).length)
        (block (statement unspent d env n) b)

/-- A command without blocks that takes one argument. -/
theorem simulates_leaf {sc : Scope} {i : Instruction} {effect : Value → Exec Unit}
    (hi : env.program.instruction index start = .ok i)
    (hfits : i.Fits sc) (hunary : i.command.isUnary = true)
    (hperform : ∀ run v, performUnary env run i v = (effect v >>= fun _ => goto i.next))
    (hblind : ∀ v, Blind (effect v)) :
    Simulates env (n + 1) index start i.next
      (located env i.command i.position (evaluateAt env i.args 0 >>= effect) >>= fun _ =>
        return .normal) :=
  Simulates.unary (fun _ => effect) (fun _ => i.next) hi hfits hunary hperform
    (fun v hcore _ _ => .of_blind (hblind v) hcore) fun _ => .nil

/-- Laying out springs. -/
theorem simulates_layoutSpring {i : Instruction}
    (hi : env.program.instruction index start = .ok i) (hc : i.command = .layoutSpring)
    (hk : i.known = none) :
    Simulates env (n + 1) index start i.next
      (located env i.command i.position (layoutSpring env i.args i.command.token) >>= fun _ =>
        return .normal) := by
  have hexec (j : Nat) : execute env (toCompletion env j) i
      = (located env i.command i.position (layoutSpring env i.args i.command.token) >>= fun _ =>
        goto i.next) := by
    apply execute_of_perform (fun _ => i.next) hk
    rw [← layoutSpring_goto]
    simp only [perform, hc]
    rfl
  exact Simulates.step (fun _ => i.next) hi hexec (fun hcore _ _ => Approaches.located
    (X := fun _ => layoutSpring env i.args i.command.token) _ _
    (.of_blind (blind_layoutSpring env i.args _) hcore)) fun _ => .nil

/-- A call in assembled code. -/
theorem simulates_call {i : Instruction} {name : String} {callee : Nat}
    {q : ProcedureDef}
    (hassembled : d.assemble w forgiving = .ok env.program)
    (hrun : BlocksSimulated d w forgiving env n)
    (hi : env.program.instruction index start = .ok i) (hc : i.command = .call name callee)
    (hk : i.known = none) (hq : d.procedures[callee]? = some q) :
    Simulates env (n + 1) index start i.next
      (callAt d env (block (statement unspent d env n)) i.command i.args i.position callee) := by
  have htree : callAt d env (block (statement unspent d env n)) i.command i.args i.position callee
      = (located env i.command i.position (enterCall env i.args (.fresh callee q.locals 0)) >>=
        fun _ => callBody (block (statement unspent d env n) q.body)) := by
    simp only [callAt, hq]
  rw [htree]
  have hcode := ProgramDef.holds_layout hassembled hq
  have hbody := hrun hq q.body (ProgramDef.checkBlock_body hassembled hq) 0 hcode.left
  have hcall := Simulates.call hi hc hk (ProgramDef.procedure_layout hassembled hq) hbody
    hcode.right.head rfl rfl
  exact hcall

/-- The instruction of a checked statement has what its command needs. -/
theorem fits_ofCommand {sc : Scope} {command : Command} {args : List Expr}
    (blocks : List (List Statement)) (position : Position) (place : Nat)
    (hhead : sc.checkHead command args blocks.length = .ok ()) :
    (Instruction.ofCommand (command.resolve sc.procedures) args position place).Fits sc :=
  Instruction.fits_of_owner (s := ⟨command, args, blocks, position⟩) hhead rfl rfl rfl

/-- The code of a statement without blocks. -/
theorem simulates_bare {command : Command} {args : List Expr} {position : Position}
    (hassembled : d.assemble w forgiving = .ok env.program)
    (hrun : BlocksSimulated d w forgiving env n)
    (hhead : (d.scope w forgiving p).checkHead command args 0 = .ok ())
    (hcode : env.program.Holds index start
      [.ofCommand (command.resolve d.procedures) args position start]) :
    Simulates env (n + 1) index start (start + 1)
      (statement unspent d env (n + 1) ⟨command, args, [], position⟩) := by
  obtain ⟨hsource, hcount, _⟩ := Scope.checkHead_eq_ok hhead
  have hfits := fits_ofCommand [] position start hhead
  have hi := hcode.head
  cases command with
  | setVariable kind slot =>
    have hregion := simulates_leaf (n := n) hi hfits rfl
      (fun run v => performUnary_setVariable rfl v) fun v => blind_write kind slot _ v
    exact hregion
  | letLocal slot =>
    have hregion := simulates_leaf (n := n) hi hfits rfl
      (fun run v => performUnary_letLocal rfl v) fun v => blind_setLocal slot v
    exact hregion
  | setLocal slot =>
    have hregion := simulates_leaf (n := n) hi hfits rfl
      (fun run v => performUnary_setLocal rfl v) fun v => blind_setLocal slot v
    exact hregion
  | print =>
    have hregion := simulates_leaf (n := n) hi hfits rfl
      (fun run v => performUnary_print rfl v) fun v => blind_notify _
    exact hregion
  | call name unresolved =>
    obtain ⟨q, hq, _⟩ := hfits.callee name _ rfl
    have hq' : d.procedures[(calleeIndex? d.procedures name).getD 0]? = some q := hq
    have hregion := simulates_call hassembled hrun hi rfl rfl hq'
    exact hregion
  | stop =>
    have hregion := Simulates.stopped (n := n + 1) (start + 1) hi rfl rfl
    exact hregion
  | die =>
    have hregion := Simulates.died (n := n) (start + 1) hi rfl rfl
    exact hregion
  | layoutSpring =>
    have hregion := simulates_layoutSpring (n := n) hi rfl rfl
    exact hregion
  | _ => simp [Command.isSynthetic, Command.blocks] at hsource hcount

/-- The code of a statement with one block. -/
theorem simulates_withBlock {command : Command} {args : List Expr} {b : List Statement}
    {position : Position}
    (hrun : BlocksSimulated d w forgiving env n) (hp : d.procedures[index]? = some p)
    (hhead : (d.scope w forgiving p).checkHead command args 1 = .ok ())
    (hb : (d.scope w forgiving p).checkBlock b = .ok ())
    (hcode : env.program.Holds index start
      (layoutStatement d.procedures start ⟨command, args, [b], position⟩)) :
    Simulates env (n + 1) index start
      (start + (layoutStatement d.procedures start ⟨command, args, [b], position⟩).length)
      (statement unspent d env (n + 1) ⟨command, args, [b], position⟩) := by
  obtain ⟨hsource, hcount, _⟩ := Scope.checkHead_eq_ok hhead
  have hfits := fits_ofCommand [b] position start hhead
  have hblock := hrun hp b hb
  rw [layoutStatement] at hcode ⊢
  cases command with
  | ask =>
    have hregion := simulates_ask rfl hcode hblock hfits rfl
    exact hregion
  | createTurtles =>
    have hregion := simulates_createTurtles rfl hcode hblock hfits rfl
    exact hregion
  | withLocalRandomness =>
    have hregion := simulates_withLocalRandomness rfl hcode hblock rfl rfl
    exact hregion
  | ifThen =>
    have hregion := simulates_ifThen hfits rfl hcode hblock rfl
    exact hregion
  | whileTrue =>
    have hregion := simulates_whileTrue hfits rfl hcode hblock rfl
    exact hregion
  | repeatTimes slot =>
    have hregion := simulates_repeatTimes hfits rfl hcode hblock rfl
    exact hregion
  | _ => simp [Command.isSynthetic, Command.blocks] at hsource hcount

/-- The code of a statement with two blocks. -/
theorem simulates_withBlocks {command : Command} {args : List Expr} {b e : List Statement}
    {position : Position}
    (hrun : BlocksSimulated d w forgiving env n) (hp : d.procedures[index]? = some p)
    (hhead : (d.scope w forgiving p).checkHead command args 2 = .ok ())
    (hb : (d.scope w forgiving p).checkBlock b = .ok ())
    (he : (d.scope w forgiving p).checkBlock e = .ok ())
    (hcode : env.program.Holds index start
      (layoutStatement d.procedures start ⟨command, args, [b, e], position⟩)) :
    Simulates env (n + 1) index start
      (start + (layoutStatement d.procedures start ⟨command, args, [b, e], position⟩).length)
      (statement unspent d env (n + 1) ⟨command, args, [b, e], position⟩) := by
  obtain ⟨hsource, hcount, _⟩ := Scope.checkHead_eq_ok hhead
  have hfits := fits_ofCommand [b, e] position start hhead
  rw [layoutStatement] at hcode ⊢
  cases command with
  | ifElse =>
    have hregion := simulates_ifElse rfl hcode hfits rfl (hrun hp b hb) (hrun hp e he)
    exact hregion
  | carefully =>
    have hregion := simulates_carefully rfl hcode rfl rfl (hrun hp b hb) (hrun hp e he)
    exact hregion
  | _ => simp [Command.isSynthetic, Command.blocks] at hsource hcount

/-- The code of a statement, given that the code of blocks does what the blocks do. -/
theorem simulates_construct
    (hassembled : d.assemble w forgiving = .ok env.program)
    (hrun : BlocksSimulated d w forgiving env n) (hp : d.procedures[index]? = some p)
    (s : Statement) (hcheck : (d.scope w forgiving p).checkStatement s = .ok ())
    (hcode : env.program.Holds index start (layoutStatement d.procedures start s)) :
    Simulates env (n + 1) index start (start + (layoutStatement d.procedures start s).length)
      (statement unspent d env (n + 1) s) := by
  obtain ⟨command, args, blocks, position⟩ := s
  obtain ⟨_, hhead, hblocks⟩ := Except.bind_eq_ok hcheck
  -- as the layout does, look at the number of blocks first
  rcases blocks with _ | ⟨b, _ | ⟨e, _ | ⟨_, _⟩⟩⟩
  · rw [layoutStatement] at hcode ⊢
    exact simulates_bare hassembled hrun hhead hcode
  · obtain ⟨_, hb, _⟩ := Except.bind_eq_ok hblocks
    exact simulates_withBlock hrun hp hhead hb hcode
  · obtain ⟨_, hb, hrest⟩ := Except.bind_eq_ok hblocks
    obtain ⟨_, he, _⟩ := Except.bind_eq_ok hrest
    exact simulates_withBlocks hrun hp hhead hb he hcode
  · obtain ⟨_, hcount, _⟩ := Scope.checkHead_eq_ok hhead
    have hfew : command.blocks ≤ 2 := by
      cases command <;> simp [Command.blocks]
    simp only [List.length_cons] at hcount
    omega

/-- The code of a block, given that the code of statements does what the statements do. -/
theorem simulates_statements
    (hstatement : ∀ (s : Statement) (place : Nat),
      (d.scope w forgiving p).checkStatement s = .ok () →
      env.program.Holds index place (layoutStatement d.procedures place s) →
      Simulates env n index place (place + (layoutStatement d.procedures place s).length)
        (statement unspent d env n s)) (b : List Statement) :
    (d.scope w forgiving p).checkBlock b = .ok () → ∀ place,
      env.program.Holds index place (layoutBlock d.procedures place b) →
      Simulates env n index place (place + (layoutBlock d.procedures place b).length)
        (block (statement unspent d env n) b) := by
  induction b with
  | nil =>
    intro _ place _
    rw [layoutBlock]
    exact Simulates.nil
  | cons s rest ih =>
    intro hcheck place hcode
    obtain ⟨_, hone, hrest⟩ := Except.bind_eq_ok hcheck
    rw [layoutBlock] at hcode ⊢
    have hsecond := ih hrest _ hcode.right
    rw [List.length_append, ← Nat.add_assoc]
    exact (hstatement s place hone hcode.left).andThen hsecond

/-- The code of an assembled program does what its trees do. -/
theorem blocksSimulated
    (hassembled : d.assemble w forgiving = .ok env.program) (n : Nat) :
    BlocksSimulated d w forgiving env n := by
  -- the statements inside a statement, and those of the procedures it calls, have less fuel
  induction n with
  | zero =>
    intro index p _ b hcheck place hcode
    refine simulates_statements (fun s place _ _ => ?_) b hcheck place hcode
    intro m t _ hready fuel hfuel
    obtain rfl : fuel = 0 := by omega
    exact toCompletion_zero hready.running
  | succ n ih =>
    intro index p hp b hcheck place hcode
    exact simulates_statements (fun s place hs hcode =>
      simulates_construct hassembled ih hp s hs hcode) b hcheck place hcode

/-- The code of a procedure runs as the tree of its body. -/
theorem runsAs_procedure (hassembled : d.assemble w forgiving = .ok env.program)
    (hp : d.procedures[index]? = some p) (n : Nat) :
    RunsAs env n index 0 (procedure unspent d env n p) := by
  have hcode := ProgramDef.holds_layout hassembled hp
  have hbody := blocksSimulated hassembled n hp p.body
    (ProgramDef.checkBlock_body hassembled hp) 0 hcode.left
  exact runsAs_agentBlock hbody hcode.right.head (.inr rfl) rfl

/-- Runs of a procedure that have enough fuel end in the same way. -/
theorem toCompletion_unique (hassembled : d.assemble w forgiving = .ok env.program)
    (hp : d.procedures[index]? = some p) {m : Machine} (untouched : m.halt.upcoming = [])
    (running : m.context.procedure = index) (start : m.context.ip = 0)
    (base : m.context.baseDepth = m.context.frames.depth)
    (pending : m.context.finished = false) {fuel fuel' : Nat}
    (h : ¬ Exhausted (toCompletion env fuel m)) (h' : ¬ Exhausted (toCompletion env fuel' m)) :
    toCompletion env fuel m = toCompletion env fuel' m := by
  have happ := runsAs_procedure hassembled hp fuel (rfl : m.core = m.core) untouched running start
    base pending
  obtain ⟨limit, _, _, hlimit⟩ := happ.settled fun he => h (happ.exhausted he fuel (Nat.le_refl _))
  have hone : toCompletion env fuel m = limit := (hlimit.sound fuel).resolve_left h
  have htwo : toCompletion env fuel' m = limit := (hlimit.sound fuel').resolve_left h'
  rw [hone, htwo]

/-- Run a procedure of an assembled program from its first instruction, at the base of the running
agent's block and from any machine whatever, to the end of the block; the halt flag may be up or
down, and stays as it is while the procedure runs. The endings are those of
running the tree of the procedure's body: given enough fuel, the two runs end with the same fault or
none, the same world, streams, notices and nesting, and the same state of the agent but for places in
the code and the value reported last; and one of them never ends if the other one does not. -/
theorem toCompletion_iff_procedure {m : Machine}
    (assembled : d.assemble w forgiving = .ok env.program)
    (source : d.procedures[index]? = some p) (untouched : m.halt.upcoming = [])
    (running : m.context.procedure = index) (start : m.context.ip = 0)
    (base : m.context.baseDepth = m.context.frames.depth)
    (pending : m.context.finished = false) {r : Ending Unit} (settled : ¬ Exhausted r) :
    (∃ fuel, Alike (toCompletion env fuel m) r)
      ↔ ∃ fuel, Alike (procedure unspent d env fuel p m) r := by
  have happ (n : Nat) := runsAs_procedure assembled source n (rfl : m.core = m.core) untouched
    running start base pending
  constructor
  · rintro ⟨fuel, hr⟩
    have hmachine : ¬ Exhausted (toCompletion env fuel m) := fun he => settled (hr.exhausted.1 he)
    have htree : ¬ Exhausted (procedure unspent d env fuel p m) := fun he =>
      hmachine ((happ fuel).exhausted he fuel (Nat.le_refl _))
    obtain ⟨limit, halike, _, hlimit⟩ := (happ fuel).settled htree
    rcases hlimit.sound fuel with hout | heq
    · exact absurd hout hmachine
    · refine ⟨fuel, ?_⟩
      rw [heq] at hr
      exact halike.symm.trans hr
  · rintro ⟨fuel, hr⟩
    have htree : ¬ Exhausted (procedure unspent d env fuel p m) := fun he =>
      settled (hr.exhausted.1 he)
    obtain ⟨limit, halike, _, hlimit⟩ := (happ fuel).settled htree
    obtain ⟨enough, henough⟩ := hlimit.reached
    refine ⟨enough, ?_⟩
    rw [henough]
    exact halike.trans hr

/-- A loop whose counter is undefined after its first pass, and which is left in the second one. -/
def undefinedCount : ProcedureDef where
  name := "go"
  inputs := 0
  locals := 3
  body :=
    [⟨.repeatTimes 0, [.constant (.number 1)],
      [[⟨.print, [.constant (.string "pass")], [], .zero⟩,
        ⟨.setLocal 0, [.ofReporter (.getLocal 1)], [], .zero⟩,
        ⟨.ifThen, [.ofReporter (.getLocal 2)], [[.ofCommand .stop]], .zero⟩,
        ⟨.setLocal 2, [.constant (.boolean true)], [], .zero⟩]], .zero⟩]

def undefinedProgram : ProgramDef :=
  ⟨[undefinedCount]⟩

def undefinedEnvironment : Environment :=
  ⟨undefinedProgram.layout, .default⟩

/-- The observer of a bare world, about to run the loop with an undefined number in the second
local. -/
def undefinedMachine : Machine where
  world := World.build .default
  streams := .ofMain (.ofSeed 0)
  notices := #[]
  halt := .steady false
  nesting := 0
  context := .resume ⟨.observer, 0, .ofFrame defaultCallDepth
    ⟨0, #[.number 0, .number Number.undefined, .boolean false], 0⟩, 1, none⟩ Streams.main

theorem assemble_undefinedProgram :
    undefinedProgram.assemble (World.build .default) false = .ok undefinedEnvironment.program :=
  rfl

/-- The code makes two passes. -/
theorem toCompletion_undefinedMachine :
    ¬ Exhausted (toCompletion undefinedEnvironment 12 undefinedMachine)
      ∧ (final (toCompletion undefinedEnvironment 12 undefinedMachine)).notices.size = 2 := by
  decide +kernel

/-- The tree makes as many passes as the code. -/
theorem toCompletion_iff_procedure_undefined :
    ∃ fuel, Alike (procedure unspent undefinedProgram undefinedEnvironment fuel undefinedCount
      undefinedMachine) (toCompletion undefinedEnvironment 12 undefinedMachine) :=
  (toCompletion_iff_procedure assemble_undefinedProgram
    (rfl : undefinedProgram.procedures[0]? = some undefinedCount) rfl rfl rfl rfl rfl
    toCompletion_undefinedMachine.1).1 ⟨12, rfl⟩

/-- A counter above zero. -/
def positive (left : Float) : Bool :=
  decide (0 < left)

/-- A tree whose loops go on while their counters are above zero makes one pass. -/
theorem procedure_undefinedMachine :
    ¬ Exhausted (procedure positive undefinedProgram undefinedEnvironment 2 undefinedCount
        undefinedMachine)
      ∧ (final (procedure positive undefinedProgram undefinedEnvironment 2 undefinedCount
        undefinedMachine)).notices.size = 1 := by
  decide +kernel

/-- Trees whose counted loops go on only while the counter is above zero differ from the code: an
undefined counter is neither above zero nor at zero or below. -/
theorem not_toCompletion_iff_procedure_positive :
    ¬ ∀ (d : ProgramDef) (w : World) (forgiving : Bool) (env : Environment) (index : Nat)
      (p : ProcedureDef) (m : Machine) (r : Ending Unit),
      d.assemble w forgiving = .ok env.program → d.procedures[index]? = some p →
      m.halt.upcoming = [] → m.context.procedure = index →
      m.context.frames.top.locals.size = p.locals →
      m.context.ip = 0 → m.context.baseDepth = m.context.frames.depth →
      m.context.finished = false → ¬ Exhausted r →
      ((∃ fuel, Alike (toCompletion env fuel m) r)
        ↔ ∃ fuel, Alike (procedure positive d env fuel p m) r) := by
  intro claim
  obtain ⟨treeSettled, onePass⟩ := procedure_undefinedMachine
  obtain ⟨codeSettled, twoPasses⟩ := toCompletion_undefinedMachine
  obtain ⟨fuel, halike⟩ := (claim undefinedProgram (World.build .default) false
    undefinedEnvironment 0 undefinedCount undefinedMachine
    (procedure positive undefinedProgram undefinedEnvironment 2 undefinedCount undefinedMachine)
    assemble_undefinedProgram rfl rfl rfl rfl rfl rfl rfl treeSettled).2 ⟨2, rfl⟩
  -- the code has one ending, and that has two passes
  have hsettled : ¬ Exhausted (toCompletion undefinedEnvironment fuel undefinedMachine) := by
    rw [halike.exhausted]
    exact treeSettled
  have hsame : toCompletion undefinedEnvironment fuel undefinedMachine
      = toCompletion undefinedEnvironment 12 undefinedMachine :=
    toCompletion_unique assemble_undefinedProgram
      (rfl : undefinedProgram.procedures[0]? = some undefinedCount) rfl rfl rfl rfl rfl hsettled
      codeSettled
  have hnotices := halike.notices
  rw [hsame] at hnotices
  rw [hnotices, onePass] at twoPasses
  cases twoPasses

end Tree

end Swarm
