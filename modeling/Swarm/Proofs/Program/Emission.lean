import Swarm.Proofs.Program.Acceptance

/-!
# Assembly in one pass

Assembly can also be done in one pass over the text, without looking ahead. Each statement is
checked when it is come to, and its instruction is emitted at once; places that are not known yet
are patched in later, forward jumps from a stack of those that wait. Such a pass has failures of its
own: a jump is to be patched while none waits, or a block is asked for that the statement does not
have. It never meets them, and it gives the same program or the same fault as checking first and
laying out afterwards: constructs are nested, so each patches what it has emitted itself.

## Main definitions

* `Draft`: code under way, with the jumps that wait for their target
* `Scope.emitStatement`: one statement in one pass
* `ProgramDef.assembleInOnePass`: a program in one pass

## Main results

* `Scope.emitStatement_eq`: a statement is emitted as it is laid out, if it passes its check
* `ProgramDef.assembleInOnePass_eq`: one pass gives the same
* `ProgramDef.assembles_iff_wellFormed`: what assembly accepts, and how it refuses
-/

namespace Swarm

/-- Code under way. -/
structure Draft where
  code : List Instruction
  /-- The places of the forward jumps that wait for their target, the latest first. -/
  pending : List Nat

namespace Draft

/-- The place of the next instruction. -/
def offset (t : Draft) : Nat :=
  t.code.length

/-- Add code at the end. -/
def extend (t : Draft) (code : List Instruction) : Draft :=
  { t with code := t.code ++ code }

/-- Add an instruction at the end. -/
def push (t : Draft) (i : Instruction) : Draft :=
  t.extend [i]

/-- Change an instruction that was emitted. -/
def patch (t : Draft) (place : Nat) (change : Instruction → Instruction) : Draft :=
  { t with code := t.code.modify place change }

/-- Let a construct resume at the present place. -/
def resume (t : Draft) (owner : Nat) : Draft :=
  t.patch owner fun i => { i with offset := t.offset }

/-- Let the second block of a construct start at the present place. -/
def markAlternate (t : Draft) (owner : Nat) : Draft :=
  t.patch owner fun i => { i with alternate := t.offset }

/-- Let a jump that was emitted wait for its target. -/
def await (t : Draft) (place : Nat) : Draft :=
  { t with pending := place :: t.pending }

/-- A forward jump, which waits for its target. -/
def goTo (t : Draft) (position : Position) : Draft :=
  (t.push (.jump position t.offset 0)).await t.offset

/-- Let the latest forward jump lead to the present place. -/
def comeFrom (t : Draft) (procedure : String) : Except Fault Draft :=
  match t.pending with
  | [] => .error (.stated .internalConsistency ("come_from without go_to in " ++ procedure))
  | place :: rest =>
    .ok { t.patch place fun i => { i with offset := t.offset } with pending := rest }

/-- A construct switches if an instruction after its own does. -/
def inherit (t : Draft) (owner : Nat) : Draft :=
  t.patch owner fun i =>
    { i with switches := i.switches || (t.code.drop (owner + 1)).any Instruction.switches }

end Draft

namespace Scope

/-- Check a statement and emit its own instruction. -/
def emitOwner (sc : Scope) (s : Statement) (t : Draft) : Except Fault Draft := do
  sc.checkHead s.command s.args s.blocks.length
  return t.push (.ofCommand (s.command.resolve sc.procedures) s.args s.position t.offset)

/-- Emit a block of a statement, given what emits its blocks. -/
def emitNth (sc : Scope) (s : Statement) (blocks : List (Draft → Except Fault Draft)) (n : Nat)
    (t : Draft) : Except Fault Draft :=
  match blocks[n]? with
  | some emit => emit t
  | none =>
    sc.refuse (.other (s.command.token ++ " is missing block " ++ toString (n + 1)))

/-- Emit a construct, or a command without blocks. -/
def emitConstruct (sc : Scope) (s : Statement) (blocks : List (Draft → Except Fault Draft))
    (t : Draft) : Except Fault Draft := do
  let owner := t.offset
  let t ← sc.emitOwner s t
  match s.command with
  | .ifThen =>
    let t ← sc.emitNth s blocks 0 t
    return t.resume owner
  | .ifElse =>
    let t ← sc.emitNth s blocks 0 t
    let t := (t.goTo s.position).markAlternate owner
    let t ← sc.emitNth s blocks 1 t
    let t ← t.comeFrom sc.procedure.name
    return t.resume owner
  | .repeatTimes slot =>
    let check := t.offset
    let t ← sc.emitNth s blocks 0 (t.push (.loopHead slot s.position check 0))
    let t := (t.push (.jump s.position t.offset check)).resume owner
    return t.resume check
  | .whileTrue =>
    let t ← sc.emitNth s blocks 0 t
    return (t.push (.jump s.position t.offset owner)).resume owner
  | .carefully =>
    let t ← sc.emitNth s blocks 0 t
    let t ← sc.emitNth s blocks 1 ((t.push (.mark s.position t.offset)).markAlternate owner)
    return t.resume owner
  | .ask =>
    let t ← sc.emitNth s blocks 0 t
    return (t.push (.mark s.position t.offset)).resume owner
  | .createTurtles =>
    let t ← sc.emitNth s blocks 0 t
    return (t.push (.mark s.position t.offset)).resume owner
  | .withLocalRandomness =>
    let t ← sc.emitNth s blocks 0 t
    return (t.push (.mark s.position t.offset)).resume owner
  | _ => return t

mutual

/-- Emit a statement. -/
def emitStatement (sc : Scope) : Statement → Draft → Except Fault Draft
  | ⟨command, args, blocks, position⟩, t => do
    let owner := t.offset
    let t ← sc.emitConstruct ⟨command, args, blocks, position⟩ (emitBlocks sc blocks) t
    return if 0 < command.blocks then t.inherit owner else t

/-- What emits each of several blocks. -/
def emitBlocks (sc : Scope) : List (List Statement) → List (Draft → Except Fault Draft)
  | [] => []
  | b :: rest => emitBlock sc b :: emitBlocks sc rest

/-- Emit the statements of a block in order. -/
def emitBlock (sc : Scope) : List Statement → Draft → Except Fault Draft
  | [], t => .ok t
  | s :: rest, t => do
    let t ← emitStatement sc s t
    emitBlock sc rest t

end

end Scope

/-- Assemble a program in one pass over each procedure, and verify what came of it. -/
def ProgramDef.assembleInOnePass (d : ProgramDef) (w : World) (forgiving : Bool) :
    Except Fault Program := do
  ProcedureDef.checkNames [] d.procedures
  let procedures ← d.procedures.mapM fun p => do
    let t ← (d.scope w forgiving p).emitBlock p.body ⟨[], []⟩
    return (⟨p.name, p.inputs, p.locals, (t.push (.ending t.offset)).code.toArray⟩ : Procedure)
  let program : Program := ⟨procedures.toArray⟩
  program.verify
  return program

-- ════════════════════════════════════════════════════════════════════════
-- Drafts
-- ════════════════════════════════════════════════════════════════════════

namespace Draft

variable (t : Draft)

@[simp]
theorem offset_extend (code : List Instruction) :
    (t.extend code).offset = t.offset + code.length :=
  List.length_append

@[simp]
theorem extend_extend (code more : List Instruction) :
    (t.extend code).extend more = t.extend (code ++ more) := by
  simp [extend]

@[simp]
theorem offset_await (place : Nat) : (t.await place).offset = t.offset :=
  rfl

@[simp]
theorem extend_await (place : Nat) (code : List Instruction) :
    (t.await place).extend code = (t.extend code).await place :=
  rfl

@[simp]
theorem patch_await (place waiting : Nat) (change : Instruction → Instruction) :
    (t.await waiting).patch place change = (t.patch place change).await waiting :=
  rfl

@[simp]
theorem push_eq_extend (i : Instruction) : t.push i = t.extend [i] :=
  rfl

theorem comeFrom_await (place : Nat) (procedure : String) :
    (t.await place).comeFrom procedure =
      .ok (t.patch place fun i => { i with offset := t.offset }) :=
  rfl

/-- A patch in the code that was added. -/
theorem patch_extend (before : List Instruction) (i : Instruction) (after : List Instruction)
    (change : Instruction → Instruction) :
    (t.extend (before ++ i :: after)).patch (t.offset + before.length) change =
      t.extend (before ++ change i :: after) := by
  have hmodify (xs ys : List Instruction) (n : Nat) :
      (xs ++ ys).modify (xs.length + n) change = xs ++ ys.modify n change := by
    induction xs with
    | nil => simp
    | cons x xs ih => simp [Nat.add_right_comm, ih]
  have hinner := hmodify before (i :: after) 0
  rw [Nat.add_zero, List.modify_zero_cons] at hinner
  simp only [patch, extend, offset, hmodify, hinner]

/-- A patch of the first instruction that was added. -/
@[simp]
theorem patch_owner (i : Instruction) (code : List Instruction)
    (change : Instruction → Instruction) :
    (t.extend (i :: code)).patch t.offset change = t.extend (change i :: code) :=
  t.patch_extend [] i code change

@[simp]
theorem patch_second (owner i : Instruction) (code : List Instruction)
    (change : Instruction → Instruction) :
    (t.extend (owner :: i :: code)).patch (t.offset + 1) change =
      t.extend (owner :: change i :: code) :=
  t.patch_extend [owner] i code change

/-- A patch of the instruction between two blocks. -/
@[simp]
theorem patch_between (owner : Instruction) (first : List Instruction) (i : Instruction)
    (second : List Instruction) (change : Instruction → Instruction) :
    (t.extend (owner :: (first ++ i :: second))).patch (t.offset + (first.length + 1)) change =
      t.extend (owner :: (first ++ change i :: second)) :=
  t.patch_extend (owner :: first) i second change

@[simp]
theorem inherit_owner (owner : Instruction) (code : List Instruction) :
    (t.extend (owner :: code)).inherit t.offset =
      t.extend ({ owner with switches := owner.switches || code.any Instruction.switches }
        :: code) := by
  rw [inherit, patch_owner]
  simp [extend, offset]

end Draft

-- ════════════════════════════════════════════════════════════════════════
-- Statements
-- ════════════════════════════════════════════════════════════════════════

namespace Scope

variable {sc : Scope}

/-- A piece of the text is emitted as it is laid out, if it passes its check. -/
def Emits (emit : Draft → Except Fault Draft) (check : Except Fault Unit)
    (layout : Nat → List Instruction) : Prop :=
  ∀ t, emit t = check.map fun _ => t.extend (layout t.offset)

theorem Emits.of_ok {emit : Draft → Except Fault Draft} {check : Except Fault Unit}
    {layout : Nat → List Instruction} (h : Emits emit check layout) (hcheck : check = .ok ())
    (t : Draft) : emit t = .ok (t.extend (layout t.offset)) := by
  rw [h t, hcheck]
  rfl

theorem Emits.of_error {emit : Draft → Except Fault Draft} {check : Except Fault Unit}
    {layout : Nat → List Instruction} (h : Emits emit check layout) {f : Fault}
    (hcheck : check = .error f) (t : Draft) : emit t = .error f := by
  rw [h t, hcheck]
  rfl

@[simp]
theorem emitNth_cons_zero (s : Statement) (emit : Draft → Except Fault Draft)
    (rest : List (Draft → Except Fault Draft)) (t : Draft) :
    sc.emitNth s (emit :: rest) 0 t = emit t :=
  rfl

@[simp]
theorem emitNth_cons_one (s : Statement) (emit other : Draft → Except Fault Draft)
    (rest : List (Draft → Except Fault Draft)) (t : Draft) :
    sc.emitNth s (emit :: other :: rest) 1 t = other t :=
  rfl

theorem emitOwner_of_ok {s : Statement}
    (h : sc.checkHead s.command s.args s.blocks.length = .ok ()) (t : Draft) :
    sc.emitOwner s t =
      .ok (t.extend [.ofCommand (s.command.resolve sc.procedures) s.args s.position t.offset]) := by
  rw [emitOwner, h]
  rfl

section Constructs

variable {s : Statement} (hhead : sc.checkHead s.command s.args s.blocks.length = .ok ())
include hhead

theorem emitConstruct_noBlock (hblocks : s.command.blocks = 0) (t : Draft) :
    sc.emitConstruct s [] t =
      .ok (t.extend [.ofCommand (s.command.resolve sc.procedures) s.args s.position t.offset]) := by
  rw [emitConstruct, emitOwner_of_ok hhead]
  cases hc : s.command with
  | ask | createTurtles | withLocalRandomness | ifThen | ifElse | whileTrue | repeatTimes slot
  | carefully => simp [hc, Command.blocks] at hblocks
  | _ => rfl

/-- A construct whose first block fails its check. -/
theorem emitConstruct_of_error (hblocks : s.command.blocks ≠ 0)
    {emit : Draft → Except Fault Draft} {f : Fault} (hb : ∀ t, emit t = .error f)
    (rest : List (Draft → Except Fault Draft)) (t : Draft) :
    sc.emitConstruct s (emit :: rest) t = .error f := by
  rw [emitConstruct, emitOwner_of_ok hhead]
  cases hc : s.command with
  | ask | createTurtles | withLocalRandomness | ifThen | ifElse | whileTrue | repeatTimes slot
  | carefully => simp only [emitNth_cons_zero, hb, bind, Except.bind]
  | _ => exact absurd (by rw [hc]; rfl) hblocks

theorem emitConstruct_oneBlock (hblocks : s.command.blocks = 1)
    {emit : Draft → Except Fault Draft} {check : Except Fault Unit}
    {block : Nat → List Instruction} (hemit : Emits emit check block) (t : Draft) :
    (do let r ← sc.emitConstruct s [emit] t; return r.inherit t.offset) =
      check.map fun _ => t.extend (oneBlock
        (.ofCommand (s.command.resolve sc.procedures) s.args s.position t.offset) t.offset
        block) := by
  cases check with
  | error f =>
    rw [emitConstruct_of_error hhead (by simp [hblocks]) (hemit.of_error rfl)]
    rfl
  | ok _ =>
    have hb := hemit.of_ok rfl
    rw [emitConstruct, emitOwner_of_ok hhead]
    cases hc : s.command with
    | ask | createTurtles | withLocalRandomness | ifThen | whileTrue =>
      simp [hb, bind, Except.bind, pure, Except.pure, Except.map, Draft.resume, oneBlock,
        Instruction.owning, Instruction.ofCommand, Instruction.plain, Instruction.mark,
        Instruction.jump, Command.resolve, Command.switches, Nat.add_assoc, Nat.add_comm,
        Nat.add_left_comm]
    | repeatTimes slot =>
      have hback : t.offset + ((block (t.offset + 2)).length + 1 + 1) =
          t.offset + 2 + (block (t.offset + 2)).length := by omega
      have hexit : t.offset + ((block (t.offset + 2)).length + 1 + 1 + 1) =
          t.offset + 2 + (block (t.offset + 2)).length + 1 := by omega
      simp [hb, bind, Except.bind, pure, Except.pure, Except.map, Draft.resume, oneBlock,
        Instruction.owning, Instruction.ofCommand, Instruction.plain, Instruction.loopHead,
        Instruction.jump, Command.resolve, Command.switches, hback, hexit]
    | _ => simp [hc, Command.blocks] at hblocks

theorem emitConstruct_twoBlocks (hblocks : s.command.blocks = 2)
    {emit other : Draft → Except Fault Draft} {check checkOther : Except Fault Unit}
    {first second : Nat → List Instruction} (hemit : Emits emit check first)
    (hother : Emits other checkOther second) (t : Draft) :
    (do let r ← sc.emitConstruct s [emit, other] t; return r.inherit t.offset) =
      (do check; checkOther : Except Fault Unit).map fun _ => t.extend (twoBlocks
        (.ofCommand (s.command.resolve sc.procedures) s.args s.position t.offset) t.offset
        first second) := by
  cases check with
  | error f =>
    rw [emitConstruct_of_error hhead (by simp [hblocks]) (hemit.of_error rfl)]
    rfl
  | ok _ =>
    have hb := hemit.of_ok rfl
    rw [emitConstruct, emitOwner_of_ok hhead]
    cases checkOther with
    | error f =>
      have hc := hother.of_error rfl
      cases hcommand : s.command with
      | ifElse | carefully =>
        simp only [emitNth_cons_zero, emitNth_cons_one, hb, hc, bind, Except.bind, Except.map]
      | _ => simp [hcommand, Command.blocks] at hblocks
    | ok _ =>
      have hc := hother.of_ok rfl
      cases hcommand : s.command with
      | ifElse =>
        have hsecond : t.offset + ((first (t.offset + 1)).length + 1 + 1) =
            t.offset + 1 + (first (t.offset + 1)).length + 1 := by omega
        have hnext : t.offset + ((first (t.offset + 1)).length + 1) + 1 =
            t.offset + 1 + (first (t.offset + 1)).length + 1 := by omega
        have hresume (n : Nat) : t.offset + ((first (t.offset + 1)).length + (n + 1) + 1) =
            t.offset + 1 + (first (t.offset + 1)).length + 1 + n := by omega
        simp [hb, hc, bind, Except.bind, pure, Except.pure, Except.map, Draft.resume, Draft.goTo,
          Draft.markAlternate, Draft.comeFrom_await, twoBlocks, Instruction.owning,
          Instruction.ofCommand, Instruction.plain, Instruction.jump, Command.resolve,
          Command.switches, hsecond, hnext, hresume]
      | carefully =>
        simp [hb, hc, bind, Except.bind, pure, Except.pure, Except.map, Draft.resume,
          Draft.markAlternate, twoBlocks, Instruction.owning, Instruction.ofCommand,
          Instruction.plain, Instruction.mark, Command.resolve, Command.switches, Nat.add_assoc,
          Nat.add_comm, Nat.add_left_comm]
      | _ => simp [hcommand, Command.blocks] at hblocks

end Constructs

theorem checkBlocks_singleton (b : List Statement) : sc.checkBlocks [b] = sc.checkBlock b := by
  rw [checkBlocks, checkBlocks]
  cases sc.checkBlock b <;> rfl

theorem checkBlocks_pair (b c : List Statement) :
    sc.checkBlocks [b, c] = (do sc.checkBlock b; sc.checkBlock c) := by
  rw [checkBlocks, checkBlocks_singleton]

theorem emitOwner_of_error {s : Statement} {f : Fault}
    (h : sc.checkHead s.command s.args s.blocks.length = .error f) (t : Draft) :
    sc.emitOwner s t = .error f := by
  rw [emitOwner, h]
  rfl

mutual

/-- A statement is emitted as it is laid out, if it passes its check. -/
theorem emitStatement_eq (sc : Scope) : ∀ s : Statement,
    Emits (sc.emitStatement s) (sc.checkStatement s)
      fun start => layoutStatement sc.procedures start s
  | ⟨command, args, blocks, position⟩ => by
    intro t
    rw [emitStatement, checkStatement]
    cases hhead : sc.checkHead command args blocks.length with
    | error f =>
      rw [emitConstruct, emitOwner_of_error hhead]
      rfl
    | ok _ =>
      obtain ⟨-, hblocks, -⟩ := checkHead_eq_ok hhead
      match blocks with
      | [] =>
        simp only [← hblocks, List.length_nil, Nat.lt_irrefl, if_false, emitBlocks,
          emitConstruct_noBlock (s := ⟨command, args, [], position⟩) hhead hblocks.symm t]
        simp [checkBlocks, layoutStatement, bind, Except.bind, pure, Except.pure, Except.map]
      | [b] =>
        simp only [← hblocks, List.length_singleton, Nat.one_pos, if_true, emitBlocks]
        rw [emitConstruct_oneBlock (s := ⟨command, args, [b], position⟩) hhead hblocks.symm
          (emitBlock_eq sc b) t, checkBlocks_singleton, layoutStatement]
        rfl
      | [b, c] =>
        simp only [← hblocks, List.length_cons, List.length_nil, Nat.zero_add, Nat.reduceAdd,
          Nat.zero_lt_two, if_true, emitBlocks]
        rw [emitConstruct_twoBlocks (s := ⟨command, args, [b, c], position⟩) hhead hblocks.symm
          (emitBlock_eq sc b) (emitBlock_eq sc c) t, checkBlocks_pair, layoutStatement]
        rfl
      | _ :: _ :: _ :: rest =>
        have hmany : rest.length + 3 = command.blocks := hblocks
        cases command <;> simp [Command.blocks] at hmany

/-- The statements of a block are emitted as they are laid out, if they pass their checks. -/
theorem emitBlock_eq (sc : Scope) : ∀ b : List Statement,
    Emits (sc.emitBlock b) (sc.checkBlock b) fun start => layoutBlock sc.procedures start b
  | [] => by
    intro t
    simp [emitBlock, checkBlock, layoutBlock, Except.map, Draft.extend]
  | s :: rest => by
    intro t
    rw [emitBlock, checkBlock, emitStatement_eq sc s t]
    cases sc.checkStatement s with
    | error f => rfl
    | ok _ =>
      simp only [Except.map, bind, Except.bind, emitBlock_eq sc rest (t.extend _)]
      simp [layoutBlock]

end

end Scope

-- ════════════════════════════════════════════════════════════════════════
-- Programs
-- ════════════════════════════════════════════════════════════════════════

theorem Except.mapM_eq_forM {ε α β : Type} {f : α → Except ε β} {check : α → Except ε Unit}
    {g : α → β} (h : ∀ x, f x = (check x).map fun _ => g x) (xs : List α) :
    xs.mapM f = (xs.forM check).map fun _ => xs.map g := by
  induction xs with
  | nil => rfl
  | cons x xs ih =>
    rw [List.mapM_cons, h, ih, List.forM]
    cases check x with
    | error e => rfl
    | ok _ => cases xs.forM check <;> rfl

/-- One pass gives the same program, or the same fault. -/
theorem ProgramDef.assembleInOnePass_eq (d : ProgramDef) (w : World) (forgiving : Bool) :
    d.assembleInOnePass w forgiving = d.assemble w forgiving := by
  have hemit (p : ProcedureDef) :
      (do let t ← (d.scope w forgiving p).emitBlock p.body ⟨[], []⟩
          return (⟨p.name, p.inputs, p.locals, (t.push (.ending t.offset)).code.toArray⟩ :
            Procedure)) =
        ((d.scope w forgiving p).checkBlock p.body).map fun _ =>
          ProcedureDef.layout d.procedures p := by
    rw [Scope.emitBlock_eq]
    cases (d.scope w forgiving p).checkBlock p.body with
    | error f => rfl
    | ok _ =>
      simp only [Except.map, bind, Except.bind, pure, Except.pure, ProcedureDef.layout,
        Draft.push, Draft.extend, Draft.offset, List.nil_append, List.length_nil]
      rfl
  have hcheck : d.check w forgiving = (do
      ProcedureDef.checkNames [] d.procedures
      d.procedures.forM fun p => (d.scope w forgiving p).checkBlock p.body) := rfl
  rw [assembleInOnePass, assemble, hcheck, Except.mapM_eq_forM hemit]
  cases ProcedureDef.checkNames [] d.procedures with
  | error f => rfl
  | ok _ => cases d.procedures.forM fun p => (d.scope w forgiving p).checkBlock p.body <;> rfl

/-- Assembly accepts exactly the well-formed programs, and refuses the others for a rule that they
break or a callee that they lack. A pass that patches jumps as it goes does the same, so it never
finds a block missing, a jump without a place or code that fails verification. -/
theorem ProgramDef.assembles_iff_wellFormed (d : ProgramDef) (w : World) (forgiving : Bool) :
    ((∃ program, d.assemble w forgiving = .ok program) ↔ d.WellFormed w forgiving)
      ∧ (∀ f, d.assemble w forgiving = .error f →
        (f.kind = .assemblyFailed ∨ f.kind = .procedureNotFound) ∧ f.Refuses)
      ∧ d.assembleInOnePass w forgiving = d.assemble w forgiving := by
  rw [d.assembleInOnePass_eq, d.assemble_eq_check, ← check_eq_ok_iff]
  have hrefuses := d.refuses_check w forgiving
  cases hcheck : d.check w forgiving with
  | ok _ => exact ⟨⟨fun _ => rfl, fun _ => ⟨_, rfl⟩⟩, by rintro _ ⟨⟩, rfl⟩
  | error f =>
    refine ⟨⟨by rintro ⟨_, ⟨⟩⟩, by rintro ⟨⟩⟩, ?_, rfl⟩
    rintro g ⟨⟩
    exact ⟨(hrefuses f hcheck).kind, hrefuses f hcheck⟩

/-- A call inside of a loop inside of one branch, and constructs in the other. -/
def nestedCall (callee : String) : ProgramDef where
  procedures :=
    [⟨"go", 0, 1,
        [⟨.ifElse, [.constant (.boolean true)],
          [[⟨.repeatTimes 0, [.constant (.number 3)],
              [[⟨.call callee 0, [.constant (.number 4)], [], .zero⟩]], .zero⟩],
            [⟨.carefully, [], [[⟨.stop, [], [], .zero⟩], []], .zero⟩]], .zero⟩]⟩,
      ⟨"Sub", 1, 1, []⟩]

theorem ProgramDef.assembles_iff_wellFormed_nestedCall :
    (nestedCall "SUB").WellFormed (World.build .default) false
      ∧ ¬ (nestedCall "gone").WellFormed (World.build .default) false
      ∧ ∃ f, (nestedCall "gone").assemble (World.build .default) false = .error f
        ∧ (nestedCall "gone").assembleInOnePass (World.build .default) false = .error f
        ∧ f.Refuses := by
  have haccepted := (nestedCall "SUB").assembles_iff_wellFormed (World.build .default) false
  obtain ⟨hiff, hfails, hsame⟩ :=
    (nestedCall "gone").assembles_iff_wellFormed (World.build .default) false
  have hrefused : (nestedCall "gone").assemble (World.build .default) false =
      .error (.ofCause (.noSuchProcedure "gone")) := rfl
  refine ⟨haccepted.1.1 ⟨_, rfl⟩, fun h => ?_, _, hrefused, hsame.trans hrefused,
    (hfails _ hrefused).2⟩
  obtain ⟨program, hok⟩ := hiff.2 h
  cases hok.symm.trans hrefused

end Swarm
