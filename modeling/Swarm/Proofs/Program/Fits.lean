import Swarm.Proofs.Program.Occurrence

/-!
# Code that fits

What assembly has checked, said about the instructions of the assembled code. An instruction fits
its procedure if it has the arguments, the variables, the locals and the callee that its command
needs; it stays inside if every place it can lead to exists.

## Main definitions

* `Instruction.Fits`, `Instruction.Inside`
* `ProgramDef.scope`: what the body of a procedure is checked against

## Main results

* `Program.inside_of_verify`: in a verified program every instruction stays inside
* `ProgramDef.fits_of_assemble`: in an assembled program every instruction fits
-/

namespace Swarm

/-- The local that a command reads or writes besides its arguments. -/
def Command.touched? : Command → Option Nat
  | .repeatCheck slot => some slot
  | c => c.local?

/-- An instruction that has what its command needs. -/
structure Instruction.Fits (sc : Scope) (i : Instruction) : Prop where
  exprs : sc.checkExprs i.args = .ok ()
  unary : i.command.isUnary = true → ∃ e, i.args = [e]
  springs : i.command = .layoutSpring → i.args.length = 5
  callee : ∀ name index, i.command = .call name index →
    ∃ p, sc.procedures[index]? = some p ∧ i.args.length = p.inputs
  variableSlot : ∀ kind slot, i.command = .setVariable kind slot → slot < sc.slots kind
  localSlot : ∀ slot, i.command.touched? = some slot → slot < sc.procedure.locals
  known : ∀ v, i.known = some v →
    i.command.isUnary = true ∧ ∃ e, i.args = [e] ∧ e.constant? = some v

/-- An instruction whose targets exist, in code of a size and a program of a number of
procedures. -/
structure Instruction.Inside (procedures size : Nat) (i : Instruction) : Prop where
  next : i.command.isTerminal = false → i.next < size
  offset : i.hasOffset = true → i.offset < size
  alternate : i.hasAlternate = true → i.alternate < size
  callee : ∀ name index, i.command = .call name index → index < procedures

theorem Program.instruction_eq_ok {program : Program} {index ip : Nat} {q : Procedure}
    {i : Instruction} (hq : program.procedure index = .ok q) (hi : q.code[ip]? = some i) :
    program.instruction index ip = .ok i := by
  rw [Program.instruction, hq]
  simp only [bind, Except.bind, hi]

/-- A place that the code does not have is a defect. -/
theorem Program.instruction_eq_error {program : Program} {index ip : Nat} {f : Fault}
    (h : program.instruction index ip = .error f) :
    f = .ofDefect (.noProcedure index) ∨ ∃ name, f = .ofDefect (.outsideProcedure ip name) := by
  unfold instruction Program.procedure at h
  cases hq : program.procedures[index]? with
  | none =>
    rw [hq] at h
    cases h
    exact .inl rfl
  | some q =>
    simp only [hq, bind, Except.bind] at h
    cases hi : q.code[ip]? with
    | none =>
      rw [hi] at h
      cases h
      exact .inr ⟨q.name, rfl⟩
    | some i =>
      rw [hi] at h
      cases h

-- ════════════════════════════════════════════════════════════════════════
-- Verification
-- ════════════════════════════════════════════════════════════════════════

theorem Instruction.inside_of_verify {procedures size ip : Nat} {name : String} {i : Instruction}
    (h : i.verify procedures name size ip = .ok ()) : i.Inside procedures size := by
  have target {used : Bool} {place : Nat}
      (ht : (if used && size ≤ place then .error (.ofDefect (.jumpOutside name ip place)) else .ok ()
        : Except Fault Unit) = .ok ()) (hu : used = true) : place < size := by
    by_cases hs : size ≤ place
    · simp [hu, hs] at ht
    · omega
  obtain ⟨_, hnext, h⟩ := Except.bind_eq_ok h
  obtain ⟨_, hoffset, h⟩ := Except.bind_eq_ok h
  obtain ⟨_, halternate, h⟩ := Except.bind_eq_ok h
  refine ⟨fun ht => target hnext (by simp [ht]), target hoffset, target halternate,
    fun callee index hc => ?_⟩
  rw [hc] at h
  by_cases hs : procedures ≤ index
  · simp [hs] at h
  · omega

theorem Procedure.inside_of_verifyFrom {procedures size : Nat} {name : String}
    (code : List Instruction) :
    ∀ ip, verifyFrom procedures name size ip code = .ok () →
      ∀ i ∈ code, i.Inside procedures size := by
  induction code with
  | nil => simp
  | cons j rest ih =>
    intro ip h i hi
    obtain ⟨_, hone, hrest⟩ := Except.bind_eq_ok h
    rcases List.mem_cons.1 hi with rfl | hi
    · exact Instruction.inside_of_verify hone
    · exact ih (ip + 1) hrest i hi

/-- A verified procedure has code, which does not lead outside. -/
theorem Procedure.inside_of_verify {procedures : Nat} {q : Procedure}
    (h : q.verify procedures = .ok ()) :
    0 < q.code.size ∧ ∀ i ∈ q.code, i.Inside procedures q.code.size := by
  rw [verify] at h
  split at h
  · next hend =>
    constructor
    · apply Nat.pos_of_ne_zero
      intro hz
      have hempty : q.code = #[] := Array.eq_empty_of_size_eq_zero hz
      simp [endsInReturn, hempty] at hend
    · intro i hi
      exact inside_of_verifyFrom q.code.toList 0 h i (Array.mem_toList_iff.2 hi)
  · cases h

theorem Except.of_forM_eq_ok {ε α : Type} {f : α → Except ε Unit} :
    ∀ {xs : List α}, xs.forM f = .ok () → ∀ x ∈ xs, f x = .ok ()
  | [], _, x, hx => by cases hx
  | y :: rest, h, x, hx => by
    obtain ⟨_, hone, hrest⟩ := Except.bind_eq_ok h
    rcases List.mem_cons.1 hx with rfl | hx
    · exact hone
    · exact of_forM_eq_ok hrest x hx

/-- In a verified program every procedure has code, which does not lead outside. -/
theorem Program.inside_of_verify {program : Program} (h : program.verify = .ok ()) {index : Nat}
    {q : Procedure} (hq : program.procedures[index]? = some q) :
    0 < q.code.size ∧ ∀ i ∈ q.code, i.Inside program.procedures.size q.code.size := by
  have hmem : q ∈ program.procedures.toList :=
    Array.mem_toList_iff.2 (Array.mem_of_getElem? hq)
  exact Procedure.inside_of_verify (Except.of_forM_eq_ok h q hmem)

-- ════════════════════════════════════════════════════════════════════════
-- Checks
-- ════════════════════════════════════════════════════════════════════════

namespace Scope

variable {sc : Scope}

theorem checkCount_eq_ok {called : String} {expects got : Nat}
    (h : sc.checkCount called expects got = .ok ()) : got = expects := by
  rw [checkCount] at h
  split at h
  · assumption
  · cases h

/-- A command whose check succeeds has its blocks and passes the single checks. -/
theorem checkHead_eq_ok {c : Command} {args : List Expr} {blocks : Nat}
    (h : sc.checkHead c args blocks = .ok ()) :
    c.isSynthetic = false ∧ blocks = c.blocks ∧ sc.checkArity c args.length = .ok ()
      ∧ sc.checkVariable c.slot? = .ok () ∧ sc.checkLocal c.local? = .ok ()
      ∧ sc.checkExprs args = .ok () := by
  rw [checkHead] at h
  by_cases hs : c.isSynthetic
  · simp only [hs, if_true] at h
    cases h
  by_cases hb : blocks = c.blocks
  · simp only [hs, hb, ne_eq, not_true_eq_false, if_false, Bool.false_eq_true] at h
    obtain ⟨_, harity, h⟩ := Except.bind_eq_ok h
    obtain ⟨_, hvariable, h⟩ := Except.bind_eq_ok h
    obtain ⟨_, hlocal, h⟩ := Except.bind_eq_ok h
    exact ⟨by simpa using hs, hb, harity, hvariable, hlocal, h⟩
  · simp only [hs, hb, ne_eq, not_false_eq_true, if_true, if_false, Bool.false_eq_true] at h
    cases h

theorem checkVariable_eq_ok {kind : AgentKind} {slot : Nat}
    (h : sc.checkVariable (some (kind, slot)) = .ok ()) : slot < sc.slots kind := by
  unfold checkVariable at h
  split at h
  · cases ‹some (kind, slot) = none›
  · next heq =>
    cases heq
    split at h
    · assumption
    · cases h

theorem checkLocal_eq_ok {slot : Nat} (h : sc.checkLocal (some slot) = .ok ()) :
    slot < sc.procedure.locals := by
  unfold checkLocal at h
  split at h
  · cases ‹some slot = none›
  · next heq =>
    cases heq
    split at h
    · assumption
    · cases h

/-- A call is resolved to the procedure whose inputs its arguments were counted against. -/
theorem checkArity_call {name : String} {index got : Nat}
    (h : sc.checkArity (.call name index) got = .ok ()) :
    ∃ p, sc.procedures[(calleeIndex? sc.procedures name).getD 0]? = some p ∧ got = p.inputs := by
  rw [checkArity] at h
  cases hi : calleeIndex? sc.procedures name with
  | none =>
    simp only [hi, Option.bind_none] at h
    cases h
  | some place =>
    simp only [hi, Option.bind_some] at h
    cases hp : sc.procedures[place]? with
    | none =>
      rw [hp] at h
      cases h
    | some p =>
      rw [hp] at h
      exact ⟨p, by simpa using hp, checkCount_eq_ok h⟩

theorem checkArity_of_arity {c : Command} {expects got : Nat} (hc : c.arity = some expects)
    (h : sc.checkArity c got = .ok ()) : got = expects := by
  have hcount : sc.checkCount c.token expects got = .ok () := by
    unfold checkArity at h
    split at h
    · cases hc
    · simpa [hc] using h
  exact checkCount_eq_ok hcount

end Scope

-- ════════════════════════════════════════════════════════════════════════
-- Assembled code
-- ════════════════════════════════════════════════════════════════════════

namespace Instruction

variable {sc : Scope} {s : Statement} {i : Instruction}

/-- A command without arguments that only assembly produces. -/
theorem fits_of_synthetic (args : i.args = []) (known : i.known = none)
    (synthetic : i.command.isSynthetic = true)
    (slot : ∀ slot, i.command.touched? = some slot → slot < sc.procedure.locals) : i.Fits sc where
  exprs := by rw [args]; rfl
  unary h := by cases hc : i.command <;> simp_all [Command.isUnary, Command.isSynthetic, Command.arity]
  springs h := by simp [h, Command.isSynthetic] at synthetic
  callee _ _ h := by simp [h, Command.isSynthetic] at synthetic
  variableSlot _ _ h := by simp [h, Command.isSynthetic] at synthetic
  localSlot := slot
  known v h := by simp [known] at h

/-- The command of a statement that was checked. -/
theorem fits_of_owner (h : sc.checkHead s.command s.args s.blocks.length = .ok ())
    (command : i.command = s.command.resolve sc.procedures) (args : i.args = s.args)
    (known : i.known = if i.command.isUnary then i.args.head?.bind Expr.constant? else none) :
    i.Fits sc := by
  obtain ⟨hsource, _, harity, hvariable, hlocal, hexprs⟩ := Scope.checkHead_eq_ok h
  have unary : i.command.isUnary = true → ∃ e, i.args = [e] := by
    intro hu
    have hc : s.command.arity = some 1 := by
      have hu : (s.command.resolve sc.procedures).arity = some 1 := by
        simpa [command, Command.isUnary] using hu
      cases hs : s.command <;> simp_all [Command.resolve, Command.arity]
    exact List.length_eq_one_iff.1 (args ▸ Scope.checkArity_of_arity hc harity)
  refine ⟨args ▸ hexprs, unary, fun hc => ?_, fun name index hc => ?_, fun kind slot hc => ?_,
    fun slot hc => ?_, fun v hv => ?_⟩
  · have hs : s.command = .layoutSpring := by
      cases hs : s.command <;> simp_all [Command.resolve]
    rw [hs] at harity
    exact args ▸ Scope.checkArity_of_arity rfl harity
  · obtain ⟨place, hs, rfl⟩ : ∃ place, s.command = .call name place
        ∧ index = (calleeIndex? sc.procedures name).getD 0 := by
      cases hs : s.command <;> simp_all [Command.resolve]
    rw [hs] at harity
    exact args ▸ Scope.checkArity_call harity
  · have hs : s.command = .setVariable kind slot := by
      cases hs : s.command <;> simp_all [Command.resolve]
    rw [hs] at hvariable
    exact Scope.checkVariable_eq_ok hvariable
  · have hs : s.command.local? = some slot := by
      cases hs : s.command <;>
        simp_all [Command.resolve, Command.touched?, Command.local?, Command.isSynthetic]
    rw [hs] at hlocal
    exact Scope.checkLocal_eq_ok hlocal
  · rw [known] at hv
    by_cases hu : i.command.isUnary
    · obtain ⟨e, he⟩ := unary hu
      exact ⟨hu, e, he, by simpa [hu, he] using hv⟩
    · simp [hu] at hv

/-- An instruction fits if the statement that it comes from was checked. -/
theorem ComesFrom.fits (from_ : i.ComesFrom sc.procedures s)
    (h : sc.checkHead s.command s.args s.blocks.length = .ok ()) : i.Fits sc := by
  cases from_ with
  | owner command args known => exact fits_of_owner h command args known
  | jump command args known =>
    exact fits_of_synthetic args known (by rw [command]; rfl) fun slot hs => by
      simp [command, Command.touched?, Command.local?] at hs
  | mark command args known =>
    exact fits_of_synthetic args known (by rw [command]; rfl) fun slot hs => by
      simp [command, Command.touched?, Command.local?] at hs
  | loopHead owner command args known =>
    apply fits_of_synthetic args known (by rw [command]; rfl)
    intro slot hs
    obtain ⟨_, _, _, _, hlocal, _⟩ := Scope.checkHead_eq_ok h
    simp only [command, Command.touched?, Option.some.injEq] at hs
    subst hs
    rw [owner] at hlocal
    exact Scope.checkLocal_eq_ok hlocal

theorem fits_ending (sc : Scope) (ip : Nat) : (ending ip).Fits sc :=
  fits_of_synthetic rfl rfl rfl fun slot hs => by
    simp [ending, plain, Command.touched?, Command.local?] at hs

end Instruction

namespace ProgramDef

variable {d : ProgramDef} {w : World} {forgiving : Bool} {program : Program}

/-- What the body of a procedure is checked against. -/
def scope (d : ProgramDef) (w : World) (forgiving : Bool) (p : ProcedureDef) : Scope :=
  ⟨forgiving, fun kind => (w.table kind).size, d.procedures, p⟩

theorem assemble_eq_ok (h : d.assemble w forgiving = .ok program) :
    d.check w forgiving = .ok () ∧ program = d.layout ∧ program.verify = .ok () := by
  obtain ⟨_, hcheck, h⟩ := Except.bind_eq_ok h
  obtain ⟨_, hverify, h⟩ := Except.bind_eq_ok h
  cases h
  exact ⟨hcheck, rfl, hverify⟩

theorem inputs_le_of_checkNames {p : ProcedureDef} :
    ∀ {procedures : List ProcedureDef} {taken : List String},
      ProcedureDef.checkNames taken procedures = .ok () → p ∈ procedures → p.inputs ≤ p.locals
  | [], _, _, hp => by cases hp
  | q :: rest, taken, h, hp => by
    rw [ProcedureDef.checkNames] at h
    by_cases hname : taken.contains (Text.toLower q.name)
    · simp only [hname, if_true] at h
      cases h
    by_cases hlocals : q.locals < q.inputs
    · simp only [hname, hlocals, if_true, if_false, Bool.false_eq_true] at h
      cases h
    simp only [hname, hlocals, if_false, Bool.false_eq_true] at h
    rcases List.mem_cons.1 hp with rfl | hp
    · omega
    · exact inputs_le_of_checkNames h hp

/-- A procedure of an assembled program is the layout of a procedure that was checked. -/
theorem procedure_of_assemble (h : d.assemble w forgiving = .ok program) {index : Nat}
    {q : Procedure} (hq : program.procedures[index]? = some q) :
    ∃ p, d.procedures[index]? = some p ∧ q = p.layout d.procedures ∧ p.inputs ≤ p.locals
      ∧ (d.scope w forgiving p).checkBlock p.body = .ok () := by
  obtain ⟨hcheck, rfl, _⟩ := assemble_eq_ok h
  obtain ⟨_, hnames, hbodies⟩ := Except.bind_eq_ok hcheck
  simp only [layout, List.getElem?_toArray, List.getElem?_map, Option.map_eq_some_iff] at hq
  obtain ⟨p, hp, rfl⟩ := hq
  have hmem : p ∈ d.procedures := List.mem_of_getElem? hp
  exact ⟨p, hp, rfl, inputs_le_of_checkNames hnames hmem, Except.of_forM_eq_ok hbodies p hmem⟩

/-- In an assembled program every instruction fits, and its constants are constants of the
source. -/
theorem fits_of_assemble (h : d.assemble w forgiving = .ok program) {index : Nat} {q : Procedure}
    (hq : program.procedures[index]? = some q) {i : Instruction} (hi : i ∈ q.code) :
    ∃ p, d.procedures[index]? = some p ∧ q.locals = p.locals ∧ i.Fits (d.scope w forgiving p)
      ∧ ∀ v ∈ Expr.constantsOf i.args, v ∈ d.constants := by
  obtain ⟨p, hp, rfl, _, hbody⟩ := procedure_of_assemble h hq
  refine ⟨p, hp, rfl, ?_⟩
  have hcode : i ∈ layoutBlock d.procedures 0 p.body
      ∨ i = .ending (layoutBlock d.procedures 0 p.body).length := by
    simpa [ProcedureDef.layout] using hi
  rcases hcode with hcode | rfl
  · obtain ⟨s, hs, hfrom⟩ := comesFrom_of_mem_layoutBlock p.body 0 hcode
    have hhead := Scope.checkHead_of_mem_allOf p.body hbody s hs
    have hfits : i.Fits (d.scope w forgiving p) := hfrom.fits hhead
    refine ⟨hfits, fun v hv => ?_⟩
    have hargs : v ∈ Expr.constantsOf s.args := by
      cases hfrom with
      | owner command args known => exact args ▸ hv
      | jump command args known => simp [args, Expr.constantsOf] at hv
      | mark command args known => simp [args, Expr.constantsOf] at hv
      | loopHead owner command args known => simp [args, Expr.constantsOf] at hv
    exact List.mem_flatMap.2 ⟨p, List.mem_of_getElem? hp, List.mem_flatMap.2 ⟨s, hs, hargs⟩⟩
  · refine ⟨Instruction.fits_ending _ _, fun v hv => ?_⟩
    simp [Instruction.ending, Instruction.plain, Expr.constantsOf] at hv

end ProgramDef

end Swarm
