import Swarm.Proofs.Report

/-!
# Programs that assembly accepts

Assembly accepts a program exactly if it is well-formed: procedures have names of their own and room
for their inputs, and at every depth statements and expressions have what their primitives need. The
checks of assembly are made statement by statement, in the order of the text, and stop at the first
violation; well-formedness is said without any order. Whatever has passed the checks is laid out so
that every jump stays inside its procedure, so that verification has nothing to add.

## Main definitions

* `Expr.allOf`: the expressions of a list at any depth
* `Expr.Fits`, `Statement.Fits`: expressions and statements that have what they need
* `ProgramDef.WellFormed`: programs all of whose statements fit
* `Fault.Refuses`: the faults by which assembly refuses a program

## Main results

* `ProgramDef.check_eq_ok_iff`: the checks pass exactly on well-formed programs
* `ProgramDef.verify_layout`: verification accepts what has passed the checks
* `ProgramDef.assemble_eq_check`: assembly passes exactly if the checks do
* `ProgramDef.refuses_check`: how the checks refuse a program
-/

namespace Swarm

-- ════════════════════════════════════════════════════════════════════════
-- Well-formed programs
-- ════════════════════════════════════════════════════════════════════════

namespace Expr

mutual

/-- An expression and the expressions in it. -/
def all : Expr → List Expr
  | ⟨reporter, args, position⟩ => ⟨reporter, args, position⟩ :: allOf args

/-- The expressions of a list at any depth. -/
def allOf : List Expr → List Expr
  | [] => []
  | e :: rest => all e ++ allOf rest

end

/-- An expression that has what its reporter needs, its arguments apart. -/
structure Fits (sc : Scope) (e : Expr) : Prop where
  arity : e.args.length = e.reporter.arity
  variableSlot : ∀ kind slot, e.reporter = .getVariable kind slot → slot < sc.slots kind
  localSlot : ∀ slot, e.reporter = .getLocal slot → slot < sc.procedure.locals
  resolved : ∀ name, e.reporter = .unknown name → sc.forgiving = true

end Expr

/-- A statement that has what its command needs, the statements of its blocks apart. -/
structure Statement.Fits (sc : Scope) (s : Statement) : Prop where
  source : s.command.isSynthetic = false
  blocks : s.blocks.length = s.command.blocks
  arity : ∀ count, s.command.arity = some count → s.args.length = count
  callee : ∀ name index, s.command = .call name index →
    ∃ p ∈ sc.procedures, Text.toLower p.name = Text.toLower name ∧ s.args.length = p.inputs
  variableSlot : ∀ kind slot, s.command = .setVariable kind slot → slot < sc.slots kind
  localSlot : ∀ slot, s.command.local? = some slot → slot < sc.procedure.locals
  exprs : ∀ e ∈ Expr.allOf s.args, e.Fits sc

/-- A program with distinct names, up to case, whose procedures have room for their inputs and whose
statements fit. -/
structure ProgramDef.WellFormed (d : ProgramDef) (w : World) (forgiving : Bool) : Prop where
  names : (d.procedures.map fun p => Text.toLower p.name).Nodup
  room : ∀ p ∈ d.procedures, p.inputs ≤ p.locals
  statements : ∀ p ∈ d.procedures, ∀ s ∈ Statement.allOf p.body, s.Fits (d.scope w forgiving p)

-- ════════════════════════════════════════════════════════════════════════
-- Checks that pass
-- ════════════════════════════════════════════════════════════════════════

/-- Two checks in a row. -/
theorem Except.seq_eq_ok_iff {ε : Type} {x y : Except ε Unit} :
    (x >>= fun _ => y) = .ok () ↔ x = .ok () ∧ y = .ok () := by
  cases x with
  | ok a => exact ⟨fun h => ⟨rfl, h⟩, fun h => h.2⟩
  | error e => exact ⟨fun h => (by cases h), fun h => (by cases h.1)⟩

theorem Except.forM_eq_ok_iff {ε α : Type} {f : α → Except ε Unit} {xs : List α} :
    xs.forM f = .ok () ↔ ∀ x ∈ xs, f x = .ok () := by
  refine ⟨of_forM_eq_ok, fun h => ?_⟩
  induction xs with
  | nil => rfl
  | cons y rest ih =>
    exact seq_eq_ok_iff.2 ⟨h y (by simp), ih fun x hx => h x (by simp [hx])⟩

namespace Scope

variable {sc : Scope}

theorem checkCount_eq_ok_iff {called : String} {expects got : Nat} :
    sc.checkCount called expects got = .ok () ↔ got = expects :=
  ⟨checkCount_eq_ok, fun h => by rw [checkCount, if_pos h]⟩

theorem checkVariable_eq_ok_iff {slot? : Option (AgentKind × Nat)} :
    sc.checkVariable slot? = .ok () ↔
      ∀ kind slot, slot? = some (kind, slot) → slot < sc.slots kind := by
  cases slot? with
  | none => exact ⟨fun _ => by simp, fun _ => rfl⟩
  | some named =>
    obtain ⟨kind, slot⟩ := named
    refine ⟨fun h => ?_, fun h => ?_⟩
    · rintro _ _ ⟨⟩
      exact checkVariable_eq_ok h
    · rw [checkVariable, if_pos (h kind slot rfl)]

theorem checkLocal_eq_ok_iff {slot? : Option Nat} :
    sc.checkLocal slot? = .ok () ↔ ∀ slot, slot? = some slot → slot < sc.procedure.locals := by
  cases slot? with
  | none => exact ⟨fun _ => by simp, fun _ => rfl⟩
  | some slot =>
    refine ⟨fun h => ?_, fun h => ?_⟩
    · rintro _ ⟨⟩
      exact checkLocal_eq_ok h
    · rw [checkLocal, if_pos (h slot rfl)]

theorem checkReporter_eq_ok_iff {r : Reporter} {position : Position} :
    sc.checkReporter r position = .ok () ↔
      (∀ kind slot, r = .getVariable kind slot → slot < sc.slots kind)
        ∧ (∀ slot, r = .getLocal slot → slot < sc.procedure.locals)
        ∧ ∀ name, r = .unknown name → sc.forgiving = true := by
  cases r with
  | getVariable kind slot =>
    have hslot : sc.checkVariable (some (kind, slot)) = .ok () ↔ _ := checkVariable_eq_ok_iff
    simpa [checkReporter] using hslot
  | getLocal slot =>
    have hslot : sc.checkLocal (some slot) = .ok () ↔ _ := checkLocal_eq_ok_iff
    simpa [checkReporter] using hslot
  | unknown name => cases hf : sc.forgiving <;> simp [checkReporter, hf]
  | _ => simp [checkReporter]

mutual

theorem checkExpr_eq_ok_iff :
    ∀ e : Expr, sc.checkExpr e = .ok () ↔ ∀ e' ∈ e.all, e'.Fits sc
  | ⟨reporter, args, position⟩ => by
    have hargs := checkExprs_eq_ok_iff args
    rw [checkExpr, Except.seq_eq_ok_iff, Except.seq_eq_ok_iff, hargs, checkCount_eq_ok_iff,
      checkReporter_eq_ok_iff, Expr.all, List.forall_mem_cons]
    constructor
    · rintro ⟨harity, ⟨hvariable, hlocal, hresolved⟩, hall⟩
      exact ⟨⟨harity, hvariable, hlocal, hresolved⟩, hall⟩
    · rintro ⟨⟨harity, hvariable, hlocal, hresolved⟩, hall⟩
      exact ⟨harity, ⟨hvariable, hlocal, hresolved⟩, hall⟩

theorem checkExprs_eq_ok_iff :
    ∀ es : List Expr, sc.checkExprs es = .ok () ↔ ∀ e ∈ Expr.allOf es, e.Fits sc
  | [] => by simp [checkExprs, Expr.allOf]
  | e :: rest => by
    rw [checkExprs, Except.seq_eq_ok_iff, checkExpr_eq_ok_iff e, checkExprs_eq_ok_iff rest,
      Expr.allOf, List.forall_mem_append]

end

end Scope

theorem calleeIndex?_eq_some {procedures : List ProcedureDef} {name : String} {place : Nat}
    (h : calleeIndex? procedures name = some place) :
    ∃ p, procedures[place]? = some p ∧ Text.toLower p.name = Text.toLower name := by
  obtain ⟨hlt, hname, _⟩ := List.findIdx?_eq_some_iff_getElem.1 h
  exact ⟨procedures[place], List.getElem?_eq_getElem hlt, by simpa using hname⟩

theorem exists_calleeIndex? {procedures : List ProcedureDef} {name : String} {p : ProcedureDef}
    (hp : p ∈ procedures) (hname : Text.toLower p.name = Text.toLower name) :
    ∃ place, calleeIndex? procedures name = some place := by
  cases h : calleeIndex? procedures name with
  | some place => exact ⟨place, rfl⟩
  | none =>
    have hnone := List.findIdx?_eq_none_iff.1 h p hp
    simp [hname] at hnone

/-- Procedures with the same name up to case are the same. -/
theorem eq_of_toLower_eq {procedures : List ProcedureDef}
    (names : (procedures.map fun p => Text.toLower p.name).Nodup) {p q : ProcedureDef}
    (hp : p ∈ procedures) (hq : q ∈ procedures) (h : Text.toLower p.name = Text.toLower q.name) :
    p = q := by
  induction procedures with
  | nil => cases hp
  | cons r rest ih =>
    rw [List.map_cons, List.nodup_cons] at names
    have apart {t : ProcedureDef} (ht : t ∈ rest) : Text.toLower r.name ≠ Text.toLower t.name :=
      fun heq => names.1 (List.mem_map.2 ⟨t, ht, heq.symm⟩)
    rcases List.mem_cons.1 hp with rfl | hrest
    · rcases List.mem_cons.1 hq with rfl | hrest
      · rfl
      · exact absurd h (apart hrest)
    · rcases List.mem_cons.1 hq with rfl | hrest'
      · exact absurd h.symm (apart hrest)
      · exact ih names.2 hrest hrest'

namespace Scope

variable {sc : Scope}

/-- A call refers to the procedure of its name, if names are distinct up to case. -/
theorem checkArity_call_iff (names : (sc.procedures.map fun p => Text.toLower p.name).Nodup)
    {name : String} {index got : Nat} :
    sc.checkArity (.call name index) got = .ok () ↔
      ∃ p ∈ sc.procedures, Text.toLower p.name = Text.toLower name ∧ got = p.inputs := by
  rw [checkArity]
  cases hplace : calleeIndex? sc.procedures name with
  | none =>
    refine ⟨fun h => (by cases h), ?_⟩
    rintro ⟨p, hp, hname, _⟩
    obtain ⟨place, hsome⟩ := exists_calleeIndex? hp hname
    rw [hplace] at hsome
    cases hsome
  | some place =>
    obtain ⟨q, hq, hqname⟩ := calleeIndex?_eq_some hplace
    have hmem : q ∈ sc.procedures := List.mem_of_getElem? hq
    simp only [Option.bind_some, hq, checkCount_eq_ok_iff]
    constructor
    · exact fun h => ⟨q, hmem, hqname, h⟩
    · rintro ⟨p, hp, hname, h⟩
      rwa [eq_of_toLower_eq names hmem hp (hqname.trans hname.symm)]

theorem checkArity_of_arity_iff {c : Command} {expects got : Nat} (hc : c.arity = some expects) :
    sc.checkArity c got = .ok () ↔ got = expects := by
  refine ⟨checkArity_of_arity hc, fun h => ?_⟩
  unfold checkArity
  split
  · cases hc
  · exact checkCount_eq_ok_iff.2 (by simpa [hc] using h)

/-- A statement without its blocks. -/
theorem checkHead_eq_ok_iff (names : (sc.procedures.map fun p => Text.toLower p.name).Nodup)
    {s : Statement} :
    sc.checkHead s.command s.args s.blocks.length = .ok () ↔ s.Fits sc := by
  constructor
  · intro h
    obtain ⟨hsource, hblocks, harity, hvariable, hlocal, hexprs⟩ := checkHead_eq_ok h
    refine ⟨hsource, hblocks, fun count hc => checkArity_of_arity hc harity,
      fun name index hc => ?_, fun kind slot hc => ?_, checkLocal_eq_ok_iff.1 hlocal,
      (checkExprs_eq_ok_iff _).1 hexprs⟩
    · rw [hc] at harity
      exact (checkArity_call_iff names).1 harity
    · exact checkVariable_eq_ok_iff.1 hvariable kind slot (by rw [hc]; rfl)
  · intro h
    have harity : sc.checkArity s.command s.args.length = .ok () := by
      cases hc : s.command.arity with
      | some count => exact (checkArity_of_arity_iff hc).2 (h.arity count hc)
      | none =>
        obtain ⟨name, index, hcall⟩ : ∃ name index, s.command = .call name index := by
          cases hs : s.command <;> simp_all [Command.arity]
        rw [hcall]
        exact (checkArity_call_iff names).2 (h.callee name index hcall)
    have hvariable : sc.checkVariable s.command.slot? = .ok () := by
      refine checkVariable_eq_ok_iff.2 fun kind slot hc => h.variableSlot kind slot ?_
      cases hs : s.command <;> simp_all [Command.slot?]
    simp only [checkHead, h.source, h.blocks, ne_eq, not_true_eq_false, if_false,
      Bool.false_eq_true]
    exact Except.seq_eq_ok_iff.2 ⟨harity, Except.seq_eq_ok_iff.2 ⟨hvariable,
      Except.seq_eq_ok_iff.2 ⟨checkLocal_eq_ok_iff.2 h.localSlot,
        (checkExprs_eq_ok_iff _).2 h.exprs⟩⟩⟩

mutual

theorem checkStatement_of_all :
    ∀ t : Statement,
      (∀ s ∈ t.all, sc.checkHead s.command s.args s.blocks.length = .ok ()) →
      sc.checkStatement t = .ok ()
  | ⟨command, args, blocks, position⟩, h => by
    rw [Statement.all, List.forall_mem_cons] at h
    rw [checkStatement]
    exact Except.seq_eq_ok_iff.2 ⟨h.1, checkBlocks_of_allOfBlocks blocks h.2⟩

theorem checkBlocks_of_allOfBlocks :
    ∀ blocks : List (List Statement),
      (∀ s ∈ Statement.allOfBlocks blocks,
        sc.checkHead s.command s.args s.blocks.length = .ok ()) →
      sc.checkBlocks blocks = .ok ()
  | [], _ => rfl
  | b :: rest, h => by
    rw [Statement.allOfBlocks, List.forall_mem_append] at h
    rw [checkBlocks]
    exact Except.seq_eq_ok_iff.2 ⟨checkBlock_of_allOf b h.1, checkBlocks_of_allOfBlocks rest h.2⟩

/-- The check of a block passes if the check of every statement in it does. -/
theorem checkBlock_of_allOf :
    ∀ b : List Statement,
      (∀ s ∈ Statement.allOf b, sc.checkHead s.command s.args s.blocks.length = .ok ()) →
      sc.checkBlock b = .ok ()
  | [], _ => rfl
  | t :: rest, h => by
    rw [Statement.allOf, List.forall_mem_append] at h
    rw [checkBlock]
    exact Except.seq_eq_ok_iff.2 ⟨checkStatement_of_all t h.1, checkBlock_of_allOf rest h.2⟩

end

theorem checkBlock_eq_ok_iff (names : (sc.procedures.map fun p => Text.toLower p.name).Nodup)
    {b : List Statement} :
    sc.checkBlock b = .ok () ↔ ∀ s ∈ Statement.allOf b, s.Fits sc := by
  constructor
  · intro h s hs
    exact (checkHead_eq_ok_iff names).1 (checkHead_of_mem_allOf b h s hs)
  · intro h
    exact checkBlock_of_allOf b fun s hs => (checkHead_eq_ok_iff names).2 (h s hs)

end Scope

/-- Names are compared with those that are taken and with each other. -/
theorem ProcedureDef.checkNames_eq_ok_iff {procedures : List ProcedureDef} {taken : List String} :
    checkNames taken procedures = .ok () ↔
      (procedures.map fun p => Text.toLower p.name).Nodup
        ∧ (∀ p ∈ procedures, Text.toLower p.name ∉ taken)
        ∧ ∀ p ∈ procedures, p.inputs ≤ p.locals := by
  induction procedures generalizing taken with
  | nil => simp [checkNames]
  | cons p rest ih =>
    rw [checkNames]
    simp only [List.map_cons, List.nodup_cons, List.forall_mem_cons]
    by_cases hname : taken.contains (Text.toLower p.name)
    · refine ⟨fun h => ?_, fun h => absurd (List.contains_iff_mem.1 hname) h.2.1.1⟩
      simp only [hname, if_true] at h
      cases h
    by_cases hlocals : p.locals < p.inputs
    · refine ⟨fun h => ?_, fun h => absurd h.2.2.1 (by omega)⟩
      simp only [hname, hlocals, if_true, if_false, Bool.false_eq_true] at h
      cases h
    · simp only [hname, hlocals, if_false, Bool.false_eq_true]
      show checkNames (Text.toLower p.name :: taken) rest = .ok () ↔ _
      rw [ih]
      have hfree : Text.toLower p.name ∉ taken := fun h => hname (List.contains_iff_mem.2 h)
      have happart : Text.toLower p.name ∉ rest.map (fun q => Text.toLower q.name) ↔
          ∀ q ∈ rest, Text.toLower q.name ≠ Text.toLower p.name := by
        simp
      simp only [List.mem_cons, not_or, happart]
      constructor
      · rintro ⟨names, fresh, room⟩
        exact ⟨⟨fun q hq => (fresh q hq).1, names⟩, ⟨hfree, fun q hq => (fresh q hq).2⟩,
          by omega, room⟩
      · rintro ⟨⟨distinct, names⟩, ⟨_, fresh⟩, _, room⟩
        exact ⟨names, fun q hq => ⟨distinct q hq, fresh q hq⟩, room⟩

theorem ProgramDef.check_eq_ok_iff {d : ProgramDef} {w : World} {forgiving : Bool} :
    d.check w forgiving = .ok () ↔ d.WellFormed w forgiving := by
  rw [check, Except.seq_eq_ok_iff, Except.forM_eq_ok_iff, ProcedureDef.checkNames_eq_ok_iff]
  have hbody (names : (d.procedures.map fun p => Text.toLower p.name).Nodup) (p : ProcedureDef) :
      (d.scope w forgiving p).checkBlock p.body = .ok () ↔
        ∀ s ∈ Statement.allOf p.body, s.Fits (d.scope w forgiving p) := by
    have hnames : ((d.scope w forgiving p).procedures.map fun q => Text.toLower q.name).Nodup :=
      names
    exact Scope.checkBlock_eq_ok_iff hnames
  constructor
  · rintro ⟨⟨names, _, room⟩, hbodies⟩
    exact ⟨names, room, fun p hp => (hbody names p).1 (hbodies p hp)⟩
  · rintro ⟨names, room, statements⟩
    exact ⟨⟨names, fun _ _ => List.not_mem_nil, room⟩, fun p hp =>
      (hbody names p).2 (statements p hp)⟩

-- ════════════════════════════════════════════════════════════════════════
-- Code that verification accepts
-- ════════════════════════════════════════════════════════════════════════

/-- The places that an instruction names, used or not, lie before `size`. -/
structure Instruction.Bounded (size : Nat) (i : Instruction) : Prop where
  next : i.next < size
  offset : i.offset < size
  alternate : i.alternate < size

namespace Instruction

theorem Bounded.mono {size size' : Nat} {i : Instruction} (h : i.Bounded size)
    (hle : size ≤ size') : i.Bounded size' :=
  ⟨by have := h.next; omega, by have := h.offset; omega, by have := h.alternate; omega⟩

theorem bounded_jump {position : Position} {ip target size : Nat} (hip : ip + 1 < size)
    (ht : target < size) : (jump position ip target).Bounded size :=
  ⟨hip, ht, by show 0 < size; omega⟩

theorem bounded_mark {position : Position} {ip size : Nat} (hip : ip + 1 < size) :
    (mark position ip).Bounded size :=
  ⟨hip, by show 0 < size; omega, by show 0 < size; omega⟩

theorem bounded_owning {owner : Instruction} {resume alternate size : Nat}
    {blocks : List Instruction} (hnext : owner.next < size) (hr : resume < size)
    (ha : alternate < size) : (owner.owning resume alternate blocks).Bounded size :=
  ⟨hnext, hr, ha⟩

end Instruction

open Instruction (bounded_jump bounded_mark bounded_owning)

/-- Code laid out from a place on leads at most to the place after it. -/
def Landed (start : Nat) (code : List Instruction) : Prop :=
  ∀ i ∈ code, i.Bounded (start + code.length + 1)

theorem landed_oneBlock {owner : Instruction} {start : Nat} {block : Nat → List Instruction}
    (hnext : owner.next = start + 1) (hblock : ∀ place, Landed place (block place)) :
    Landed start (oneBlock owner start block) := by
  unfold oneBlock Landed
  split
  · intro i hi
    simp only [List.length_cons]
    rcases List.mem_cons.1 hi with rfl | hi
    · exact bounded_owning (by omega) (by omega) (by omega)
    · exact (hblock _ i hi).mono (by omega)
  · intro i hi
    simp only [List.mem_cons, List.mem_append, List.not_mem_nil, or_false] at hi
    simp only [List.length_cons, List.length_append, List.length_nil]
    rcases hi with rfl | hi | rfl
    · exact bounded_owning (by omega) (by omega) (by omega)
    · exact (hblock _ i hi).mono (by omega)
    · exact bounded_jump (by omega) (by omega)
  · intro i hi
    simp only [List.mem_cons, List.mem_append, List.not_mem_nil, or_false] at hi
    simp only [List.length_cons, List.length_append, List.length_nil]
    rcases hi with rfl | rfl | hi | rfl
    · exact bounded_owning (by omega) (by omega) (by omega)
    · exact ⟨by show start + 1 + 1 < _; omega, by show start + 2 + _ + 1 < _; omega,
        by show 0 < _; omega⟩
    · exact (hblock _ i hi).mono (by omega)
    · exact bounded_jump (by omega) (by omega)
  · intro i hi
    simp only [List.mem_cons, List.mem_append, List.not_mem_nil, or_false] at hi
    simp only [List.length_cons, List.length_append, List.length_nil]
    rcases hi with rfl | hi | rfl
    · exact bounded_owning (by omega) (by omega) (by omega)
    · exact (hblock _ i hi).mono (by omega)
    · exact bounded_mark (by omega)

theorem landed_twoBlocks {owner : Instruction} {start : Nat}
    {first second : Nat → List Instruction} (hnext : owner.next = start + 1)
    (hfirst : ∀ place, Landed place (first place))
    (hsecond : ∀ place, Landed place (second place)) :
    Landed start (twoBlocks owner start first second) := by
  unfold twoBlocks Landed
  intro i hi
  simp only [List.mem_cons, List.mem_append] at hi
  simp only [List.length_cons, List.length_append]
  rcases hi with rfl | hi | rfl | hi
  · exact bounded_owning (by omega) (by omega) (by omega)
  · exact (hfirst _ i hi).mono (by omega)
  · split
    · exact bounded_jump (by omega) (by omega)
    · exact bounded_mark (by omega)
  · exact (hsecond _ i hi).mono (by omega)

mutual

theorem landed_layoutStatement (procedures : List ProcedureDef) :
    ∀ (s : Statement) (start : Nat), Landed start (layoutStatement procedures start s)
  | ⟨command, args, [], position⟩, start => by
    intro i hi
    rw [layoutStatement, List.mem_singleton] at hi
    subst hi
    exact ⟨by show start + 1 < _; simp [layoutStatement], by show 0 < _; omega,
      by show 0 < _; omega⟩
  | ⟨command, args, [b], position⟩, start => by
    rw [layoutStatement]
    exact landed_oneBlock rfl fun place => landed_layoutBlock procedures b place
  | ⟨command, args, b :: c :: _, position⟩, start => by
    rw [layoutStatement]
    exact landed_twoBlocks rfl (fun place => landed_layoutBlock procedures b place)
      fun place => landed_layoutBlock procedures c place

theorem landed_layoutBlock (procedures : List ProcedureDef) :
    ∀ (b : List Statement) (start : Nat), Landed start (layoutBlock procedures start b)
  | [], start => by
    intro i hi
    rw [layoutBlock] at hi
    cases hi
  | s :: rest, start => by
    intro i hi
    rw [layoutBlock] at hi ⊢
    simp only [List.length_append]
    rcases List.mem_append.1 hi with hi | hi
    · exact (landed_layoutStatement procedures s start i hi).mono (by omega)
    · exact (landed_layoutBlock procedures rest _ i hi).mono (by omega)

end

theorem Instruction.verify_of_inside {procedures size : Nat} {i : Instruction}
    (h : i.Inside procedures size) (name : String) (ip : Nat) :
    i.verify procedures name size ip = .ok () := by
  have target {used : Bool} {place : Nat} (ht : used = true → place < size) :
      (if used && size ≤ place then .error (.ofDefect (.jumpOutside name ip place)) else .ok ()
        : Except Fault Unit) = .ok () := by
    rw [if_neg]
    intro hu
    rw [Bool.and_eq_true, decide_eq_true_eq] at hu
    exact absurd (ht hu.1) (by omega)
  refine Except.seq_eq_ok_iff.2 ⟨target fun hu => h.next (by simpa using hu),
    Except.seq_eq_ok_iff.2 ⟨target h.offset, Except.seq_eq_ok_iff.2 ⟨target h.alternate, ?_⟩⟩⟩
  split
  · next callee index hc =>
    have := h.callee callee index hc
    rw [if_neg (by omega)]
  · rfl

theorem Procedure.verifyFrom_of_inside {procedures size : Nat} (name : String)
    {code : List Instruction} (h : ∀ i ∈ code, i.Inside procedures size) :
    ∀ ip, verifyFrom procedures name size ip code = .ok () := by
  induction code with
  | nil => exact fun _ => rfl
  | cons i rest ih =>
    intro ip
    exact Except.seq_eq_ok_iff.2 ⟨Instruction.verify_of_inside (h i (by simp)) name ip,
      ih (fun j hj => h j (by simp [hj])) (ip + 1)⟩

/-- A procedure that fits its program is laid out so that verification accepts it. -/
theorem ProcedureDef.verify_layout {procedures : List ProcedureDef} {p : ProcedureDef}
    (callees : ∀ s ∈ Statement.allOf p.body, ∀ name index, s.command = .call name index →
      ∃ q ∈ procedures, Text.toLower q.name = Text.toLower name) :
    (p.layout procedures).verify procedures.length = .ok () := by
  have hends : (p.layout procedures).endsInReturn = true := by
    simp [ProcedureDef.layout, Procedure.endsInReturn, Instruction.ending, Instruction.plain]
  rw [Procedure.verify, if_pos hends]
  refine Procedure.verifyFrom_of_inside _ (fun i hi => ?_) 0
  have hsize : (p.layout procedures).code.size = (layoutBlock procedures 0 p.body).length + 1 := by
    simp [ProcedureDef.layout]
  have hcode : i ∈ layoutBlock procedures 0 p.body
      ∨ i = .ending (layoutBlock procedures 0 p.body).length := by
    simpa [ProcedureDef.layout] using hi
  rw [hsize]
  rcases hcode with hcode | rfl
  · have hlanded : i.Bounded ((layoutBlock procedures 0 p.body).length + 1) :=
      (landed_layoutBlock procedures p.body 0 i hcode).mono (by omega)
    refine ⟨fun _ => hlanded.next, fun _ => hlanded.offset, fun _ => hlanded.alternate, ?_⟩
    intro name index hc
    obtain ⟨s, hs, hfrom⟩ := comesFrom_of_mem_layoutBlock p.body 0 hcode
    obtain ⟨place, hcall, rfl⟩ : ∃ place, s.command = .call name place
        ∧ index = (calleeIndex? procedures name).getD 0 := by
      cases hfrom with
      | owner command args known =>
        rw [hc] at command
        cases hs : s.command <;> simp_all [Command.resolve]
      | jump command => simp [hc] at command
      | mark command => simp [hc] at command
      | loopHead _ command => simp [hc] at command
    obtain ⟨q, hq, hname⟩ := callees s hs name place hcall
    obtain ⟨found, hfound⟩ := exists_calleeIndex? hq hname
    obtain ⟨r, hr, _⟩ := calleeIndex?_eq_some hfound
    rw [hfound]
    exact (List.getElem?_eq_some_iff.1 hr).1
  · exact ⟨by rintro ⟨⟩, by rintro ⟨⟩, by rintro ⟨⟩, by rintro _ _ ⟨⟩⟩

theorem ProgramDef.verify_layout {d : ProgramDef} {w : World} {forgiving : Bool}
    (h : d.WellFormed w forgiving) : d.layout.verify = .ok () := by
  have hsize : d.layout.procedures.size = d.procedures.length := by simp [layout]
  rw [Program.verify, Except.forM_eq_ok_iff, hsize]
  intro q hq
  obtain ⟨p, hp, rfl⟩ : ∃ p ∈ d.procedures, p.layout d.procedures = q := by
    simpa [layout] using hq
  refine ProcedureDef.verify_layout fun s hs name index hc => ?_
  obtain ⟨callee, hmem, hname, _⟩ := (h.statements p hp s hs).callee name index hc
  exact ⟨callee, hmem, hname⟩

/-- Assembly passes exactly if the checks do, and then gives the layout. -/
theorem ProgramDef.assemble_eq_check (d : ProgramDef) (w : World) (forgiving : Bool) :
    d.assemble w forgiving = (d.check w forgiving).map fun _ => d.layout := by
  rw [assemble]
  cases hc : d.check w forgiving with
  | error f => rfl
  | ok _ =>
    have hverify := verify_layout (check_eq_ok_iff.1 hc)
    show (d.layout.verify >>= fun _ => .ok d.layout) = .ok d.layout
    rw [hverify]
    rfl

-- ════════════════════════════════════════════════════════════════════════
-- Refusals
-- ════════════════════════════════════════════════════════════════════════

/-- The faults by which assembly refuses a program: a rule that the program breaks, or a callee that
it does not have. -/
inductive Fault.Refuses : Fault → Prop where
  | rule {procedure : String} {refusal : Refusal} : (∀ words, refusal ≠ .other words) →
    Refuses (.ofCause (.refused procedure refusal))
  | name (procedure name position : String) :
    Refuses (.ofCause (.refusedAt procedure (.undefinedName name) position))
  | callee (name : String) : Refuses (.ofCause (.noSuchProcedure name))

theorem Fault.Refuses.kind {f : Fault} (h : f.Refuses) :
    f.kind = .assemblyFailed ∨ f.kind = .procedureNotFound := by
  cases h with
  | rule _ => exact .inl rfl
  | name _ _ _ => exact .inl rfl
  | callee _ => exact .inr rfl

namespace Scope

open Swarm.Except (FailsWith failsWith_ok failsWith_error)

variable (sc : Scope)

theorem refuses_refuse {α : Type} {refusal : Refusal} (h : ∀ words, refusal ≠ .other words) :
    FailsWith Fault.Refuses (sc.refuse refusal : Except Fault α) :=
  failsWith_error (.rule h)

theorem refuses_checkCount (called : String) (expects got : Nat) :
    FailsWith Fault.Refuses (sc.checkCount called expects got) := by
  rw [checkCount]
  split
  · exact failsWith_ok _
  · exact sc.refuses_refuse (by simp)

theorem refuses_checkVariable (slot? : Option (AgentKind × Nat)) :
    FailsWith Fault.Refuses (sc.checkVariable slot?) := by
  unfold checkVariable
  split
  · exact failsWith_ok _
  · split
    · exact failsWith_ok _
    · exact sc.refuses_refuse (by simp)

theorem refuses_checkLocal (slot? : Option Nat) :
    FailsWith Fault.Refuses (sc.checkLocal slot?) := by
  unfold checkLocal
  split
  · exact failsWith_ok _
  · split
    · exact failsWith_ok _
    · exact sc.refuses_refuse (by simp)

theorem refuses_checkReporter (r : Reporter) (position : Position) :
    FailsWith Fault.Refuses (sc.checkReporter r position) := by
  unfold checkReporter
  split
  · split
    · exact failsWith_ok _
    · exact failsWith_error (.name _ _ _)
  · exact sc.refuses_checkLocal _
  · exact sc.refuses_checkVariable _
  · exact failsWith_ok _

mutual

theorem refuses_checkExpr : ∀ e : Expr, FailsWith Fault.Refuses (sc.checkExpr e)
  | ⟨reporter, args, position⟩ => by
    rw [checkExpr]
    apply (sc.refuses_checkCount _ _ _).bind
    intro _
    exact (sc.refuses_checkReporter reporter position).bind fun _ => refuses_checkExprs args

theorem refuses_checkExprs : ∀ es : List Expr, FailsWith Fault.Refuses (sc.checkExprs es)
  | [] => failsWith_ok _
  | e :: rest => by
    rw [checkExprs]
    exact (refuses_checkExpr e).bind fun _ => refuses_checkExprs rest

end

theorem refuses_checkArity (c : Command) (got : Nat) :
    FailsWith Fault.Refuses (sc.checkArity c got) := by
  unfold checkArity
  split
  · split
    · exact sc.refuses_checkCount _ _ _
    · exact failsWith_error (.callee _)
  · exact sc.refuses_checkCount _ _ _

theorem refuses_checkHead (c : Command) (args : List Expr) (blocks : Nat) :
    FailsWith Fault.Refuses (sc.checkHead c args blocks) := by
  have hfits : FailsWith Fault.Refuses (do
      sc.checkArity c args.length
      sc.checkVariable c.slot?
      sc.checkLocal c.local?
      sc.checkExprs args) := by
    apply (sc.refuses_checkArity c args.length).bind
    intro _
    apply (sc.refuses_checkVariable c.slot?).bind
    intro _
    exact (sc.refuses_checkLocal c.local?).bind fun _ => sc.refuses_checkExprs args
  rw [checkHead]
  by_cases hs : c.isSynthetic
  · simp only [hs, if_true]
    exact failsWith_error (.rule (by simp))
  · simp only [hs, if_false, Bool.false_eq_true]
    split
    · exact failsWith_error (.rule (by simp))
    · exact hfits

mutual

theorem refuses_checkStatement : ∀ s : Statement, FailsWith Fault.Refuses (sc.checkStatement s)
  | ⟨command, args, blocks, position⟩ => by
    rw [checkStatement]
    exact (sc.refuses_checkHead _ _ _).bind fun _ => refuses_checkBlocks blocks

theorem refuses_checkBlocks :
    ∀ blocks : List (List Statement), FailsWith Fault.Refuses (sc.checkBlocks blocks)
  | [] => failsWith_ok _
  | b :: rest => by
    rw [checkBlocks]
    exact (refuses_checkBlock b).bind fun _ => refuses_checkBlocks rest

theorem refuses_checkBlock :
    ∀ b : List Statement, FailsWith Fault.Refuses (sc.checkBlock b)
  | [] => failsWith_ok _
  | s :: rest => by
    rw [checkBlock]
    exact (refuses_checkStatement s).bind fun _ => refuses_checkBlock rest

end

end Scope

open Swarm.Except (FailsWith failsWith_ok failsWith_error) in
theorem ProcedureDef.refuses_checkNames (procedures : List ProcedureDef) :
    ∀ taken, FailsWith Fault.Refuses (checkNames taken procedures) := by
  induction procedures with
  | nil => exact fun _ => failsWith_ok _
  | cons p rest ih =>
    intro taken
    rw [checkNames]
    by_cases hname : taken.contains (Text.toLower p.name)
    · simp only [hname, if_true]
      exact failsWith_error (.rule (by simp))
    by_cases hlocals : p.locals < p.inputs
    · simp only [hname, hlocals, if_true, if_false, Bool.false_eq_true]
      exact failsWith_error (.rule (by simp))
    · simp only [hname, hlocals, if_false, Bool.false_eq_true]
      exact ih _

theorem ProgramDef.refuses_check (d : ProgramDef) (w : World) (forgiving : Bool) :
    Except.FailsWith Fault.Refuses (d.check w forgiving) := by
  have hbodies (procedures : List ProcedureDef) : Except.FailsWith Fault.Refuses
      (procedures.forM fun p => (d.scope w forgiving p).checkBlock p.body) := by
    induction procedures with
    | nil => exact Except.failsWith_ok _
    | cons p rest ih => exact ((d.scope w forgiving p).refuses_checkBlock p.body).bind fun _ => ih
  exact (ProcedureDef.refuses_checkNames d.procedures []).bind fun _ => hbodies d.procedures

end Swarm
