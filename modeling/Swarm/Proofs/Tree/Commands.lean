import Swarm.Proofs.Tree.Limits
import Swarm.Proofs.Tree.Semantics

/-!
# Instructions and the commands of trees

An instruction does what its command does in a tree, and then moves to a place that may depend on
what came of it. An argument that is known in advance has the value it would be evaluated to.

## Main definitions

* `Exec.argument`: the argument of an instruction, evaluated or known

## Main results

* `Exec.execute_of_unary`: instructions with one argument
* `Exec.approaches_argument`: a known argument is as good as an evaluated one
* `Tree.approaches_ask` and others: commands that run a block as a nested job
-/

namespace Swarm

namespace Tree

variable {env : Environment} {run : Exec Unit}

open Swarm.Exec

/-- To ask is to check whom, and to run the block as a nested job. -/
theorem ask_eq (entry : Nat) (token : String) (v : Value) :
    ask env run entry token v =
      ((get : Exec Machine) >>= fun m => ofExcept (Argument.asked m.world token v) >>= fun s =>
        runExclusive env run s entry m.context.stream) := by
  rw [ask]
  congr 1
  funext m
  cases v with
  | agent a =>
    cases alive : m.world.isAlive a with
    | false =>
      simp only [Argument.asked, alive]
      rfl
    | true =>
      simp only [Argument.asked, alive]
      rfl
  | _ => rfl

theorem createTurtles_eq (entry : Nat) (token : String) (v : Value) :
    createTurtles env run entry token v =
      (context >>= fun c => ofExcept (Argument.births c.agent.kind token v) >>= fun n =>
        spawn n >>= fun created => runExclusive env run created entry c.stream) := by
  rw [createTurtles]
  congr 1
  funext c
  rw [Argument.births]
  by_cases observer : c.agent.kind = .observer
  · rw [if_neg (not_not_intro observer), if_pos observer]
  · rw [if_pos observer, if_neg observer]
    rfl

end Tree

namespace Exec

variable {α β : Type}

/-- The argument of an instruction that has one. -/
def argument (env : Environment) (i : Instruction) : Exec Value :=
  match i.known with
  | some v => pure v
  | none => evaluateAt env i.args 0

/-- Moving to a place does not fail. -/
theorem mapFault_goto (change : Machine → Fault → Fault) (x : Exec α) (target : α → Nat) :
    mapFault change (x >>= fun a => goto (target a)) =
      (mapFault change x >>= fun a => goto (target a)) := by
  funext m
  rw [bind_apply, mapFault, mapFault, bind_apply]
  rcases x m with ⟨a, m'⟩ | ⟨⟨f⟩ | _, m'⟩ <;> rfl

theorem execute_of_unary {env : Environment} {run : Exec Unit} {i : Instruction}
    (h : i.command.isUnary = true) :
    execute env run i =
      Tree.located env i.command i.position (argument env i >>= performUnary env run i) := by
  unfold execute argument
  cases i.known with
  | some v =>
    rw [pure_bind]
    rfl
  | none =>
    rw [perform]
    simp only [h, if_true]
    rfl

/-- Instructions without a known argument. -/
theorem execute_of_known {env : Environment} {run : Exec Unit} {i : Instruction}
    (h : i.known = none) :
    execute env run i = Tree.located env i.command i.position (perform env run i) := by
  rw [execute]
  rw [h]
  rfl

/-- A unary instruction whose command moves after its effect. -/
theorem execute_of_performUnary {env : Environment} {run : Exec Unit} {i : Instruction}
    {effect : Value → Exec β} {target : β → Nat} (h : i.command.isUnary = true)
    (heffect : ∀ v, performUnary env run i v = (effect v >>= fun b => goto (target b))) :
    execute env run i =
      (Tree.located env i.command i.position (argument env i >>= effect) >>= fun b =>
        goto (target b)) := by
  rw [execute_of_unary h, Tree.located, Tree.located, ← mapFault_goto, bind_assoc]
  exact congrArg _ (congrArg _ (funext heffect))

/-- An instruction without a known argument whose command moves after its effect. -/
theorem execute_of_perform {env : Environment} {run : Exec Unit} {i : Instruction}
    {effect : Exec β} (target : β → Nat) (h : i.known = none)
    (heffect : perform env run i = (effect >>= fun b => goto (target b))) :
    execute env run i =
      (Tree.located env i.command i.position effect >>= fun b => goto (target b)) := by
  rw [execute_of_known h, Tree.located, Tree.located, ← mapFault_goto, heffect]

-- ════════════════════════════════════════════════════════════════════════
-- Commands as effects followed by moves
-- ════════════════════════════════════════════════════════════════════════

section Moves

variable {env : Environment} {run : Exec Unit} {i : Instruction}

theorem performUnary_setVariable {kind : AgentKind} {slot : Nat}
    (h : i.command = .setVariable kind slot) (v : Value) :
    performUnary env run i v =
      (Tree.write kind slot i.command.token v >>= fun _ => goto i.next) := by
  simp only [performUnary, h, Tree.write, bind_assoc]

theorem performUnary_letLocal {slot : Nat} (h : i.command = .letLocal slot) (v : Value) :
    performUnary env run i v = (setLocal slot v >>= fun _ => goto i.next) := by
  simp only [performUnary, h]

theorem performUnary_setLocal {slot : Nat} (h : i.command = .setLocal slot) (v : Value) :
    performUnary env run i v = (setLocal slot v >>= fun _ => goto i.next) := by
  simp only [performUnary, h]

theorem performUnary_print (h : i.command = .print) (v : Value) :
    performUnary env run i v = (notify (.output v.text) >>= fun _ => goto i.next) := by
  simp only [performUnary, h]

theorem branch_goto (v : Value) (otherwise : Nat) :
    branch i v otherwise =
      (ofExcept (Argument.boolean i.command.token v) >>= fun b =>
        goto (if b then i.next else otherwise)) := by
  rw [branch]
  congr 1
  funext b
  cases b <;> rfl

theorem performUnary_repeatTimes {slot : Nat} (h : i.command = .repeatTimes slot) (v : Value) :
    performUnary env run i v =
      (Tree.startCount slot i.command.token v >>= fun _ => goto i.next) := by
  simp only [performUnary, h, Tree.startCount, bind_assoc]

theorem countDown_goto (slot : Nat) :
    countDown i slot =
      (Tree.countPass Tree.unspent slot >>= fun b =>
        goto (if b then i.next else i.offset)) := by
  unfold countDown Tree.countPass
  simp only [bind_assoc]
  congr 1
  funext v
  congr 1
  funext left
  by_cases hl : left ≤ 0
  · simp [Tree.unspent, hl]
  · simp [Tree.unspent, hl]

theorem ask_goto (v : Value) :
    ask env run i v =
      (Tree.ask env run i.next i.command.token v >>= fun _ => goto i.offset) := by
  rw [ask_eq, Tree.ask_eq]
  simp only [bind_assoc]

theorem createTurtles_goto (v : Value) :
    createTurtles env run i v =
      (Tree.createTurtles env run i.next i.command.token v >>= fun _ => goto i.offset) := by
  rw [createTurtles_eq, Tree.createTurtles_eq]
  simp only [bind_assoc]

theorem withLocalRandomness_goto :
    withLocalRandomness env run i =
      (Tree.withLocalRandomness env run i.next >>= fun _ => goto i.offset) := by
  simp only [withLocalRandomness, Tree.withLocalRandomness, bind_assoc]

theorem carefully_goto :
    carefully env run i =
      (Tree.carefully env run i.next >>= fun caught =>
        goto (if caught then i.alternate else i.offset)) := by
  unfold carefully Tree.carefully Tree.caught
  simp only [bind_assoc]
  congr 1
  funext c
  congr 1
  funext r
  rcases r with ⟨⟨f⟩ | _⟩ | _
  · dsimp only
    split <;> rfl
  · rfl
  · rfl

theorem layoutSpring_goto :
    layoutSpring env i =
      (Tree.layoutSpring env i.args i.command.token >>= fun _ => goto i.next) := by
  simp only [layoutSpring, Tree.layoutSpring, bind_assoc]

end Moves

/-- A known argument has the value that it would be evaluated to, without a draw. -/
theorem evaluateAt_of_known {sc : Scope} {i : Instruction} (hfits : i.Fits sc) {v : Value}
    (hk : i.known = some v) (env : Environment) (m : Machine) :
    evaluateAt env i.args 0 m
      = .ok v { m with context := { m.context with lastReported := v } } := by
  obtain ⟨_, e, hargs, hconstant⟩ := hfits.known v hk
  obtain ⟨r, args, position⟩ := e
  have hr : r = .constant v := by
    cases r <;> simp_all [Expr.constant?]
  subst hr
  have hcheck : sc.checkExpr ⟨.constant v, args, position⟩ = .ok () :=
    Expr.checkExpr_of_mem hfits.exprs (by simp [hargs])
  obtain ⟨harity, _, _⟩ := Expr.checkExpr_eq_ok hcheck
  obtain rfl := List.length_eq_zero_iff.1 harity
  rw [hargs]
  show evaluate env ⟨.constant v, [], position⟩ m = _
  rw [evaluate_apply, Expr.report_nil]
  show EStateM.Result.ok v { m with
    streams := m.streams.set m.context.stream (m.streams.get m.context.stream)
    context := { m.context with lastReported := v } } = _
  rw [Streams.set_get_self]

/-- A known argument is as good as an evaluated one. -/
theorem approaches_argument {env : Environment} {sc : Scope} {i : Instruction} (hfits : i.Fits sc)
    {n : Nat} {m t : Machine} (h : m.core = t.core) :
    Approaches n (Calm m) (fun _ => argument env i m) (evaluateAt env i.args 0 t) := by
  rw [argument]
  cases hk : i.known with
  | none => exact .of_blind (blind_evaluateAt env i.args 0) h
  | some v =>
    rw [evaluateAt_of_known hfits hk]
    exact .of_alike (.ok v h) (.refl m)

theorem Approaches.located {env : Environment} {n : Nat} {Q : Machine → Prop} {m t : Machine}
    {X : Nat → Exec α} {y : Exec α} (c : Command) (position : Position)
    (h : Approaches n Q (fun j => X j m) (y t)) :
    Approaches n Q (fun j => Tree.located env c position (X j) m)
      (Tree.located env c position y t) := by
  refine h.mapFault fun {m t} hcore f => ?_
  show (m.core.view env).bind (c.describe m.core.world.variableName) position f
    = (t.core.view env).bind (c.describe t.core.world.variableName) position f
  rw [hcore]

end Exec

namespace Tree

open Swarm.Exec

variable {α : Type}

theorem blind_write (kind : AgentKind) (slot : Nat) (token : String) (v : Value) :
    Blind (write kind slot token v) :=
  blind_get (fun _ => rfl) fun _ => (blind_ofExcept _).bind fun _ => blind_writeVariable _ _ _

theorem blind_startCount (slot : Nat) (token : String) (v : Value) :
    Blind (startCount slot token v) :=
  (blind_ofExcept _).bind fun _ => blind_setLocal _ _

theorem blind_countPass (goesOn : Float → Bool) (slot : Nat) :
    Blind (countPass goesOn slot) := by
  refine (blind_getLocal slot).bind fun v => (blind_ofExcept _).bind fun left => ?_
  split
  · exact (blind_setLocal _ _).bind fun _ => blind_pure true
  · exact blind_pure false

theorem blind_layoutSpring (env : Environment) (args : List Expr) (token : String) :
    Blind (layoutSpring env args token) := by
  apply (blind_agentsetAt env args 0 token).bind
  intro nodes
  apply (blind_agentsetAt env args 1 token).bind
  intro links
  apply (blind_numberAt env args 2 token).bind
  intro constant
  apply (blind_numberAt env args 3 token).bind
  intro length
  apply (blind_numberAt env args 4 token).bind
  intro repulsion
  apply (blind_checkKind token nodes .turtle).bind
  intro _
  apply (blind_checkKind token links .link).bind
  intro _
  exact blind_relax nodes links ⟨constant, length, repulsion⟩
/-- An ending of which a runtime fault is caught. -/
def caughtEnding : Ending Unit → Ending Bool
  | .ok _ m => .ok false m
  | .error (.fault f) m =>
    if f.kind = .runtime then
      .ok true { m with context := { m.context with errorMessage := some f.message } }
    else .error (.fault f) m
  | .error .exhausted m => .error .exhausted m

theorem caught_apply (x : Exec Unit) (m : Machine) : caught x m = caughtEnding (x m) := by
  rw [caught, bind_apply, attempt]
  rcases x m with ⟨a, m'⟩ | ⟨⟨f⟩ | _, m'⟩
  · rfl
  · rw [caughtEnding]
    dsimp only
    split <;> rfl
  · rfl

theorem exhausted_caughtEnding (r : Ending Unit) : Exhausted (caughtEnding r) ↔ Exhausted r := by
  rcases r with ⟨a, m'⟩ | ⟨⟨f⟩ | _, m'⟩
  · rfl
  · rw [caughtEnding]
    dsimp only
    split <;> rfl
  · rfl

/-- Catching the faults of runs that are approached. -/
theorem approaches_caught {n : Nat} {m t : Machine} {X : Nat → Exec Unit} {y : Exec Unit}
    (h : Approaches n (Calm m) (fun j => X j m) (y t)) :
    Approaches n (Calm m) (fun j => caught (X j) m) (caught y t) := by
  simp only [caught_apply]
  refine h.map exhausted_caughtEnding exhausted_caughtEnding (fun r r' hr => ?_) fun r hr => ?_
  · rcases r' with ⟨a, t'⟩ | ⟨⟨f⟩ | _, t'⟩
    · obtain ⟨m', rfl, hcore⟩ := hr.ok_right
      exact .ok false hcore
    · obtain ⟨m', rfl, hcore⟩ := hr.error_right
      unfold caughtEnding
      dsimp only
      split
      · exact .ok true (congrArg (fun k : Machine => { k with
          context := { k.context with errorMessage := some f.message } }) hcore)
      · exact .error _ hcore
    · obtain ⟨m', rfl, hcore⟩ := hr.error_right
      exact .error _ hcore
  · rcases r with ⟨a, m'⟩ | ⟨⟨f⟩ | _, m'⟩
    · exact hr
    · rw [caughtEnding]
      dsimp only
      split
      · exact ⟨⟨hr.frames, hr.baseDepth, hr.finished⟩, hr.halt⟩
      · exact hr
    · exact hr

-- ════════════════════════════════════════════════════════════════════════
-- Commands that run a block as a nested job
-- ════════════════════════════════════════════════════════════════════════

section Nested

variable {env : Environment} {n procedure entry : Nat} {run : Exec Unit} {m t : Machine}
  (hrun : RunsAs env n procedure entry run) (h : m.core = t.core)
  (untouched : m.halt.upcoming = []) (hp : m.context.procedure = procedure)
include hrun h untouched hp

theorem approaches_ask (token : String) (v : Value) :
    Approaches n (Calm m) (fun j => ask env (toCompletion env j) entry token v m)
      (ask env run 0 token v t) := by
  have hworld : m.world = t.world := congrArg (fun k => k.world) h
  have hstream : m.context.stream = t.context.stream := congrArg (fun k => k.context.stream) h
  simp only [ask_eq, get_bind]
  rw [hworld, hstream]
  apply (Approaches.of_blind (blind_ofExcept _) h).bind
  intro s m₁ t₁ h₁ s₁
  exact approaches_runExclusive hrun h₁ (s₁.untouched untouched) (s₁.procedure.trans hp) s 0 _

theorem approaches_createTurtles (token : String) (v : Value) :
    Approaches n (Calm m) (fun j => createTurtles env (toCompletion env j) entry token v m)
      (createTurtles env run 0 token v t) := by
  have hagent : m.context.agent = t.context.agent := congrArg (fun k => k.context.agent) h
  have hstream : m.context.stream = t.context.stream := congrArg (fun k => k.context.stream) h
  simp only [createTurtles_eq, context_bind]
  rw [hagent, hstream]
  apply (Approaches.of_blind (blind_ofExcept _) h).bind
  intro count m₁ t₁ h₁ s₁
  apply (Approaches.of_blind (blind_spawn count) h₁).bind
  intro created m₂ t₂ h₂ s₂
  have hcalm := s₁.trans s₂
  exact approaches_runExclusive hrun h₂ (hcalm.untouched untouched) (hcalm.procedure.trans hp)
    created 0 _

theorem approaches_withLocalRandomness :
    Approaches n (Calm m) (fun j => withLocalRandomness env (toCompletion env j) entry m)
      (withLocalRandomness env run 0 t) := by
  have hagent : m.context.agent = t.context.agent := congrArg (fun k => k.context.agent) h
  simp only [withLocalRandomness, context_bind]
  rw [hagent]
  exact approaches_withStreamCopy hrun h untouched hp _ 0

theorem approaches_carefully :
    Approaches n (Calm m) (fun j => carefully env (toCompletion env j) entry m)
      (carefully env run 0 t) := by
  have hagent : m.context.agent = t.context.agent := congrArg (fun k => k.context.agent) h
  have hstream : m.context.stream = t.context.stream := congrArg (fun k => k.context.stream) h
  simp only [carefully, context_bind]
  rw [hagent, hstream]
  exact approaches_caught (approaches_runExclusive hrun h untouched hp _ 0 _)

end Nested

-- ════════════════════════════════════════════════════════════════════════
-- Calls and deaths
-- ════════════════════════════════════════════════════════════════════════

/-- The machine entered a call from `m` and will return to `next`. -/
structure Entered (index next : Nat) (m m' : Machine) : Prop where
  procedure : m'.context.procedure = index
  returnIp : m'.context.frames.top.returnIp = next
  below : TopLike m.context.frames.frames m'.context.frames.below
  baseDepth : m'.context.baseDepth = m.context.baseDepth
  finished : m'.context.finished = m.context.finished
  ip : m'.context.ip = 0
  halt : m.halt.Precedes m'.halt

/-- Filling the inputs of a frame looks at its core only, and keeps its procedure and the place to
return to. -/
theorem fillInputs_cases (env : Environment) (args : List Expr) :
    ∀ (slot : Nat) {f g : Frame} {m t : Machine}, f.core = g.core → m.core = t.core →
      (∃ f' g' m' t', fillInputs env slot args f m = .ok f' m'
        ∧ fillInputs env slot args g t = .ok g' t' ∧ f'.core = g'.core ∧ m'.core = t'.core
        ∧ f'.procedure = f.procedure ∧ f'.returnIp = f.returnIp ∧ Calm m m')
      ∨ ∃ e m' t', fillInputs env slot args f m = .error e m'
        ∧ fillInputs env slot args g t = .error e t' ∧ m'.core = t'.core := by
  induction args with
  | nil =>
    intro slot f g m t hf h
    exact .inl ⟨f, g, m, t, rfl, rfl, hf, h, rfl, rfl, .refl m⟩
  | cons a rest ih =>
    intro slot f g m t hf h
    have heval := (blind_evaluate env a).alike h
    have hcalm := (blind_evaluate env a).calm m
    cases ht : evaluate env a t with
    | error e t' =>
      rw [ht] at heval
      obtain ⟨m', hm, hcore⟩ := heval.error_right
      exact .inr ⟨e, m', t', bind_of_error hm, bind_of_error ht, hcore⟩
    | ok v t' =>
      rw [ht] at heval
      obtain ⟨m', hm, hcore⟩ := heval.ok_right
      rw [hm] at hcalm
      have hlocals : f.locals = g.locals := by
        show f.core.locals = g.core.locals
        rw [hf]
      simp only [fillInputs, bind_of_ok hm, bind_of_ok ht, Frame.set, hlocals]
      by_cases hslot : slot < g.locals.size
      · simp only [hslot, if_true]
        have hset : ({ f with locals := g.locals.modify slot fun _ => v } : Frame).core
            = ({ g with locals := g.locals.modify slot fun _ => v } : Frame).core :=
          congrArg (fun k : Frame => { k with locals := g.locals.modify slot fun _ => v }) hf
        rcases ih (slot + 1) hset hcore with
          ⟨f', g', m₂, t₂, hm₂, ht₂, hf', hcore₂, hprocedure, hreturn, hcalm₂⟩ | herror
        · exact .inl ⟨f', g', m₂, t₂, hm₂, ht₂, hf', hcore₂, hprocedure, hreturn,
            hcalm.trans hcalm₂⟩
        · exact .inr herror
      · simp only [hslot, if_false]
        exact .inr ⟨_, m', t', rfl, rfl, hcore⟩

/-- Entering a call looks at the core only. -/
theorem alike_call {env : Environment} {i : Instruction} {index : Nat} {q : Procedure}
    {m t : Machine} (h : m.core = t.core) (hq : env.program.procedure index = .ok q) :
    Alike (call env i index m) (enterCall env i.args (.fresh index q.locals 0) t) := by
  have hfresh : (Frame.fresh index q.locals i.next).core = (Frame.fresh index q.locals 0).core :=
    rfl
  rw [call, hq, ofExcept_ok, pure_bind, enterCall]
  rcases fillInputs_cases env i.args 0 hfresh h with
    ⟨f, g, m', t', hm, ht, hf, hcore, _⟩ | ⟨e, m', t', hm, ht, hcore⟩
  · have hframes : m'.context.frames.core = t'.context.frames.core :=
      congrArg (fun k => k.context.frames) hcore
    have hpush : (m'.context.frames.push f).map CallStack.core
        = (t'.context.frames.push g).map CallStack.core := by
      rw [← CallStack.push_core, ← CallStack.push_core, hf, hframes]
    rw [bind_of_ok hm, bind_of_ok ht, context_bind, context_bind]
    cases hs : m'.context.frames.push f with
    | error e =>
      cases hs' : t'.context.frames.push g with
      | error e' =>
        rw [hs, hs'] at hpush
        cases hpush
        exact .error _ hcore
      | ok s' =>
        rw [hs, hs'] at hpush
        cases hpush
    | ok s =>
      cases hs' : t'.context.frames.push g with
      | error e' =>
        rw [hs, hs'] at hpush
        cases hpush
      | ok s' =>
        rw [hs, hs'] at hpush
        have hstack : s.core = s'.core := Except.ok.inj hpush
        refine .ok () ?_
        show ({ m'.core with context := { m'.core.context with frames := s.core } } : Machine)
          = { t'.core with context := { t'.core.context with frames := s'.core } }
        rw [hcore, hstack]
  · rw [bind_of_error hm, bind_of_error ht]
    exact .error e hcore

/-- A call that is entered runs its procedure from the start on top of the caller's frames. -/
theorem entered_of_call {env : Environment} {i : Instruction} {index : Nat} {m m' : Machine}
    (h : call env i index m = .ok () m') : Entered index i.next m m' := by
  rw [call] at h
  cases hq : env.program.procedure index with
  | error e =>
    rw [hq] at h
    cases h
  | ok q =>
    rw [hq, ofExcept_ok, pure_bind] at h
    have hself : (Frame.fresh index q.locals i.next).core = (Frame.fresh index q.locals i.next).core :=
      rfl
    rcases fillInputs_cases env i.args 0 hself (rfl : m.core = m.core) with
      ⟨f, _, m₁, _, hm, _, _, _, hprocedure, hreturn, hcalm⟩ | ⟨e, m₁, _, hm, _⟩
    · rw [bind_of_ok hm, context_bind] at h
      cases hs : m₁.context.frames.push f with
      | error e =>
        rw [hs] at h
        cases h
      | ok s =>
        rw [hs] at h
        cases h
        obtain ⟨hframes, _, _⟩ := CallStack.frames_of_push hs
        obtain ⟨htop, hbelow⟩ := List.cons.inj hframes
        refine ⟨?_, ?_, ?_, hcalm.baseDepth, hcalm.finished, rfl, hcalm.halt⟩
        · show s.top.procedure = index
          rw [htop, hprocedure]
          rfl
        · show s.top.returnIp = i.next
          rw [htop, hreturn]
          rfl
        · show TopLike _ s.below
          rw [hbelow]
          exact hcalm.frames
    · rw [bind_of_error hm] at h
      cases h

/-- The machine of a caller after the callee was left. -/
theorem leave_of_entered {index next : Nat} {m m₁ m₂ t₂ : Machine} (hin : Entered index next m m₁)
    (hbase : m.context.baseDepth ≤ m.context.frames.depth) (hcalm : Calm m₁ m₂)
    (hcore : m₂.core = t₂.core) :
    ∃ m₃ t₃, leave m₂ = .ok () m₃ ∧ leaveCall t₂ = .ok () t₃ ∧ m₃.core = t₃.core ∧ Calm m m₃
      ∧ m₃.context.ip = next := by
  have hbelow : m₂.context.frames.below = m₁.context.frames.below := hcalm.below
  have hlen := hin.below.length_eq
  have hdepth : m₂.context.frames.depth = m.context.frames.depth + 1 := by
    rw [m₂.context.frames.depth_eq, hbelow, hlen, CallStack.length_frames]
  have hinside : m₂.context.atBase = false := by
    have hbase₂ := hcalm.baseDepth.trans hin.baseDepth
    simp only [Context.atBase, decide_eq_false_iff_not]
    omega
  obtain ⟨f, s, hpop⟩ := CallStack.pop_of_one_lt (s := m₂.context.frames) (by
    have := m.context.frames.depth_pos
    omega)
  obtain ⟨hframes, _⟩ := CallStack.frames_of_pop hpop
  obtain ⟨htop, hrest⟩ := List.cons.inj hframes
  -- the callee's frame knows the place to return to
  have hreturn : f.returnIp = next := by
    rw [← htop, hcalm.top.returnIp, hin.returnIp]
  have hcores : m₂.context.frames.core = t₂.context.frames.core :=
    congrArg (fun k => k.context.frames) hcore
  obtain ⟨g, s', hpop', hstack⟩ := CallStack.pop_of_core_eq hcores hpop
  refine ⟨{ m₂ with context := { m₂.context with frames := s, ip := f.returnIp } },
    { t₂ with context := { t₂.context with frames := s' } }, ?_, ?_, ?_, ?_, hreturn⟩
  · rw [leave, context_bind, hinside, hpop]
    rfl
  · rw [leaveCall, context_bind, hpop']
    rfl
  · show ({ m₂.core with context := { m₂.core.context with frames := s.core } } : Machine)
      = { t₂.core with context := { t₂.core.context with frames := s'.core } }
    rw [hcore, hstack]
  · refine ⟨⟨?_, hcalm.baseDepth.trans hin.baseDepth, hcalm.finished.trans hin.finished⟩,
      hin.halt.trans hcalm.halt⟩
    show TopLike m.context.frames.frames s.frames
    rw [← hrest, hbelow]
    exact hin.below

/-- Dying looks at the core only. -/
theorem alike_die {m t : Machine} (h : m.core = t.core) : Alike (die m) (die t) := by
  have hworld : m.world = t.world := congrArg (fun k => k.world) h
  have hagent : m.context.agent = t.context.agent := congrArg (fun k => k.context.agent) h
  rw [die, get_bind, get_bind, hworld, hagent]
  cases t.world.mortal t.context.agent with
  | error e => exact .error _ h
  | ok _ =>
    exact .ok () (congrArg (fun k : Machine => { k with
      world := k.world.remove k.context.agent
      context := { k.context with finished := true } }) h)

theorem finished_of_die {m m' : Machine} (h : die m = .ok () m') :
    m'.context.finished = true := by
  rw [die, get_bind] at h
  cases hm : m.world.mortal m.context.agent with
  | error e =>
    rw [hm] at h
    cases h
  | ok _ =>
    rw [hm] at h
    cases h
    rfl

end Tree

end Swarm
