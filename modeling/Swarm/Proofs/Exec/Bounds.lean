import Swarm.Proofs.Astray
import Swarm.Proofs.Exec.Enclosure
import Swarm.Proofs.Exec.Steering

/-!
# Agents stay inside the code

Verification looks at each instruction by itself: every place that it names is in the procedure, and
its callee is in the program. So wherever a jump goes, the agent is still in the procedure it runs.
A call remembers a place of the caller, which lies in the caller's procedure as long as the frame
below belongs to the caller; and a nested job gives the frames back as they were, but for locals.
Hence the place of an agent and the places that its calls return to are always in the code, in
nested jobs too, and no run loses its place.

## Main definitions

* `Program.Has`: a place of the code
* `Cursor.Anchored`, `Cursor.Inside`: places to return to, and the place to go on, are in the code
* `Exec.Sure`, `Exec.Orderly`: computations that lose no place, and leave the running call as it is
* `Exec.Contained`: how a computation ends that stays inside the code

## Main results

* `Exec.contained_execute`: across an instruction
* `Exec.contained_toCompletion`, `Exec.contained_untilSwitch`: across runs and turns
-/

namespace Swarm

/-- The program has a procedure at `index`, and the procedure an instruction at `ip`. -/
def Program.Has (program : Program) (index ip : Nat) : Prop :=
  ∃ q, program.procedures[index]? = some q ∧ ip < q.code.size

theorem Program.Has.instruction {program : Program} {index ip : Nat} (h : program.Has index ip) :
    ∃ q i, program.procedures[index]? = some q ∧ i ∈ q.code
      ∧ program.instruction index ip = .ok i := by
  obtain ⟨q, hq, hip⟩ := h
  refine ⟨q, q.code[ip], hq, Array.getElem_mem hip, ?_⟩
  have hprocedure : program.procedure index = .ok q := by
    rw [Program.procedure, hq]
  exact Program.instruction_eq_ok hprocedure (Array.getElem?_eq_getElem hip)

/-- Each frame returns into the code of the one below. -/
def FramesReturn (program : Program) : List Frame → Prop
  | f :: g :: below => program.Has g.procedure f.returnIp ∧ FramesReturn program (g :: below)
  | _ => True

theorem FramesReturn.tail {program : Program} {f : Frame} {below : List Frame}
    (h : FramesReturn program (f :: below)) : FramesReturn program below := by
  cases below with
  | nil => trivial
  | cons g below => exact h.2

/-- The locals of the frame on top do not matter. -/
theorem FramesReturn.of_topLike {program : Program} {fs gs : List Frame}
    (h : FramesReturn program fs) (like : TopLike fs gs) : FramesReturn program gs := by
  cases fs with
  | nil =>
    cases gs with
    | nil => exact h
    | cons g below => exact like.elim
  | cons f below =>
    cases gs with
    | nil => exact like.elim
    | cons g below' =>
      obtain ⟨hlike, rfl⟩ := like
      cases below' with
      | nil => trivial
      | cons f' below => exact ⟨hlike.returnIp ▸ h.1, h.2⟩

/-- Pending work whose calls return into the code and not past the base. -/
structure Cursor.Anchored (program : Program) (c : Cursor) : Prop where
  returns : FramesReturn program c.frames.frames
  base_pos : 0 < c.baseDepth
  base_le : c.baseDepth ≤ c.frames.depth

/-- Pending work that goes on at a place of the code. -/
structure Cursor.Inside (program : Program) (c : Cursor) : Prop extends c.Anchored program where
  ip : program.Has c.frames.top.procedure c.ip

namespace Exec

variable {α β : Type}

/-- The computation raises no fault of an agent that lost its place. -/
def Sure (x : Exec α) : Prop :=
  ∀ m f m', x m = .error (.fault f) m' → f.isAstray = false

/-- From `m`, a computation ended with the running call as it was, and did not lose its place. -/
structure Orderly (m : Machine) (r : Ending α) : Prop where
  steady : Steady m (final r)
  sure : ∀ f m', r = .error (.fault f) m' → f.isAstray = false

/-- A computation ended inside the code, or it failed but did not lose its place. -/
def Contained (program : Program) : Ending α → Prop
  | .ok _ m => m.context.Inside program
  | .error (.fault f) _ => f.isAstray = false
  | .error .exhausted _ => True

variable {program : Program} {env : Environment} {run : Exec Unit} {i : Instruction}
  {m m' : Machine}

theorem anchored_of_steady (h : m.context.Anchored program) (steady : Steady m m') :
    m'.context.Anchored program where
  returns := h.returns.of_topLike steady.frames
  base_pos := steady.baseDepth.symm ▸ h.base_pos
  base_le := by rw [steady.baseDepth, steady.depth]; exact h.base_le

-- ════════════════════════════════════════════════════════════════════════
-- Computations that lose no place
-- ════════════════════════════════════════════════════════════════════════

/-- Primitives lead nobody astray. -/
theorem sure_of_plain {x : Exec α} (h : Plain x) : Sure x :=
  h.mono fun _ => Fault.Plain.isAstray_eq_false

theorem sure_ofExcept {x : Except Fault α} (h : Except.Plain x) : Sure (ofExcept x) :=
  sure_of_plain (failsWith_ofExcept h)

theorem sure_evaluateAt (env : Environment) (args : List Expr) (index : Nat) :
    Sure (evaluateAt env args index) :=
  failsWith_iff.2 (stopsWith_evaluateAt (fun _ => Fault.Plain.isAstray_eq_false)
    (fun v _ _ _ => v.isAstray_bind _ _) env args index)

theorem sure_layoutSpring (env : Environment) (args : List Expr) (token : String) :
    Sure (Tree.layoutSpring env args token) :=
  failsWith_iff.2 (stopsWith_layoutSpring (fun _ => Fault.Plain.isAstray_eq_false)
    (fun v _ _ _ => v.isAstray_bind _ _) env args token)

/-- A call of a procedure that the program has. -/
theorem sure_call {index : Nat} {q : Procedure} (hq : env.program.procedures[index]? = some q) :
    Sure (call env i index) := by
  have hprocedure : env.program.procedure index = .ok q := by
    rw [Program.procedure, hq]
  rw [call, hprocedure, ofExcept_ok, pure_bind]
  apply FailsWith.bind
  · exact failsWith_iff.2 (stopsWith_fillInputs (fun _ => Fault.Plain.isAstray_eq_false)
      (fun v _ _ _ => v.isAstray_bind _ _) env i.args 0 _)
  · intro frame
    exact failsWith_context fun c => FailsWith.bind (sure_ofExcept (c.frames.plain_push frame))
      fun _ => failsWith_modify _

-- ════════════════════════════════════════════════════════════════════════
-- Computations that leave the running call as it is
-- ════════════════════════════════════════════════════════════════════════

theorem orderly_of_blind {x : Exec α} (blind : Blind x) (sure : Sure x) (m : Machine) :
    Orderly m (x m) :=
  ⟨blind.steady m, sure m⟩

theorem Orderly.bind {x : Exec α} {g : α → Exec β} (hx : Orderly m (x m))
    (hg : ∀ a m', Steady m m' → Orderly m' (g a m')) : Orderly m ((x >>= g) m) := by
  obtain ⟨hsteady, hsure⟩ := hx
  rw [bind_apply]
  cases hr : x m with
  | ok a m₁ =>
    rw [hr] at hsteady
    have hrest := hg a m₁ hsteady
    exact ⟨hsteady.trans hrest.steady, hrest.sure⟩
  | error e m₁ =>
    rw [hr] at hsteady hsure
    refine ⟨hsteady, fun f m' h => ?_⟩
    cases h
    exact hsure f _ rfl

theorem HandsBack.steady (h : HandsBack m m') : Steady m m' := by
  refine ⟨h.frames, ?_, ?_⟩
  · rw [h.context]
  · rw [h.context]

/-- A run that starts inside the code stays there, and gives back what it borrowed. -/
structure ContainedRun (program : Program) (run : Exec Unit) : Prop where
  contained : ∀ {m : Machine}, m.context.Inside program → Contained program (run m)
  framed : Keeps Framed run
  seated : Keeps SameSeat run

section Nested

variable (hrun : ContainedRun program run) {entry : Nat}
include hrun

theorem orderly_runAgent (hm : m.context.Anchored program)
    (he : program.Has m.context.procedure entry) (stream : StreamRef) (a : AgentRef) :
    Orderly m (runAgent run entry stream a m) := by
  have hback := handsBack_runAgent hrun.framed hrun.seated entry stream a m
  refine ⟨hback.steady, fun f m' h => ?_⟩
  have hinside : (enterAgent a entry stream m).context.Inside program :=
    ⟨⟨hm.returns, m.context.frames.depth_pos, Nat.le_refl _⟩, he⟩
  have hcontained := hrun.contained hinside
  rw [runAgent_eq, within] at h
  rcases hr : run (enterAgent a entry stream m) with ⟨_, k⟩ | ⟨⟨g⟩ | _, k⟩ <;>
    rw [hr] at h hcontained <;> cases h
  exact hcontained

theorem orderly_runAgents (stream : StreamRef) (agents : List AgentRef) :
    ∀ {m : Machine}, m.context.Anchored program → program.Has m.context.procedure entry →
      Orderly m (runAgents run entry stream agents m) := by
  induction agents with
  | nil => exact fun {m} _ _ => ⟨.refl m, fun _ _ h => by cases h⟩
  | cons a rest ih =>
    intro m hm he
    rw [runAgents_cons]
    split
    · refine (orderly_runAgent hrun hm he stream a).bind fun _ m' hsteady => ?_
      exact ih (anchored_of_steady hm hsteady) (hsteady.procedure.symm ▸ he)
    · exact ih hm he

theorem orderly_runExclusive (hm : m.context.Anchored program)
    (he : program.Has m.context.procedure entry) (env : Environment) (s : AgentSet)
    (stream : StreamRef) : Orderly m (runExclusive env run s entry stream m) := by
  refine ⟨(handsBack_runExclusive hrun.framed hrun.seated env s entry stream m).steady, ?_⟩
  intro f m' h
  rw [runExclusive_eq] at h
  split at h
  · cases h
    rfl
  · simp only [bind_apply, drawFrom, Draw.ofStream, within] at h
    have hagents := orderly_runAgents hrun stream (s.visitOrder (m.streams.get stream)).1
      (m := enterNested { m with
        streams := m.streams.set stream (s.visitOrder (m.streams.get stream)).2 }) hm he
    revert h hagents
    generalize runAgents run entry stream _ _ = r
    intro h hagents
    cases r with
    | ok _ k => cases h
    | error e k =>
      cases h
      exact hagents.sure f _ rfl

theorem orderly_ask (hm : m.context.Anchored program)
    (he : program.Has m.context.procedure entry) (env : Environment) (token : String) (v : Value) :
    Orderly m (Tree.ask env run entry token v m) := by
  rw [Tree.ask_eq, get_bind]
  refine (orderly_of_blind (blind_ofExcept _)
    (sure_ofExcept (Argument.plain_asked m.world token v)) m).bind fun s m' hsteady => ?_
  exact orderly_runExclusive hrun (anchored_of_steady hm hsteady)
    (hsteady.procedure.symm ▸ he) env s _

theorem orderly_createTurtles (hm : m.context.Anchored program)
    (he : program.Has m.context.procedure entry) (env : Environment) (token : String) (v : Value) :
    Orderly m (Tree.createTurtles env run entry token v m) := by
  rw [Tree.createTurtles_eq, context_bind]
  refine (orderly_of_blind (blind_ofExcept _)
    (sure_ofExcept (Argument.plain_births m.context.agent.kind token v)) m).bind
      fun count m₁ h₁ => ?_
  refine (orderly_of_blind (blind_spawn count) (fun _ _ _ h => by cases h) m₁).bind
    fun created m₂ h₂ => ?_
  have hsteady := h₁.trans h₂
  exact orderly_runExclusive hrun (anchored_of_steady hm hsteady)
    (hsteady.procedure.symm ▸ he) env created _

theorem orderly_withLocalRandomness (hm : m.context.Anchored program)
    (he : program.Has m.context.procedure entry) (env : Environment) :
    Orderly m (Tree.withLocalRandomness env run entry m) := by
  rw [Tree.withLocalRandomness, context_bind, withStreamCopy_eq, within]
  have hblock := orderly_runExclusive hrun (m := enterCopy m) hm he env
    (.ofAgent m.context.agent) ⟨m.streams.store.size⟩
  revert hblock
  generalize runExclusive env run _ entry _ _ = r
  intro hblock
  refine ⟨?_, fun f m' h => ?_⟩
  · rw [final_settle]
    exact ⟨hblock.steady.frames, hblock.steady.baseDepth, hblock.steady.finished⟩
  · cases r with
    | ok _ k => cases h
    | error e k =>
      cases h
      exact hblock.sure f _ rfl

theorem orderly_carefully (hm : m.context.Anchored program)
    (he : program.Has m.context.procedure entry) (env : Environment) :
    Orderly m (Tree.carefully env run entry m) := by
  rw [Tree.carefully, context_bind, Tree.caught_apply]
  have hblock := orderly_runExclusive hrun hm he env (.ofAgent m.context.agent) m.context.stream
  revert hblock
  generalize runExclusive env run _ entry _ _ = r
  intro hblock
  rcases r with ⟨_, k⟩ | ⟨⟨g⟩ | _, k⟩
  · exact ⟨hblock.steady, fun f m' h => by cases h⟩
  · rw [Tree.caughtEnding]
    split
    · exact ⟨⟨hblock.steady.frames, hblock.steady.baseDepth, hblock.steady.finished⟩,
        fun f m' h => by cases h⟩
    · exact ⟨hblock.steady, fun f m' h => by cases h; exact hblock.sure _ _ rfl⟩
  · exact ⟨hblock.steady, fun f m' h => by cases h⟩

end Nested

-- ════════════════════════════════════════════════════════════════════════
-- Instructions
-- ════════════════════════════════════════════════════════════════════════

theorem Contained.mapFault {change : Machine → Fault → Fault} {x : Exec α}
    (h : Contained program (x m))
    (hc : ∀ k f, f.isAstray = false → (change k f).isAstray = false) :
    Contained program (mapFault change x m) := by
  rw [Exec.mapFault]
  rcases hr : x m with ⟨a, m₁⟩ | ⟨⟨f⟩ | _, m₁⟩ <;> rw [hr] at h
  · exact h
  · exact hc m₁ f h
  · trivial

/-- A jump to a place of the running procedure, after an orderly effect. -/
theorem contained_move {x : Exec α} {target : α → Nat} (hm : m.context.Anchored program)
    (hx : Orderly m (x m)) (ht : ∀ a, program.Has m.context.procedure (target a)) :
    Contained program ((x >>= fun a => goto (target a)) m) := by
  obtain ⟨hsteady, hsure⟩ := hx
  rw [bind_apply]
  rcases hr : x m with ⟨a, m₁⟩ | ⟨⟨f⟩ | _, m₁⟩
  · rw [hr] at hsteady
    have hplace : program.Has m₁.context.procedure (target a) := hsteady.procedure.symm ▸ ht a
    exact { anchored_of_steady hm hsteady with ip := hplace }
  · exact hsure f m₁ hr
  · trivial

/-- A jump to a place of the running procedure, after an effect that leaves the agent alone. -/
theorem contained_of_blind {x : Exec α} {target : α → Nat} (hm : m.context.Anchored program)
    (blind : Blind x) (sure : Sure x) (ht : ∀ a, program.Has m.context.procedure (target a)) :
    Contained program ((x >>= fun a => goto (target a)) m) :=
  contained_move hm (orderly_of_blind blind sure m) ht

/-- A return leads into the code of the frame below, or ends the agent's block. -/
theorem contained_leave (hm : m.context.Inside program) : Contained program (leave m) := by
  rw [leave, context_bind]
  split
  · exact { hm with }
  · next base =>
    have hlt : m.context.baseDepth < m.context.frames.depth := by
      simpa [Context.atBase] using base
    -- above the base there is a frame to return to
    have hpos := hm.base_pos
    obtain ⟨f, frames, hpop⟩ := CallStack.pop_of_one_lt (s := m.context.frames) (by omega)
    have hframes := (CallStack.frames_of_pop hpop).1
    have hdepth := CallStack.depth_of_pop hpop
    have hreturns : FramesReturn program (f :: frames.frames) := hframes ▸ hm.returns
    have hle : m.context.baseDepth ≤ frames.depth := by omega
    rw [hpop]
    exact ⟨⟨hreturns.tail, hpos, hle⟩, hreturns.1⟩

/-- A call leads to the start of its callee, and remembers a place of the caller. -/
theorem contained_call (verified : env.program.verify = .ok ())
    (hm : m.context.Anchored env.program) {index : Nat}
    (callee : index < env.program.procedures.size)
    (hnext : env.program.Has m.context.procedure i.next) :
    Contained env.program (call env i index m) := by
  have hq : env.program.procedures[index]? = some env.program.procedures[index] :=
    Array.getElem?_eq_getElem callee
  rcases hr : call env i index m with ⟨_, m₁⟩ | ⟨⟨f⟩ | _, m₁⟩
  · obtain ⟨hprocedure, hreturn, hbelow, hbase, _, hip⟩ := Tree.entered_of_call hr
    have hdepth : m₁.context.frames.depth = m.context.frames.depth + 1 := by
      rw [m₁.context.frames.depth_eq, hbelow.length_eq, CallStack.length_frames]
    refine ⟨⟨?_, hbase ▸ hm.base_pos, ?_⟩, ?_⟩
    · -- the frame of the call is on top of the caller's, which is still that of its procedure
      have hreturns := hm.returns.of_topLike hbelow
      rw [CallStack.frames]
      cases hb : m₁.context.frames.below with
      | nil => trivial
      | cons g below =>
        rw [hb] at hbelow hreturns
        have hcaller : g.procedure = m.context.procedure := hbelow.1.procedure
        exact ⟨by rw [hcaller, hreturn]; exact hnext, hreturns⟩
    · rw [hbase, hdepth]
      exact Nat.le_succ_of_le hm.base_le
    · have hproc : m₁.context.frames.top.procedure = index := hprocedure
      rw [hproc, hip]
      exact ⟨_, hq, (Program.inside_of_verify verified hq).1⟩
  · exact sure_call hq m f m₁ hr
  · trivial

theorem contained_die (hm : m.context.Inside program) : Contained program (die m) := by
  rcases hr : die m with ⟨_, m₁⟩ | ⟨⟨f⟩ | _, m₁⟩
  · rw [die, get_bind] at hr
    cases hmortal : m.world.mortal m.context.agent with
    | error e =>
      rw [hmortal] at hr
      cases hr
    | ok _ =>
      rw [hmortal] at hr
      cases hr
      exact { hm with }
  · exact sure_of_plain clean_die.plain m f m₁ hr
  · trivial

section Instructions

variable {q : Procedure} (hq : env.program.procedures[m.context.procedure]? = some q)
  (hi : i.Inside env.program.procedures.size q.code.size)
include hq hi

theorem has_next (ht : i.command.isTerminal = false) :
    env.program.Has m.context.procedure i.next :=
  ⟨q, hq, hi.next ht⟩

theorem has_offset (ho : i.hasOffset = true) : env.program.Has m.context.procedure i.offset :=
  ⟨q, hq, hi.offset ho⟩

theorem has_alternate (ha : i.hasAlternate = true) :
    env.program.Has m.context.procedure i.alternate :=
  ⟨q, hq, hi.alternate ha⟩

theorem has_of_names {place : Nat} (names : i.Names place) :
    env.program.Has m.context.procedure place := by
  cases names with
  | next ordinary => exact has_next hq hi ordinary
  | offset used => exact has_offset hq hi used
  | alternate used => exact has_alternate hq hi used

/-- A command that moves on leads to a place in the code. -/
theorem contained_of_steers (hm : m.context.Anchored env.program) {x : Exec Unit}
    (steers : Steers i x) : Contained env.program (x m) := by
  cases steers with
  | moves blind clean names =>
    exact contained_of_blind hm blind (sure_of_plain clean.plain) fun a => has_of_names hq hi (names a)
  | refuses _ => rfl

variable (hrun : ContainedRun env.program run)
include hrun

theorem contained_performUnary (hm : m.context.Anchored env.program) (v : Value) :
    Contained env.program (performUnary env run i v m) := by
  cases hc : i.command with
  | ask =>
    have hentry := has_next hq hi (by rw [hc]; rfl)
    simp only [performUnary, hc]
    rw [ask_goto]
    exact contained_move hm (orderly_ask hrun hm hentry env _ v)
      fun _ => has_offset hq hi (by simp [Instruction.hasOffset, hc, Command.blocks])
  | createTurtles =>
    have hentry := has_next hq hi (by rw [hc]; rfl)
    simp only [performUnary, hc]
    rw [createTurtles_goto]
    exact contained_move hm (orderly_createTurtles hrun hm hentry env _ v)
      fun _ => has_offset hq hi (by simp [Instruction.hasOffset, hc, Command.blocks])
  | _ =>
    exact contained_of_steers hq hi hm
      (steers_performUnary env run (by simp [hc]) (by simp [hc]) v)

theorem contained_perform (verified : env.program.verify = .ok ())
    (hm : m.context.Inside env.program) : Contained env.program (perform env run i m) := by
  have hanchored := hm.toAnchored
  rw [perform]
  by_cases hu : i.command.isUnary
  · rw [if_pos hu]
    have hargument := orderly_of_blind (blind_evaluateAt env i.args 0)
      (sure_evaluateAt env i.args 0) m
    rw [bind_apply]
    rcases hr : evaluateAt env i.args 0 m with ⟨v, m₁⟩ | ⟨⟨f⟩ | _, m₁⟩ <;> rw [hr] at hargument
    · have hsteady : Steady m m₁ := hargument.steady
      exact contained_performUnary (hsteady.procedure.symm ▸ hq) hi hrun
        (anchored_of_steady hanchored hsteady) v
    · exact hargument.sure f m₁ rfl
    · trivial
  rw [if_neg hu]
  cases hc : i.command with
  | withLocalRandomness =>
    have hentry := has_next hq hi (by rw [hc]; rfl)
    show Contained env.program (withLocalRandomness env run i m)
    rw [withLocalRandomness_goto]
    exact contained_move hanchored (orderly_withLocalRandomness hrun hanchored hentry env)
      fun _ => has_offset hq hi (by simp [Instruction.hasOffset, hc, Command.blocks])
  | carefully =>
    have hentry := has_next hq hi (by rw [hc]; rfl)
    show Contained env.program (carefully env run i m)
    rw [carefully_goto]
    refine contained_move hanchored (orderly_carefully hrun hanchored hentry env)
      fun caught => ?_
    cases caught with
    | true => exact has_alternate hq hi (by simp [Instruction.hasAlternate, hc])
    | false => exact has_offset hq hi (by simp [Instruction.hasOffset, hc, Command.blocks])
  | call name index =>
    exact contained_call verified hanchored (hi.callee name index hc)
      (has_next hq hi (by rw [hc]; rfl))
  | stop => exact contained_leave hm
  | ret => exact contained_leave hm
  | die => exact contained_die hm
  | layoutSpring =>
    show Contained env.program (layoutSpring env i m)
    rw [layoutSpring_goto]
    exact contained_of_blind hanchored (Tree.blind_layoutSpring env _ _)
      (sure_layoutSpring env _ _) fun _ => has_next hq hi (by rw [hc]; rfl)
  | goto => exact contained_of_steers hq hi hanchored (steers_goto hc)
  | repeatCheck slot => exact contained_of_steers hq hi hanchored (steers_countDown hc)
  | done => exact { hm with }
  | _ => rfl

/-- An instruction of a verified program leaves the agent inside the code. -/
theorem contained_execute (verified : env.program.verify = .ok ())
    (hm : m.context.Inside env.program) : Contained env.program (execute env run i m) := by
  refine Contained.mapFault ?_ fun k f hf => View.isAstray_bind _ _ _ hf
  cases i.known with
  | some v => exact contained_performUnary hq hi hrun hm.toAnchored v
  | none => exact contained_perform hq hi hrun verified hm

end Instructions

-- ════════════════════════════════════════════════════════════════════════
-- Runs
-- ════════════════════════════════════════════════════════════════════════

/-- Inside the code there is an instruction to go on with; it and what comes after it stay
inside. -/
theorem contained_step (verified : env.program.verify = .ok ())
    (hrun : ContainedRun env.program run) (hm : m.context.Inside env.program)
    {rest : Instruction → Exec Unit}
    (hrest : ∀ i m', m'.context.Inside env.program → Contained env.program (rest i m')) :
    Contained env.program
      ((fetch env >>= fun i => execute env run i >>= fun _ => rest i) m) := by
  obtain ⟨q, i, hq, hi, hinstruction⟩ := hm.ip.instruction
  cases halted : m.halt.isRaised with
  | true =>
    rw [bind_of_error (fetch_of_halted halted)]
    rfl
  | false =>
    rw [bind_of_ok (fetch_of_fetched halted hinstruction), bind_apply]
    have hexecute := contained_execute hq ((Program.inside_of_verify verified hq).2 i hi) hrun
      verified (m := m.haltRead) hm
    rcases hr : execute env run i m.haltRead with ⟨_, m₁⟩ | ⟨⟨f⟩ | _, m₁⟩ <;> rw [hr] at hexecute
    · exact hrest i m₁ hexecute
    · exact hexecute
    · trivial

/-- A run to the end of a block stays inside the code. -/
theorem contained_toCompletion (verified : env.program.verify = .ok ()) (fuel : Nat) :
    ContainedRun env.program (toCompletion env fuel) := by
  have framed := framed_effects.toCompletion env
  have seated := sameSeat_effects.toCompletion env
  induction fuel with
  | zero =>
    refine ⟨fun {m} hm => ?_, framed 0, seated 0⟩
    rw [toCompletion, context_bind]
    split
    · exact hm
    · trivial
  | succ fuel ih =>
    refine ⟨fun {m} hm => ?_, framed (fuel + 1), seated (fuel + 1)⟩
    cases hfinished : m.context.finished with
    | true =>
      rw [toCompletion, context_bind, hfinished]
      exact hm
    | false =>
      rw [toCompletion_of_running hfinished]
      exact contained_step verified ih hm fun _ _ h => ih.contained h

theorem contained_endTurn (hm : m.context.Inside env.program) :
    Contained env.program (endTurn env m) := by
  obtain ⟨q, i, _, _, hinstruction⟩ := hm.ip.instruction
  have hplace : env.program.instruction m.context.procedure m.context.ip = .ok i := hinstruction
  have hterminal : ∃ ended, atTerminal env m = .ok ended m := by
    rw [atTerminal, context_bind, hplace, ofExcept_ok, pure_bind]
    cases i.command <;> exact ⟨_, rfl⟩
  obtain ⟨ended, hended⟩ := hterminal
  rw [endTurn, bind_of_ok hended]
  exact { hm with }

/-- A turn stays inside the code. -/
theorem contained_untilSwitch (verified : env.program.verify = .ok ()) (fuel : Nat) :
    ∀ {m : Machine}, m.context.Inside env.program →
      Contained env.program (untilSwitch env fuel m) := by
  induction fuel with
  | zero => exact fun _ => trivial
  | succ fuel ih =>
    intro m hm
    rw [untilSwitch_succ]
    refine contained_step verified (contained_toCompletion verified fuel) hm fun i m' hm' => ?_
    cases hfinished : m'.context.finished with
    | true =>
      rw [restOfTurn, context_bind, hfinished]
      exact hm'
    | false =>
      rw [restOfTurn_of_running fuel i hfinished]
      split
      · exact contained_endTurn hm'
      · exact ih hm'

end Exec

end Swarm
