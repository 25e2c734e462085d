import Swarm.Proofs.Exec.Safe

/-!
# Sound machines stay sound

An instruction of a sound program takes a sound machine to a sound machine. If it fails, it fails
in a way that may surface, and the machine is sound all the same. So do turns and whole runs.

## Main results

* `Exec.safe_execute`: across an instruction
* `Exec.safe_toCompletion`, `Exec.safe_untilSwitch`: across runs
-/

namespace Swarm.Exec

variable {forgiving : Bool} {slots : AgentKind → Nat} {env : Environment} {p : Nat}
  {q : Procedure} {i : Instruction}

/-- The computation stays in the running procedure, at the same place. -/
abbrev Stays (forgiving : Bool) (slots : AgentKind → Nat) (program : Program) (p : Nat)
    {α : Type} (x : Exec α) : Prop :=
  Safe forgiving (Machine.At slots program p) x (fun _ => Machine.At slots program p)
    (Machine.At slots program p)

/-- The computation leads on to an instruction, or ends the agent's block. -/
abbrev Leads (forgiving : Bool) (slots : AgentKind → Nat) (program : Program) (p : Nat)
    (x : Exec Unit) : Prop :=
  Safe forgiving (Machine.At slots program p) x (fun _ => Machine.Sound slots program)
    (Machine.At slots program p)

-- ════════════════════════════════════════════════════════════════════════
-- Arguments
-- ════════════════════════════════════════════════════════════════════════

/-- What the arguments of an instruction may rely on. -/
structure Readable (forgiving : Bool) (slots : AgentKind → Nat) (q : Procedure) (e : Expr) :
    Prop where
  checked : ∃ sc : Scope, sc.forgiving = forgiving ∧ sc.slots = slots
    ∧ sc.procedure.locals = q.locals ∧ sc.checkExpr e = .ok ()
  kinded : ∀ v ∈ e.constants, v.wellKinded = true

theorem readable_of_mem (hp : env.program.Sound forgiving slots)
    (hq : env.program.procedures[p]? = some q) (hi : i ∈ q.code) {e : Expr} (he : e ∈ i.args) :
    Readable forgiving slots q e := by
  obtain ⟨sc, hforgiving, hslots, hlocals, hfits⟩ := hp.fits hq i hi
  exact ⟨⟨sc, hforgiving, hslots, hlocals, Expr.checkExpr_of_mem hfits.exprs he⟩,
    fun v hv => hp.kinded hq i hi v (Expr.mem_constantsOf he hv)⟩

theorem view_sound (hq : env.program.procedures[p]? = some q) {m : Machine}
    (h : m.At slots env.program p) {sc : Scope} (hslots : sc.slots = slots)
    (hlocals : sc.procedure.locals = q.locals) : (m.view env).Sound sc := by
  obtain ⟨⟨q', hq', hsize⟩, hkinded⟩ := h.cursor.frames.head
  have hp : m.context.frames.top.procedure = p := h.procedure
  rw [hp, hq] at hq'
  cases hq'
  exact ⟨h.simulation.world, fun kind => hslots ▸ h.simulation.slots kind,
    hsize.trans hlocals.symm, hkinded⟩

theorem safe_evaluate (hq : env.program.procedures[p]? = some q) {e : Expr}
    (he : Readable forgiving slots q e) :
    Safe forgiving (Machine.At slots env.program p) (evaluate env e)
      (fun v m => v.wellKinded = true ∧ m.At slots env.program p)
      (Machine.At slots env.program p) := by
  intro m hm
  obtain ⟨⟨sc, hforgiving, hslots, hlocals, hcheck⟩, hkinded⟩ := he
  have hreport := Expr.report_yields (view_sound hq hm hslots hlocals) e hcheck hkinded
    (m.streams.get m.context.stream)
  rw [hforgiving] at hreport
  rw [evaluate_apply]
  cases hr : e.report (m.view env) (m.streams.get m.context.stream) with
  | ok v s =>
    rw [hr] at hreport
    exact ⟨hreport, hm.congr rfl rfl rfl rfl⟩
  | error f s =>
    rw [hr] at hreport
    exact ⟨hreport, hm.congr rfl rfl rfl rfl⟩

theorem safe_evaluateAt (hp : env.program.Sound forgiving slots)
    (hq : env.program.procedures[p]? = some q) (hi : i ∈ q.code) {index : Nat}
    (hindex : index < i.args.length) :
    Safe forgiving (Machine.At slots env.program p) (evaluateAt env i.args index)
      (fun v m => v.wellKinded = true ∧ m.At slots env.program p)
      (Machine.At slots env.program p) := by
  rw [evaluateAt]
  rw [List.getElem?_eq_getElem hindex]
  exact safe_evaluate hq (readable_of_mem hp hq hi (List.getElem_mem hindex))

theorem safe_numberAt (hp : env.program.Sound forgiving slots)
    (hq : env.program.procedures[p]? = some q) (hi : i ∈ q.code) {index : Nat}
    (hindex : index < i.args.length) (primitive : String) :
    Stays forgiving slots env.program p (numberAt env i.args index primitive) := by
  apply (safe_evaluateAt hp hq hi hindex).bind
  intro v
  exact (safe_ofExcept (Argument.yields_number primitive v)).mono (fun _ h => h.2)
    (fun _ _ h => h.2) fun _ h => h

theorem safe_agentsetAt (hp : env.program.Sound forgiving slots)
    (hq : env.program.procedures[p]? = some q) (hi : i ∈ q.code) {index : Nat}
    (hindex : index < i.args.length) (primitive : String) :
    Safe forgiving (Machine.At slots env.program p) (agentsetAt env i.args index primitive)
      (fun s m => s.WellKinded ∧ m.At slots env.program p) (Machine.At slots env.program p) := by
  apply (safe_evaluateAt hp hq hi hindex).bind
  intro v m hm
  exact safe_ofExcept (Argument.yields_agentset primitive hm.1) m hm.2

-- ════════════════════════════════════════════════════════════════════════
-- Jumps, locals and writes
-- ════════════════════════════════════════════════════════════════════════

/-- A jump inside the running procedure. -/
theorem safe_goto (hq : env.program.procedures[p]? = some q) {target : Nat}
    (ht : target < q.code.size) : Leads forgiving slots env.program p (goto target) := by
  refine safe_modifyContext fun m hm => ⟨hm.simulation, ?_⟩
  have hproc : m.context.frames.top.procedure = p := hm.procedure
  exact ⟨hm.cursor.frames, hm.cursor.base_pos, hm.cursor.base_le, q, hproc.symm ▸ hq, ht⟩

theorem safe_finish : Leads forgiving slots env.program p finish :=
  safe_modifyContext fun _ hm => ⟨hm.simulation, hm.cursor⟩

theorem safe_setLocal (hq : env.program.procedures[p]? = some q) {slot : Nat}
    (hs : slot < q.locals) {v : Value} (hv : v.wellKinded = true) :
    Stays forgiving slots env.program p (setLocal slot v) := by
  apply safe_context
  intro m hm
  obtain ⟨f, hf⟩ := Frame.set_of_lt (hm.size_locals hq ▸ hs) v
  obtain ⟨hprocedure, hreturn, hsize, _⟩ := Frame.eq_of_set hf
  rw [hf, ofExcept_ok, pure_bind]
  apply safe_modifyContext
  rintro _ rfl
  exact hm.setTop (hm.cursor.frames.head.set hv hf) ⟨hprocedure, hreturn, hsize⟩

theorem safe_getLocal (hq : env.program.procedures[p]? = some q) {slot : Nat}
    (hs : slot < q.locals) :
    Stays forgiving slots env.program p (getLocal slot) := by
  apply safe_context
  intro m hm
  have hget : Except.Yields forgiving _ (m.context.frames.top.get slot) :=
    Frame.yields_get (hm.size_locals hq ▸ hs) hm.cursor.frames.head.kinded
  exact (safe_check hm hget).mono (fun _ h => h) (fun _ _ h => h.2) fun _ h => h

theorem safe_writeVariable {a : AgentRef} {slot : Nat} {v : Value} (hs : slot < slots a.kind)
    (hv : v.wellKinded = true) :
    Stays forgiving slots env.program p (writeVariable a slot v) := by
  apply safe_get
  intro m hm
  have hslot : slot < (m.world.table a.kind).size := hm.simulation.slots a.kind ▸ hs
  have haccept : Except.Yields forgiving _ (m.world.accept a slot v) :=
    hm.simulation.world.accept hslot hv
  apply (safe_check hm haccept).bind
  intro stored
  refine (safe_modify (T := fun _ => Machine.At slots env.program p) fun m' h => ?_).bind
    fun _ => ?_
  · exact h.2.withWorld (h.2.simulation.world.store a slot h.1) rfl
  · exact safe_modify fun m' h => h.congr rfl rfl rfl rfl

-- ════════════════════════════════════════════════════════════════════════
-- Nested jobs
-- ════════════════════════════════════════════════════════════════════════

/-- A run that takes sound machines to sound machines, and keeps to its frames. -/
structure SafeRun (forgiving : Bool) (slots : AgentKind → Nat) (program : Program)
    (run : Exec Unit) : Prop where
  safe : Safe forgiving (Machine.Sound slots program) run (fun _ => Machine.Sound slots program)
    (Machine.Sound slots program)
  framed : Keeps Framed run

/-- The enclosing machine after an agent's run: it goes on in the same procedure. -/
theorem at_leaveAgent {m m' : Machine} (h : m.At slots env.program p)
    (hm' : m'.Sound slots env.program) {a : AgentRef} {entry : Nat} {stream : StreamRef}
    (hf : Framed (enterAgent a entry stream m) m') :
    (leaveAgent m m').At slots env.program p := by
  obtain ⟨htop, hdepth, _⟩ := frames_leaveAgent hf
  have hproc : (leaveAgent m m').context.frames.top.procedure
      = m.context.frames.top.procedure := htop.1.procedure
  refine ⟨⟨⟨hm'.simulation.world, hm'.simulation.slots⟩, ?_, h.cursor.base_pos, ?_, ?_⟩, ?_⟩
  · -- the frames that come back are the lowest of those the agent left
    have hframes := (CallStack.frames_unwindTo m'.context.frames
      m.context.frames.depth_pos).1
    show FramesSound env.program (m'.context.frames.unwindTo m.context.frames.depth).frames
    rw [hframes]
    exact hm'.cursor.frames.drop _
  · show m.context.baseDepth ≤ (leaveAgent m m').context.frames.depth
    rw [hdepth]
    exact h.cursor.base_le
  · obtain ⟨q', hq', hip⟩ := h.cursor.ip
    exact ⟨q', by rw [hproc]; exact hq', hip⟩
  · exact hproc.trans h.procedure

theorem safe_runAgent {run : Exec Unit} (hrun : SafeRun forgiving slots env.program run)
    (hq : env.program.procedures[p]? = some q) {entry : Nat} (he : entry < q.code.size)
    (stream : StreamRef) (a : AgentRef) :
    Stays forgiving slots env.program p (runAgent run entry stream a) := by
  intro m hm
  have hproc : m.context.frames.top.procedure = p := hm.procedure
  have henter : (enterAgent a entry stream m).Sound slots env.program :=
    ⟨hm.simulation, hm.cursor.frames, m.context.frames.depth_pos, Nat.le_refl _, q,
      hproc.symm ▸ hq, he⟩
  have hsafe := hrun.safe _ henter
  have hframed := hrun.framed (enterAgent a entry stream m)
  rw [runAgent_eq, within]
  rcases hr : run (enterAgent a entry stream m) with ⟨_, m'⟩ | ⟨⟨f⟩ | _, m'⟩ <;>
    rw [hr] at hsafe hframed
  · exact at_leaveAgent hm hsafe hframed
  · exact ⟨hsafe.1, at_leaveAgent hm hsafe.2 hframed⟩
  · exact at_leaveAgent hm hsafe hframed

theorem safe_runAgents {run : Exec Unit} (hrun : SafeRun forgiving slots env.program run)
    (hq : env.program.procedures[p]? = some q) {entry : Nat} (he : entry < q.code.size)
    (stream : StreamRef) (agents : List AgentRef) :
    Stays forgiving slots env.program p (runAgents run entry stream agents) := by
  induction agents with
  | nil => exact safe_pure fun _ h => h
  | cons a rest ih =>
    intro m hm
    rw [runAgents_cons]
    split
    · exact (safe_runAgent hrun hq he stream a).bind (fun _ => ih) m hm
    · exact ih m hm

theorem safe_runExclusive {run : Exec Unit} (hrun : SafeRun forgiving slots env.program run)
    (hq : env.program.procedures[p]? = some q) {entry : Nat} (he : entry < q.code.size)
    (s : AgentSet) (stream : StreamRef) :
    Stays forgiving slots env.program p (runExclusive env run s entry stream) := by
  intro m hm
  rw [runExclusive_eq]
  split
  · exact ⟨Fault.tolerable_ofCause nofun, hm⟩
  · rw [bind_apply, drawFrom, Draw.ofStream]
    refine (safe_runAgents hrun hq he stream _ (enterNested _) ?_).settle
      (fun _ _ h => h.congr rfl rfl rfl rfl) fun _ h => h.congr rfl rfl rfl rfl
    exact hm.congr rfl rfl rfl rfl

theorem safe_withStreamCopy {x : StreamRef → Exec Unit}
    (hx : ∀ r, Stays forgiving slots env.program p (x r)) :
    Stays forgiving slots env.program p (withStreamCopy x) := by
  intro m hm
  rw [withStreamCopy_eq]
  exact (hx _ (enterCopy m) (hm.congr rfl rfl rfl rfl)).settle
    (fun _ _ h => h.congr rfl rfl rfl rfl) fun _ h => h.congr rfl rfl rfl rfl

-- ════════════════════════════════════════════════════════════════════════
-- Commands without a known argument
-- ════════════════════════════════════════════════════════════════════════

/-- A return leads into the code of the frame below, or ends the agent's block. -/
theorem safe_leave : Leads forgiving slots env.program p leave := by
  apply safe_context
  intro m hm
  have hpre : ∀ m', m' = m → m'.At slots env.program p := fun _ h => h.symm ▸ hm
  split
  · exact safe_finish.mono hpre (fun _ _ h => h) fun _ h => h
  · next base =>
    have hlt : m.context.baseDepth < m.context.frames.depth := by
      simpa [Context.atBase] using base
    -- above the base there is a frame to return to
    have hpos := hm.cursor.base_pos
    obtain ⟨f, frames, hpop⟩ := CallStack.pop_of_one_lt (s := m.context.frames) (by omega)
    rw [hpop, ofExcept_ok, pure_bind]
    apply safe_modifyContext
    intro m' hm'
    subst hm'
    have hframes := (CallStack.frames_of_pop hpop).1
    have hdepth := CallStack.depth_of_pop hpop
    have hsound := hm.cursor.frames
    rw [hframes] at hsound
    refine ⟨hm.simulation, hsound.tail, hm.cursor.base_pos, ?_, hsound.2.1⟩
    show m'.context.baseDepth ≤ frames.depth
    omega

/-- Arguments fill the first locals of a frame that has room for them. -/
theorem safe_fillInputs (hq : env.program.procedures[p]? = some q) (args : List Expr)
    (hargs : ∀ e ∈ args, Readable forgiving slots q e) :
    ∀ (slot : Nat) (frame : Frame), frame.Sound env.program →
      slot + args.length ≤ frame.locals.size →
      Safe forgiving (Machine.At slots env.program p) (fillInputs env slot args frame)
        (fun f m => (f.Sound env.program ∧ frame.Like f) ∧ m.At slots env.program p)
        (Machine.At slots env.program p) := by
  induction args with
  | nil => exact fun _ frame hf _ => safe_pure fun m hm => ⟨⟨hf, .refl frame⟩, hm⟩
  | cons e rest ih =>
    intro slot frame hf hroom
    simp only [List.length_cons] at hroom
    apply (safe_evaluate hq (hargs e (by simp))).bind
    intro v m hm
    obtain ⟨f, hset⟩ := Frame.set_of_lt (show slot < frame.locals.size by omega) v
    obtain ⟨hprocedure, hreturn, hsize, _⟩ := Frame.eq_of_set hset
    rw [hset, ofExcept_ok, pure_bind]
    have hrest := ih (fun e he => hargs e (by simp [he])) (slot + 1) f (hf.set hm.1 hset)
      (by omega) m hm.2
    exact hrest.mono (fun g m' h =>
      ⟨⟨h.1.1, Frame.Like.trans ⟨hprocedure, hreturn, hsize⟩ h.1.2⟩, h.2⟩) fun _ h => h

/-- A call leads to the start of the procedure it names. -/
theorem safe_call (hp : env.program.Sound forgiving slots)
    (hq : env.program.procedures[p]? = some q) (hi : i ∈ q.code) {name : String} {index : Nat}
    (hc : i.command = .call name index) : Leads forgiving slots env.program p (call env i index) := by
  obtain ⟨callee, hcallee, hroom⟩ := hp.room hq i hi name index hc
  have hnext : i.next < q.code.size :=
    ((hp.inside hq).2 i hi).next (by rw [hc]; rfl)
  have hprocedure : env.program.procedure index = .ok callee := by
    rw [Program.procedure, hcallee]
  rw [call, hprocedure, ofExcept_ok, pure_bind]
  refine (safe_fillInputs hq i.args (fun e he => readable_of_mem hp hq hi he) 0 _
    (Frame.sound_fresh hcallee i.next) (by simpa using hroom)).bind fun frame => ?_
  apply safe_context
  intro m hpre
  obtain ⟨⟨hframe, hlike⟩, hm⟩ := hpre
  cases hpush : m.context.frames.push frame with
  | error f =>
    rw [ofExcept_error]
    rw [CallStack.push] at hpush
    split at hpush
    · cases hpush
      intro m' hm'
      have hkind : (Cause.callDepth m.context.frames.maxDepth).kind ≠ .internalConsistency := by
        intro h
        cases h
      exact ⟨Fault.tolerable_ofCause hkind, hm'.symm ▸ hm⟩
    · cases hpush
  | ok frames =>
    rw [ofExcept_ok, pure_bind]
    apply safe_modifyContext
    intro m' hm'
    subst hm'
    obtain ⟨hframes, _, _⟩ := CallStack.frames_of_push hpush
    have htop : frames.top = frame := (List.cons.inj hframes).1
    have hproc : m'.context.frames.top.procedure = p := hm.procedure
    refine ⟨hm.simulation, ?_, hm.cursor.base_pos, ?_, callee, ?_, (hp.inside hcallee).1⟩
    · show FramesSound env.program frames.frames
      rw [hframes]
      exact ⟨hframe, ⟨q, hproc.symm ▸ hq, hlike.returnIp.symm ▸ hnext⟩, hm.cursor.frames⟩
    · show m'.context.baseDepth ≤ frames.depth
      rw [CallStack.depth_of_push hpush]
      exact Nat.le_succ_of_le hm.cursor.base_le
    · show env.program.procedures[frames.top.procedure]? = some callee
      rw [htop, hlike.procedure]
      exact hcallee

theorem safe_die : Leads forgiving slots env.program p die := by
  apply safe_get
  intro m hm
  apply (safe_check hm (hm.simulation.world.mortal m.context.agent)).bind
  intro _
  refine Safe.bind (Q := fun _ => Machine.At slots env.program p) (safe_modify fun m' h => ?_)
    fun _ => safe_finish
  exact h.2.withWorld (h.2.simulation.world.remove _) (World.tables_remove _ _)

theorem safe_checkKind {P : Machine → Prop} (token : String) (s : AgentSet) (kind : AgentKind) :
    Safe forgiving P (checkKind token s kind) (fun _ m => s.kind = kind ∧ P m) P := by
  rw [checkKind]
  split
  · next hk => exact safe_pure fun _ hm => ⟨hk, hm⟩
  · exact (safe_ofExcept (A := fun _ => s.kind = kind) (Argument.yields_mismatch _ _ _))

theorem safe_relax {nodes links : AgentSet} (hn : ∀ a ∈ nodes.agents, a.kind = .turtle)
    (hl : ∀ a ∈ links.agents, a.kind = .link) (springs : Springs) :
    Stays forgiving slots env.program p (relax nodes links springs) := by
  intro m hm
  have hyields : Draw.Yields forgiving _ (m.world.layoutSpring nodes links springs) :=
    hm.simulation.world.layoutSpring hn hl springs
  have hlayout := hyields (m.streams.get m.context.stream)
  rw [relax_eq]
  rcases hr : m.world.layoutSpring nodes links springs (m.streams.get m.context.stream) with
    ⟨⟨written, w⟩, s⟩ | ⟨f, s⟩ <;> rw [hr] at hlayout
  · exact (hm.withWorld hlayout.1 hlayout.2).congr rfl rfl rfl rfl
  · exact ⟨hlayout, hm.congr rfl rfl rfl rfl⟩

/-- Sets of the right kinds hold only turtles and only links, so the layout finds its slots. -/
theorem safe_layoutSpring (hp : env.program.Sound forgiving slots)
    (hq : env.program.procedures[p]? = some q) (hi : i ∈ q.code) (hc : i.command = .layoutSpring) :
    Leads forgiving slots env.program p (layoutSpring env i) := by
  obtain ⟨_, _, _, _, hfits⟩ := hp.fits hq i hi
  have hlen := hfits.springs hc
  have hnext : i.next < q.code.size := ((hp.inside hq).2 i hi).next (by rw [hc]; rfl)
  have hnumber {index : Nat} (hindex : index < 5) {P : Prop} :
      Safe forgiving (fun m => P ∧ m.At slots env.program p)
        (numberAt env i.args index i.command.token)
        (fun _ m => P ∧ m.At slots env.program p) (Machine.At slots env.program p) := by
    intro m hm
    exact (safe_numberAt hp hq hi (hlen ▸ hindex) _ m hm.2).mono (fun _ _ h => ⟨hm.1, h⟩) fun _ h => h
  rw [layoutSpring]
  apply (safe_agentsetAt hp hq hi (by omega) _).bind
  intro nodes
  refine Safe.bind (Q := fun links m => (nodes.WellKinded ∧ links.WellKinded)
      ∧ m.At slots env.program p) (fun m hm => ?_) fun links => ?_
  · exact (safe_agentsetAt hp hq hi (by omega) _ m hm.2).mono
      (fun _ _ h => ⟨⟨hm.1, h.1⟩, h.2⟩) fun _ h => h
  apply (hnumber (by omega)).bind
  intro constant
  apply (hnumber (by omega)).bind
  intro length
  apply (hnumber (by omega)).bind
  intro repulsion
  refine ((safe_checkKind _ nodes .turtle).mono (fun _ h => h) (fun _ _ h => h)
    fun _ h => h.2).bind fun _ => ?_
  refine ((safe_checkKind _ links .link).mono (fun _ h => h) (fun _ _ h => h)
    fun _ h => h.2.2).bind fun _ => ?_
  have hrest : Safe forgiving (fun m => links.kind = .link ∧ nodes.kind = .turtle
      ∧ (nodes.WellKinded ∧ links.WellKinded) ∧ m.At slots env.program p)
      (Exec.relax nodes links ⟨constant, length, repulsion⟩ >>= fun _ => goto i.next)
      (fun _ => Machine.Sound slots env.program) (Machine.At slots env.program p) := by
    rintro m ⟨hlinks, hnodes, ⟨hn, hl⟩, hm⟩
    exact Safe.bind (safe_relax (fun a ha => (hn a ha).trans hnodes)
      (fun a ha => (hl a ha).trans hlinks) _) (fun _ => safe_goto hq hnext) m hm
  simpa only [Exec.relax, bind_assoc] using hrest

-- ════════════════════════════════════════════════════════════════════════
-- Commands with blocks
-- ════════════════════════════════════════════════════════════════════════

theorem safe_withLocalRandomness {run : Exec Unit} (hrun : SafeRun forgiving slots env.program run)
    (hq : env.program.procedures[p]? = some q) (hnext : i.next < q.code.size)
    (hoffset : i.offset < q.code.size) :
    Leads forgiving slots env.program p (withLocalRandomness env run i) := by
  apply safe_context
  intro m hm
  refine Safe.bind (Q := fun _ => Machine.At slots env.program p) (fun m' hm' => ?_)
    fun _ => safe_goto hq hoffset
  exact safe_withStreamCopy (fun copy => safe_runExclusive hrun hq hnext _ copy) m' (hm' ▸ hm)

/-- A fault that is caught is a runtime fault; any other one surfaces as it is. -/
theorem safe_carefully {run : Exec Unit} (hrun : SafeRun forgiving slots env.program run)
    (hq : env.program.procedures[p]? = some q) (hnext : i.next < q.code.size)
    (hoffset : i.offset < q.code.size) (halternate : i.alternate < q.code.size) :
    Leads forgiving slots env.program p (carefully env run i) := by
  apply safe_context
  intro m hm m' hm'
  subst hm'
  have hblock := safe_runExclusive hrun hq hnext (.ofAgent m'.context.agent) m'.context.stream m' hm
  rw [bind_apply, attempt]
  rcases hr : runExclusive env run (.ofAgent m'.context.agent) i.next m'.context.stream m' with
    ⟨_, m₁⟩ | ⟨⟨f⟩ | _, m₁⟩ <;> rw [hr] at hblock
  · exact safe_goto hq hoffset m₁ hblock
  · dsimp only
    split
    · have hproc : m₁.context.frames.top.procedure = p := hblock.2.procedure
      exact ⟨hblock.2.simulation, hblock.2.cursor.frames, hblock.2.cursor.base_pos,
        hblock.2.cursor.base_le, q, hproc.symm ▸ hq, halternate⟩
    · exact hblock
  · exact hblock

theorem safe_ask {run : Exec Unit} (hrun : SafeRun forgiving slots env.program run)
    (hq : env.program.procedures[p]? = some q) (hnext : i.next < q.code.size)
    (hoffset : i.offset < q.code.size) (v : Value) :
    Leads forgiving slots env.program p (ask env run i v) := by
  rw [ask_eq]
  apply safe_get
  intro m hm
  apply (safe_check hm (Argument.yields_asked m.world _ v)).bind
  intro s
  refine Safe.bind (Q := fun _ => Machine.At slots env.program p)
    (fun m' hm' => safe_runExclusive hrun hq hnext s _ m' hm'.2) fun _ => safe_goto hq hoffset

theorem safe_spawn (count : Nat) : Stays forgiving slots env.program p (spawn count) := by
  intro m hm
  have hworld := hm.simulation.world.createTurtles count (m.streams.get m.context.stream)
  have htables : (m.world.createTurtles count (m.streams.get m.context.stream)).2.1.tables
      = m.world.tables :=
    World.growTurtles_induction (P := fun w => w.tables = m.world.tables) (fun _ _ h => h) count
      m.world _ rfl
  exact (hm.withWorld hworld htables).congr rfl rfl rfl rfl

theorem safe_createTurtles {run : Exec Unit} (hrun : SafeRun forgiving slots env.program run)
    (hq : env.program.procedures[p]? = some q) (hnext : i.next < q.code.size)
    (hoffset : i.offset < q.code.size) (v : Value) :
    Leads forgiving slots env.program p (createTurtles env run i v) := by
  rw [createTurtles_eq]
  apply safe_context
  intro m hm
  apply (safe_check hm (Argument.yields_births m.context.agent.kind _ v)).bind
  intro count
  refine Safe.bind (Q := fun _ => Machine.At slots env.program p)
    (fun m' hm' => safe_spawn count m' hm'.2) fun created => ?_
  exact (safe_runExclusive hrun hq hnext created _).bind fun _ => safe_goto hq hoffset

theorem safe_branch (hq : env.program.procedures[p]? = some q) (hnext : i.next < q.code.size)
    {otherwise : Nat} (ho : otherwise < q.code.size) (v : Value) :
    Leads forgiving slots env.program p (branch i v otherwise) := by
  apply (safe_ofExcept (Argument.yields_boolean _ v)).bind
  intro b
  split
  · exact (safe_goto hq hnext).mono (fun _ h => h.2) (fun _ _ h => h) fun _ h => h
  · exact (safe_goto hq ho).mono (fun _ h => h.2) (fun _ _ h => h) fun _ h => h

theorem safe_countDown (hq : env.program.procedures[p]? = some q) (hnext : i.next < q.code.size)
    (hoffset : i.offset < q.code.size) {slot : Nat} (hs : slot < q.locals) :
    Leads forgiving slots env.program p (countDown i slot) := by
  apply (safe_getLocal hq hs).bind
  intro v
  apply (safe_ofExcept (Argument.yields_number _ v)).bind
  intro left
  refine Safe.mono (P := Machine.At slots env.program p) ?_ (fun _ h => h.2) (fun _ _ h => h)
    fun _ h => h
  split
  · exact safe_goto hq hoffset
  · exact (safe_setLocal hq hs rfl).bind fun _ => safe_goto hq hnext

-- ════════════════════════════════════════════════════════════════════════
-- Instructions
-- ════════════════════════════════════════════════════════════════════════

theorem safe_performUnary (hp : env.program.Sound forgiving slots) {run : Exec Unit}
    (hrun : SafeRun forgiving slots env.program run) (hq : env.program.procedures[p]? = some q)
    (hi : i ∈ q.code) (hu : i.command.isUnary = true) {v : Value} (hv : v.wellKinded = true) :
    Leads forgiving slots env.program p (performUnary env run i v) := by
  obtain ⟨sc, _, hslots, hlocals, hfits⟩ := hp.fits hq i hi
  have hinside := (hp.inside hq).2 i hi
  have hnext : i.next < q.code.size := by
    apply hinside.next
    cases hc : i.command <;> simp_all [Command.isUnary, Command.arity, Command.isTerminal]
  have hlocal (slot : Nat) (hs : i.command.touched? = some slot) : slot < q.locals :=
    hlocals ▸ hfits.localSlot slot hs
  have hassign {slot : Nat} (hs : i.command.touched? = some slot) {u : Value}
      (hu : u.wellKinded = true) :
      Leads forgiving slots env.program p (setLocal slot u >>= fun _ => goto i.next) :=
    (safe_setLocal hq (hlocal slot hs) hu).bind fun _ => safe_goto hq hnext
  have hoffset (hb : 0 < i.command.blocks) : i.offset < q.code.size := by
    apply hinside.offset
    cases hc : i.command <;> simp_all [Instruction.hasOffset, Command.blocks]
  cases hc : i.command with
  | setVariable kind slot =>
    have hslot : slot < slots kind := hslots ▸ hfits.variableSlot kind slot hc
    simp only [performUnary, hc]
    apply safe_get
    intro m hm
    apply (safe_check hm (hm.simulation.world.target m.context.agent kind _)).bind
    intro a
    refine Safe.bind (Q := fun _ => Machine.At slots env.program p) (fun m' hm' => ?_)
      fun _ => safe_goto hq hnext
    exact safe_writeVariable (hm'.1.symm ▸ hslot) hv m' hm'.2
  | letLocal slot =>
    simp only [performUnary, hc]
    exact hassign (by rw [hc]; rfl) hv
  | setLocal slot =>
    simp only [performUnary, hc]
    exact hassign (by rw [hc]; rfl) hv
  | print =>
    simp only [performUnary, hc]
    refine Safe.bind (Q := fun _ => Machine.At slots env.program p) (safe_modify fun m hm => ?_)
      fun _ => safe_goto hq hnext
    exact hm.congr rfl rfl rfl rfl
  | ask =>
    simp only [performUnary, hc]
    exact safe_ask hrun hq hnext (hoffset (by simp [hc, Command.blocks])) v
  | createTurtles =>
    simp only [performUnary, hc]
    exact safe_createTurtles hrun hq hnext (hoffset (by simp [hc, Command.blocks])) v
  | ifThen =>
    simp only [performUnary, hc]
    exact safe_branch hq hnext (hoffset (by simp [hc, Command.blocks])) v
  | ifElse =>
    simp only [performUnary, hc]
    exact safe_branch hq hnext (hinside.alternate (by simp [Instruction.hasAlternate, hc])) v
  | whileTrue =>
    simp only [performUnary, hc]
    exact safe_branch hq hnext (hoffset (by simp [hc, Command.blocks])) v
  | repeatTimes slot =>
    simp only [performUnary, hc]
    apply (safe_ofExcept (Argument.yields_count _ v)).bind
    intro count
    exact (hassign (by rw [hc]; rfl) rfl).mono (fun _ h => h.2) (fun _ _ h => h) fun _ h => h
  | _ => simp [hc, Command.isUnary, Command.arity] at hu

theorem safe_perform (hp : env.program.Sound forgiving slots) {run : Exec Unit}
    (hrun : SafeRun forgiving slots env.program run) (hq : env.program.procedures[p]? = some q)
    (hi : i ∈ q.code) : Leads forgiving slots env.program p (perform env run i) := by
  obtain ⟨sc, _, _, hlocals, hfits⟩ := hp.fits hq i hi
  have hinside := (hp.inside hq).2 i hi
  rw [perform]
  by_cases hu : i.command.isUnary
  · rw [if_pos hu]
    obtain ⟨e, he⟩ := hfits.unary hu
    apply (safe_evaluateAt hp hq hi (by simp [he])).bind
    intro v m hm
    exact safe_performUnary hp hrun hq hi hu hm.1 m hm.2
  rw [if_neg hu]
  cases hc : i.command with
  | withLocalRandomness =>
    exact safe_withLocalRandomness hrun hq (hinside.next (by rw [hc]; rfl))
      (hinside.offset (by simp [Instruction.hasOffset, hc, Command.blocks]))
  | carefully =>
    exact safe_carefully hrun hq (hinside.next (by rw [hc]; rfl))
      (hinside.offset (by simp [Instruction.hasOffset, hc, Command.blocks]))
      (hinside.alternate (by simp [Instruction.hasAlternate, hc]))
  | call name index => exact safe_call hp hq hi hc
  | stop => exact safe_leave
  | ret => exact safe_leave
  | die => exact safe_die
  | layoutSpring => exact safe_layoutSpring hp hq hi hc
  | goto => exact safe_goto hq (hinside.offset (by simp [Instruction.hasOffset, hc]))
  | repeatCheck slot =>
    exact safe_countDown hq (hinside.next (by rw [hc]; rfl))
      (hinside.offset (by simp [Instruction.hasOffset, hc]))
      (hlocals ▸ hfits.localSlot slot (by rw [hc]; rfl))
  | done => exact safe_finish
  | _ => simp [hc, Command.isUnary, Command.arity] at hu

/-- An instruction of a sound program takes a sound machine that runs its procedure to a sound
machine. -/
theorem safe_execute (hp : env.program.Sound forgiving slots) {run : Exec Unit}
    (hrun : SafeRun forgiving slots env.program run) (hq : env.program.procedures[p]? = some q)
    (hi : i ∈ q.code) : Leads forgiving slots env.program p (execute env run i) := by
  refine Safe.mapFault ?_ fun m f hf => View.tolerable_bind _ _ _ hf
  split
  · next v hknown =>
    obtain ⟨_, _, _, _, hfits⟩ := hp.fits hq i hi
    obtain ⟨hu, e, he, hconstant⟩ := hfits.known v hknown
    refine safe_performUnary hp hrun hq hi hu (hp.kinded hq i hi v ?_)
    rw [he]
    apply Expr.mem_constantsOf (e := e) (by simp)
    obtain ⟨r, args, position⟩ := e
    simp [Expr.constants, hconstant]
  · exact safe_perform hp hrun hq hi

-- ════════════════════════════════════════════════════════════════════════
-- Runs
-- ════════════════════════════════════════════════════════════════════════

theorem instruction_of_sound {m : Machine} (h : m.Sound slots env.program) :
    ∃ q i, env.program.procedures[m.context.procedure]? = some q ∧ i ∈ q.code
      ∧ env.program.instruction m.context.procedure m.context.ip = .ok i := by
  obtain ⟨q, hq, hip⟩ := h.cursor.ip
  refine ⟨q, q.code[m.context.ip], hq, Array.getElem_mem hip, ?_⟩
  have hprocedure : env.program.procedure m.context.procedure = .ok q := by
    rw [Program.procedure]
    simp only [Context.procedure, hq]
  exact Program.instruction_eq_ok hprocedure (Array.getElem?_eq_getElem hip)

/-- The next instruction is there, and belongs to the running procedure. -/
theorem safe_fetch :
    Safe forgiving (Machine.Sound slots env.program) (fetch env)
      (fun i m => ∃ p q, env.program.procedures[p]? = some q ∧ i ∈ q.code
        ∧ m.At slots env.program p) (Machine.Sound slots env.program) := by
  intro m hm
  obtain ⟨q, i, hq, hi, hinstruction⟩ := instruction_of_sound hm
  have hread : m.haltRead.Sound slots env.program :=
    ⟨⟨hm.simulation.world, hm.simulation.slots⟩, hm.cursor⟩
  rw [fetch_apply, hinstruction]
  split
  · exact ⟨Fault.tolerable_ofCause nofun, hread⟩
  · exact ⟨_, q, hq, hi, hread, rfl⟩

theorem safe_fetch_execute (hp : env.program.Sound forgiving slots) {run : Exec Unit}
    (hrun : SafeRun forgiving slots env.program run) :
    ∀ i, Safe forgiving (fun m => ∃ p q, env.program.procedures[p]? = some q ∧ i ∈ q.code
        ∧ m.At slots env.program p) (execute env run i)
      (fun _ => Machine.Sound slots env.program) (Machine.Sound slots env.program) := by
  rintro i m ⟨p, q, hq, hi, hm⟩
  exact (safe_execute hp hrun hq hi m hm).mono (fun _ _ h => h) fun _ h => h.toSound

/-- A run to the end of a block keeps machines sound. -/
theorem safe_toCompletion (hp : env.program.Sound forgiving slots) (fuel : Nat) :
    SafeRun forgiving slots env.program (toCompletion env fuel) := by
  induction fuel with
  | zero =>
    refine ⟨fun m hm => ?_, framed_effects.toCompletion env 0⟩
    rw [toCompletion, context_bind]
    split
    · exact hm
    · exact hm
  | succ fuel ih =>
    refine ⟨fun m hm => ?_, framed_effects.toCompletion env (fuel + 1)⟩
    rw [toCompletion, context_bind]
    split
    · exact hm
    · exact (safe_fetch.bind fun i => (safe_fetch_execute hp ih i).bind fun _ => ih.safe) m hm

theorem safe_atTerminal :
    Safe forgiving (Machine.Sound slots env.program) (atTerminal env)
      (fun _ => Machine.Sound slots env.program) (Machine.Sound slots env.program) := by
  apply safe_context
  intro m hm
  obtain ⟨q, i, _, _, hinstruction⟩ := instruction_of_sound hm
  rw [hinstruction, ofExcept_ok, pure_bind]
  split <;> exact safe_pure fun m' h => h.symm ▸ hm

/-- A turn keeps machines sound. -/
theorem safe_untilSwitch (hp : env.program.Sound forgiving slots) (fuel : Nat) :
    Safe forgiving (Machine.Sound slots env.program) (untilSwitch env fuel)
      (fun _ => Machine.Sound slots env.program) (Machine.Sound slots env.program) := by
  induction fuel with
  | zero => exact safe_exhausted
  | succ fuel ih =>
    apply safe_fetch.bind
    intro i
    apply (safe_fetch_execute hp (safe_toCompletion hp fuel) i).bind
    intro _
    apply safe_context
    intro m hm
    refine Safe.mono (P := Machine.Sound slots env.program) ?_ (fun m' h => h.symm ▸ hm)
      (fun _ _ h => h) fun _ h => h
    split
    · exact safe_pure fun _ h => h
    · split
      · apply safe_atTerminal.bind
        intro ended
        exact safe_modifyContext fun m h => ⟨h.simulation, h.cursor⟩
      · exact ih

end Swarm.Exec
