import Swarm.Proofs.Exec.Scope
import Swarm.Proofs.World.Records

/-!
# What an instruction can do

Every computation of the interpreter is put together from a few effects on the machine: moving
registers, assigning a local, entering and leaving calls, drawing from the agent's own stream,
writing a variable and telling so, printing, laying out springs, dying, creating turtles, reading
the halt flag, and the three scopes of nested jobs and private streams. `Exec.Effects` lists them. A
relation that holds across each of them holds across whole instructions, turns and runs, whatever
the program, and whether or not the computation fails. A relation that holds across those effects alone that run no
nested job, kill nobody and catch no fault holds across the instructions that do none of this.

## Main definitions

* `World.reports`: the notices of the present values of slots
* `Exec.Keeps`: a relation between the machine before and after a computation
* `Exec.Quiet`: a relation that holds across the effects of most instructions
* `Exec.Effects`: a relation that holds across every effect

## Main results

* `Exec.Quiet.execute`: across an instruction that runs no nested job and kills nobody
* `Exec.Effects.execute`: across an instruction
* `Exec.Effects.toCompletion`, `Exec.Effects.untilSwitch`: across runs
-/

namespace Swarm

/-- The notices of the present values of slots. -/
def World.reports (w : World) (slots : List (AgentRef × Nat)) : List Notice :=
  slots.filterMap fun p => (w.stored? p.1 p.2).map (Notice.changed p.1 p.2)

namespace Exec

variable {α β : Type} {R : Machine → Machine → Prop}

/-- However the computation ends, `R` relates the machine before it to the machine after it. -/
def Keeps (R : Machine → Machine → Prop) (x : Exec α) : Prop :=
  ∀ m, R m (final (x m))

theorem Keeps.mapFault (change : Machine → Fault → Fault) {x : Exec α} (hx : Keeps R x) :
    Keeps R (Exec.mapFault change x) := by
  intro m
  rw [final_mapFault]
  exact hx m

/-- A computation that looks at the machine first. -/
theorem Keeps.get_bind {f : Machine → Exec α} (hf : ∀ m, R m (final (f m m))) :
    Keeps R ((get : Exec Machine) >>= f) :=
  hf

/-- A computation that looks at the running agent first. -/
theorem Keeps.context_bind {f : Context → Exec α} (hf : ∀ m, R m (final (f m.context m))) :
    Keeps R (Exec.context >>= f) :=
  hf

/-- Lay out springs and tell observers what moved. -/
def relax (nodes links : AgentSet) (springs : Springs) : Exec Unit := do
  let w := (← get).world
  let (written, w) ← draw (w.layoutSpring nodes links springs)
  modify fun m => { m with world := w }
  notifySlots written

/-- Slots that can be read are told with their present values. -/
theorem notifySlots_eq (slots : List (AgentRef × Nat)) (m : Machine)
    (h : ∀ p ∈ slots, ∃ v, m.world.getVariable p.1 p.2 = .ok v ∧ m.world.stored? p.1 p.2 = some v) :
    notifySlots slots m = .ok () { m with notices := m.notices ++ m.world.reports slots } := by
  induction slots generalizing m with
  | nil => simp [notifySlots, World.reports, pure_apply]
  | cons p rest ih =>
    obtain ⟨a, slot⟩ := p
    obtain ⟨v, hv, hstored⟩ := h (a, slot) (by simp)
    have hrest := ih { m with notices := m.notices.push (.changed a slot v) }
      fun p hp => h p (by simp [hp])
    rw [notifySlots, get_bind, hv, ofExcept_ok, bind_apply, pure_apply]
    apply hrest.trans
    simp [World.reports, hstored]

/-- A layout that succeeds changes the world and tells every slot that it wrote; one that fails
moves a stream. -/
theorem relax_eq (nodes links : AgentSet) (springs : Springs) (m : Machine) :
    relax nodes links springs m =
      match m.world.layoutSpring nodes links springs (m.streams.get m.context.stream) with
      | .ok (written, w) s => .ok () { m with
          world := w
          streams := m.streams.set m.context.stream s
          notices := m.notices ++ w.reports written }
      | .error f s =>
        .error (.fault f) { m with streams := m.streams.set m.context.stream s } := by
  rw [relax, get_bind, bind_apply, draw, context_bind, drawFrom]
  cases hl : m.world.layoutSpring nodes links springs (m.streams.get m.context.stream) with
  | error f s => rfl
  | ok result s =>
    obtain ⟨written, w⟩ := result
    exact notifySlots_eq written
      { m with world := w, streams := m.streams.set m.context.stream s }
      (World.readable_of_layoutSpring hl)

/-- Laying out springs draws from the agent's own stream, changes the world and tells. -/
theorem final_relax (nodes links : AgentSet) (springs : Springs) (m : Machine) :
    ∃ w s notices, final (relax nodes links springs m) =
      { m with world := w, streams := m.streams.set m.context.stream s, notices := notices } := by
  rw [relax_eq]
  split
  · exact ⟨_, _, _, rfl⟩
  · exact ⟨_, _, _, rfl⟩

/-- A relation that holds across the effects of instructions that run no nested job and kill
nobody. None of them sets the message of the fault caught last. -/
structure Quiet (R : Machine → Machine → Prop) : Prop where
  refl (m : Machine) : R m m
  trans {m₁ m₂ m₃ : Machine} : R m₁ m₂ → R m₂ m₃ → R m₁ m₃
  /-- The running agent moves on. -/
  move (m : Machine) (ip : Nat) (lastReported : Value) (finished : Bool) :
    R m { m with
      context := { m.context with ip := ip, lastReported := lastReported, finished := finished } }
  /-- A local is assigned. -/
  assign {m : Machine} {slot : Nat} {v : Value} {f : Frame} :
    m.context.frames.top.set slot v = .ok f →
    R m { m with context := { m.context with frames := m.context.frames.setTop f } }
  /-- A call is entered. -/
  push {m : Machine} {f : Frame} {frames : CallStack} :
    m.context.frames.push f = .ok frames →
    R m { m with context := { m.context with frames := frames } }
  /-- A call is left. -/
  pop {m : Machine} {f : Frame} {frames : CallStack} :
    m.context.atBase = false → m.context.frames.pop = .ok (f, frames) →
    R m { m with context := { m.context with frames := frames } }
  /-- The agent draws from its own stream. -/
  draw (m : Machine) (s : Random.Stream) :
    R m { m with streams := m.streams.set m.context.stream s }
  /-- A variable is written and observers are told. -/
  write {m : Machine} {a : AgentRef} {slot : Nat} {v stored : Value} :
    m.world.accept a slot v = .ok stored →
    R m { m with
      world := m.world.store a slot stored
      notices := m.notices.push (.changed a slot stored) }
  /-- A line is printed. -/
  print (m : Machine) (text : String) :
    R m { m with notices := m.notices.push (.output text) }
  /-- Springs are laid out and observers are told. -/
  relax (m : Machine) (nodes links : AgentSet) (springs : Springs) :
    R m (final (relax nodes links springs m))
  /-- Turtles are created. -/
  spawn (m : Machine) (count : Nat) : R m (final (spawn count m))

/-- A relation that holds across every effect of an instruction. -/
structure Effects (R : Machine → Machine → Prop) : Prop extends Quiet R where
  /-- Registers of the running agent are set. -/
  registers (m : Machine) (ip : Nat) (errorMessage : Option String) (lastReported : Value)
    (finished : Bool) :
    R m { m with
      context := { m.context with
        ip := ip
        errorMessage := errorMessage
        lastReported := lastReported
        finished := finished } }
  /-- The halt flag is read. -/
  read (m : Machine) : R m m.haltRead
  /-- The running agent dies. -/
  remove {m : Machine} :
    m.world.mortal m.context.agent = .ok () →
    R m { m with world := m.world.remove m.context.agent }
  /-- A live agent runs a block, drawing from the stream of the enclosing context. -/
  agent {m m' : Machine} {a : AgentRef} {entry : Nat} :
    m.world.isAlive a → R (enterAgent a entry m.context.stream m) m' → R m (leaveAgent m m')
  /-- A nested job is run. -/
  nested {m m' : Machine} : R (enterNested m) m' → R m (leaveNested m m')
  /-- A block is run with a copy of the main stream. -/
  copy {m m' : Machine} : R (enterCopy m) m' → R m (leaveCopy m m')
  move m ip lastReported finished := registers m ip m.context.errorMessage lastReported finished

namespace Quiet

variable (h : Quiet R)
include h

-- ════════════════════════════════════════════════════════════════════════
-- Combinators
-- ════════════════════════════════════════════════════════════════════════

theorem keeps_pure (a : α) : Keeps R (pure a) :=
  fun m => h.refl m

theorem keeps_throw (e : Stop) : Keeps R (throw e : Exec α) :=
  fun m => h.refl m

theorem keeps_bind {x : Exec α} {f : α → Exec β} (hx : Keeps R x) (hf : ∀ a, Keeps R (f a)) :
    Keeps R (x >>= f) := by
  intro m
  have hm := hx m
  rw [bind_apply]
  cases hr : x m with
  | ok a m' =>
    rw [hr] at hm
    exact h.trans hm (hf a m')
  | error e m' =>
    rw [hr] at hm
    exact hm

theorem keeps_ofExcept (x : Except Fault α) : Keeps R (ofExcept x) := by
  intro m
  rw [final_ofExcept]
  exact h.refl m

/-- What comes after a check is of account only if the check succeeds. -/
theorem final_ofExcept_bind {x : Except Fault α} {f : α → Exec β} {m : Machine}
    (hf : ∀ a, x = .ok a → R m (final (f a m))) : R m (final ((ofExcept x >>= f) m)) := by
  cases x with
  | ok a => exact hf a rfl
  | error e => exact h.refl m

-- ════════════════════════════════════════════════════════════════════════
-- Registers, locals and draws
-- ════════════════════════════════════════════════════════════════════════

theorem keeps_goto (ip : Nat) : Keeps R (goto ip) :=
  fun m => h.move m ip m.context.lastReported m.context.finished

theorem keeps_finish : Keeps R finish :=
  fun m => h.move m m.context.ip m.context.lastReported true

theorem keeps_draw (d : Draw α) : Keeps R (Exec.draw d) := by
  apply Keeps.context_bind
  intro m
  rw [drawFrom]
  cases d (m.streams.get m.context.stream) with
  | ok a s => exact h.draw m s
  | error e s => exact h.draw m s

theorem keeps_evaluate (env : Environment) (e : Expr) : Keeps R (evaluate env e) := by
  refine h.keeps_bind ?_ fun v => h.keeps_bind ?_ fun _ => h.keeps_pure v
  · exact Keeps.get_bind fun m => h.keeps_draw (e.report (m.view env)) m
  · exact fun m => h.move m m.context.ip v m.context.finished

theorem keeps_evaluateAt (env : Environment) (args : List Expr) (index : Nat) :
    Keeps R (evaluateAt env args index) := by
  rw [evaluateAt]
  split
  · exact h.keeps_evaluate env _
  · exact h.keeps_throw _

theorem keeps_numberAt (env : Environment) (args : List Expr) (index : Nat) (primitive : String) :
    Keeps R (numberAt env args index primitive) :=
  h.keeps_bind (h.keeps_evaluateAt env args index) fun _ => h.keeps_ofExcept _

theorem keeps_agentsetAt (env : Environment) (args : List Expr) (index : Nat)
    (primitive : String) : Keeps R (agentsetAt env args index primitive) :=
  h.keeps_bind (h.keeps_evaluateAt env args index) fun _ => h.keeps_ofExcept _

theorem keeps_getLocal (slot : Nat) : Keeps R (getLocal slot) :=
  h.keeps_bind (fun m => h.refl m) fun _ => h.keeps_ofExcept _

theorem keeps_setLocal (slot : Nat) (v : Value) : Keeps R (setLocal slot v) :=
  Keeps.context_bind fun _ => h.final_ofExcept_bind fun _ hf => h.assign hf

theorem keeps_writeVariable (a : AgentRef) (slot : Nat) (v : Value) :
    Keeps R (writeVariable a slot v) :=
  Keeps.get_bind fun _ => h.final_ofExcept_bind fun _ hs => h.write hs

-- ════════════════════════════════════════════════════════════════════════
-- Commands that run no block
-- ════════════════════════════════════════════════════════════════════════

theorem keeps_leave : Keeps R leave := by
  apply Keeps.context_bind
  intro m
  split
  · exact h.keeps_finish m
  · next base =>
    apply h.final_ofExcept_bind
    intro p hp
    -- leaving a call is a pop followed by a jump
    have hbase : m.context.atBase = false := by simpa using base
    exact h.trans (h.pop hbase hp)
      (h.move _ p.1.returnIp m.context.lastReported m.context.finished)

theorem keeps_fillInputs (env : Environment) (args : List Expr) :
    ∀ (slot : Nat) (frame : Frame), Keeps R (fillInputs env slot args frame) := by
  induction args with
  | nil => exact fun _ frame => h.keeps_pure frame
  | cons e rest ih =>
    intro slot frame
    exact h.keeps_bind (h.keeps_evaluate env e) fun _ =>
      h.keeps_bind (h.keeps_ofExcept _) fun f => ih (slot + 1) f

theorem keeps_call (env : Environment) (i : Instruction) (index : Nat) :
    Keeps R (call env i index) := by
  apply h.keeps_bind (h.keeps_ofExcept _)
  intro q
  apply h.keeps_bind (h.keeps_fillInputs env i.args 0 _)
  intro frame
  refine Keeps.context_bind fun m => h.final_ofExcept_bind fun frames hp => ?_
  exact h.trans (h.push hp)
    (h.move _ 0 m.context.lastReported m.context.finished)

theorem keeps_checkKind (token : String) (s : AgentSet) (kind : AgentKind) :
    Keeps R (checkKind token s kind) := by
  rw [checkKind]
  split
  · exact h.keeps_pure ()
  · exact h.keeps_ofExcept _

theorem keeps_layoutSpring (env : Environment) (i : Instruction) :
    Keeps R (layoutSpring env i) := by
  rw [layoutSpring]
  apply h.keeps_bind (h.keeps_agentsetAt env _ _ _)
  intro nodes
  apply h.keeps_bind (h.keeps_agentsetAt env _ _ _)
  intro links
  apply h.keeps_bind (h.keeps_numberAt env _ _ _)
  intro constant
  apply h.keeps_bind (h.keeps_numberAt env _ _ _)
  intro length
  apply h.keeps_bind (h.keeps_numberAt env _ _ _)
  intro repulsion
  apply h.keeps_bind (h.keeps_checkKind _ _ _)
  intro _
  apply h.keeps_bind (h.keeps_checkKind _ _ _)
  intro _
  have hr : Keeps R (Exec.relax nodes links ⟨constant, length, repulsion⟩ >>= fun _ =>
      goto i.next) :=
    h.keeps_bind (fun m => h.relax m nodes links _) fun _ => h.keeps_goto i.next
  simpa only [Exec.relax, bind_assoc] using hr

theorem keeps_countDown (i : Instruction) (slot : Nat) : Keeps R (countDown i slot) := by
  apply h.keeps_bind (h.keeps_getLocal slot)
  intro v
  apply h.keeps_bind (h.keeps_ofExcept _)
  intro left
  split
  · exact h.keeps_goto i.offset
  · exact h.keeps_bind (h.keeps_setLocal slot _) fun _ => h.keeps_goto i.next

theorem keeps_branch (i : Instruction) (v : Value) (otherwise : Nat) :
    Keeps R (branch i v otherwise) := by
  apply h.keeps_bind (h.keeps_ofExcept _)
  intro b
  split
  · exact h.keeps_goto i.next
  · exact h.keeps_goto otherwise

theorem keeps_performUnary {i : Instruction} (quiet : i.command.isExclusive = false)
    (env : Environment) (run : Exec Unit) (v : Value) : Keeps R (performUnary env run i v) := by
  rw [performUnary]
  split
  · refine h.keeps_bind (fun m => h.refl m) fun m => ?_
    apply h.keeps_bind (h.keeps_ofExcept _)
    intro a
    exact h.keeps_bind (h.keeps_writeVariable a _ v) fun _ => h.keeps_goto i.next
  · exact h.keeps_bind (h.keeps_setLocal _ v) fun _ => h.keeps_goto i.next
  · exact h.keeps_bind (h.keeps_setLocal _ v) fun _ => h.keeps_goto i.next
  · exact h.keeps_bind (fun m => h.print m v.text) fun _ => h.keeps_goto i.next
  · next hc => simp [hc, Command.isExclusive] at quiet
  · next hc => simp [hc, Command.isExclusive] at quiet
  · exact h.keeps_branch i v i.offset
  · exact h.keeps_branch i v i.alternate
  · exact h.keeps_branch i v i.offset
  · apply h.keeps_bind (h.keeps_ofExcept _)
    intro count
    exact h.keeps_bind (h.keeps_setLocal _ _) fun _ => h.keeps_goto i.next
  · exact h.keeps_throw _

theorem keeps_perform {i : Instruction} (quiet : i.command.isExclusive = false)
    (survives : i.command ≠ .die) (env : Environment) (run : Exec Unit) :
    Keeps R (perform env run i) := by
  rw [perform]
  split
  · exact h.keeps_bind (h.keeps_evaluateAt env i.args 0) fun v =>
      h.keeps_performUnary quiet env run v
  · split
    · next hc => simp [hc, Command.isExclusive] at quiet
    · next hc => simp [hc, Command.isExclusive] at quiet
    · exact h.keeps_call env i _
    · exact h.keeps_leave
    · exact h.keeps_leave
    · next hc => exact absurd hc survives
    · exact h.keeps_layoutSpring env i
    · exact h.keeps_goto i.offset
    · exact h.keeps_countDown i _
    · exact h.keeps_finish
    · exact h.keeps_throw _

/-- What holds across the quiet effects holds across an instruction that runs no nested job and
kills nobody. -/
theorem execute {i : Instruction} (quiet : i.command.isExclusive = false)
    (survives : i.command ≠ .die) (env : Environment) (run : Exec Unit) :
    Keeps R (execute env run i) := by
  refine Keeps.mapFault _ ?_
  split
  · exact h.keeps_performUnary quiet env run _
  · exact h.keeps_perform quiet survives env run

end Quiet

namespace Effects

variable (h : Effects R)
include h

-- ════════════════════════════════════════════════════════════════════════
-- Nested jobs
-- ════════════════════════════════════════════════════════════════════════

/-- Agents that draw from the stream of the enclosing context. -/
theorem keeps_runAgents {run : Exec Unit} (hrun : Keeps R run) (entry : Nat)
    (agents : List AgentRef) (m : Machine) :
    R m (final (runAgents run entry m.context.stream agents m)) := by
  induction agents generalizing m with
  | nil => exact h.refl m
  | cons a rest ih =>
    rw [runAgents_cons]
    split
    · next alive =>
      -- one agent's run gives the enclosing context back, and with it the stream
      have hone : R m (final (runAgent run entry m.context.stream a m)) := by
        rw [runAgent_eq, within, final_settle]
        exact h.agent alive (hrun _)
      have hstream : (final (runAgent run entry m.context.stream a m)).context.stream
          = m.context.stream := by
        rw [runAgent_eq, within, final_settle]
        rfl
      rw [bind_apply]
      cases hr : runAgent run entry m.context.stream a m with
      | ok _ m' =>
        rw [hr] at hone hstream
        have hrest := ih m'
        rw [show m'.context.stream = m.context.stream from hstream] at hrest
        exact h.trans hone hrest
      | error e m' =>
        rw [hr] at hone
        exact hone
    · exact ih m

/-- A nested job that draws from the stream of the enclosing context. -/
theorem keeps_runExclusive {run : Exec Unit} (hrun : Keeps R run) (env : Environment)
    (s : AgentSet) (entry : Nat) (m : Machine) :
    R m (final (runExclusive env run s entry m.context.stream m)) := by
  rw [runExclusive_eq]
  split
  · exact h.refl m
  · simp only [bind_apply, drawFrom, Draw.ofStream]
    apply h.trans (h.draw m (s.visitOrder (m.streams.get m.context.stream)).2)
    rw [within, final_settle]
    exact h.nested (h.keeps_runAgents hrun entry _ (enterNested _))

/-- A nested job with a copy of the main stream. -/
theorem keeps_withStreamCopy {x : StreamRef → Exec Unit}
    (hx : ∀ m, R m (final (x m.context.stream m))) : Keeps R (withStreamCopy x) := by
  intro m
  rw [withStreamCopy_eq, within, final_settle]
  exact h.copy (hx (enterCopy m))

-- ════════════════════════════════════════════════════════════════════════
-- Commands
-- ════════════════════════════════════════════════════════════════════════

theorem keeps_die : Keeps R die := by
  refine Keeps.get_bind fun m => h.final_ofExcept_bind fun _ hm => ?_
  exact h.trans (h.remove hm) (h.keeps_finish _)

theorem keeps_withLocalRandomness {run : Exec Unit} (hrun : Keeps R run) (env : Environment)
    (i : Instruction) : Keeps R (withLocalRandomness env run i) := by
  refine h.keeps_bind (fun m => h.refl m) fun c => ?_
  refine h.keeps_bind ?_ fun _ => h.keeps_goto i.offset
  exact h.keeps_withStreamCopy fun m => h.keeps_runExclusive hrun env _ i.next m

theorem keeps_carefully {run : Exec Unit} (hrun : Keeps R run) (env : Environment)
    (i : Instruction) : Keeps R (carefully env run i) := by
  apply Keeps.context_bind
  intro m
  have hblock := h.keeps_runExclusive hrun env (.ofAgent m.context.agent) i.next m
  rw [bind_apply, attempt]
  rcases hr : runExclusive env run (.ofAgent m.context.agent) i.next m.context.stream m with
    ⟨_, m'⟩ | ⟨⟨f⟩ | _, m'⟩
  · rw [hr] at hblock
    exact h.trans hblock (h.keeps_goto i.offset m')
  · rw [hr] at hblock
    apply h.trans hblock
    dsimp only
    split
    · exact h.registers m' i.alternate (some f.message) m'.context.lastReported m'.context.finished
    · exact h.refl m'
  · rw [hr] at hblock
    exact hblock

/-- A nested job followed by a jump. -/
theorem keeps_runExclusive_goto {run : Exec Unit} (hrun : Keeps R run) (env : Environment)
    (s : AgentSet) (entry target : Nat) (m : Machine) :
    R m (final ((runExclusive env run s entry m.context.stream >>= fun _ => goto target) m)) := by
  have hblock := h.keeps_runExclusive hrun env s entry m
  rw [bind_apply]
  cases hr : runExclusive env run s entry m.context.stream m with
  | ok _ m' =>
    rw [hr] at hblock
    exact h.trans hblock (h.keeps_goto target m')
  | error e m' =>
    rw [hr] at hblock
    exact hblock

theorem keeps_ask {run : Exec Unit} (hrun : Keeps R run) (env : Environment) (i : Instruction)
    (v : Value) : Keeps R (ask env run i v) := by
  rw [ask_eq]
  apply Keeps.get_bind
  intro m
  exact h.final_ofExcept_bind fun s _ => h.keeps_runExclusive_goto hrun env s i.next i.offset m

theorem keeps_createTurtles {run : Exec Unit} (hrun : Keeps R run) (env : Environment)
    (i : Instruction) (v : Value) : Keeps R (createTurtles env run i v) := by
  rw [createTurtles_eq]
  apply Keeps.context_bind
  intro m
  apply h.final_ofExcept_bind
  intro count _
  -- creation leaves the context alone, so the block draws from the agent's own stream
  exact h.trans (h.spawn m count)
    (h.keeps_runExclusive_goto hrun env _ i.next i.offset (final (Exec.spawn count m)))

theorem keeps_performUnary {run : Exec Unit} (hrun : Keeps R run) (env : Environment)
    (i : Instruction) (v : Value) : Keeps R (performUnary env run i v) := by
  cases hquiet : i.command.isExclusive with
  | false => exact h.toQuiet.keeps_performUnary hquiet env run v
  | true =>
    rw [performUnary]
    split
    case h_5 => exact h.keeps_ask hrun env i v
    case h_6 => exact h.keeps_createTurtles hrun env i v
    case h_11 => exact h.keeps_throw _
    all_goals next hc => simp [hc, Command.isExclusive] at hquiet

theorem keeps_perform {run : Exec Unit} (hrun : Keeps R run) (env : Environment)
    (i : Instruction) : Keeps R (perform env run i) := by
  rw [perform]
  split
  · exact h.keeps_bind (h.keeps_evaluateAt env i.args 0) fun v =>
      h.keeps_performUnary hrun env i v
  · split
    · exact h.keeps_withLocalRandomness hrun env i
    · exact h.keeps_carefully hrun env i
    · exact h.keeps_call env i _
    · exact h.keeps_leave
    · exact h.keeps_leave
    · exact h.keeps_die
    · exact h.keeps_layoutSpring env i
    · exact h.keeps_goto i.offset
    · exact h.keeps_countDown i _
    · exact h.keeps_finish
    · exact h.keeps_throw _

/-- What holds across every effect holds across an instruction, if it holds across the runs of its
blocks. -/
theorem execute {run : Exec Unit} (hrun : Keeps R run) (env : Environment) (i : Instruction) :
    Keeps R (execute env run i) := by
  refine Keeps.mapFault _ ?_
  split
  · exact h.keeps_performUnary hrun env i _
  · exact h.keeps_perform hrun env i

-- ════════════════════════════════════════════════════════════════════════
-- Runs
-- ════════════════════════════════════════════════════════════════════════

theorem keeps_fetch (env : Environment) : Keeps R (fetch env) := by
  apply h.keeps_bind (x := readHalt) h.read
  intro raised
  split
  · exact h.keeps_throw _
  · exact h.keeps_bind (fun m => h.refl m) fun c => h.keeps_ofExcept _

/-- What holds across a reading of the halt flag holds across fetching. -/
theorem of_fetch {env : Environment} {i : Instruction} {m m' : Machine}
    (hfetch : Exec.fetch env m = .ok i m') : R m m' := by
  rw [(fetch_eq_ok hfetch).1]
  exact h.read m

/-- What holds across every effect holds across a run to the end of a block. -/
theorem toCompletion (env : Environment) (fuel : Nat) : Keeps R (toCompletion env fuel) := by
  induction fuel with
  | zero =>
    apply Keeps.context_bind
    intro m
    split
    · exact h.refl m
    · exact h.refl m
  | succ fuel ih =>
    refine h.keeps_bind (fun m => h.refl m) fun c => ?_
    split
    · exact h.keeps_pure ()
    · apply h.keeps_bind (h.keeps_fetch env)
      intro i
      exact h.keeps_bind (h.execute ih env i) fun _ => ih

/-- So it holds across an instruction that succeeds. -/
theorem of_execute {env : Environment} {fuel : Nat} {i : Instruction} {m m' : Machine}
    (hexecute : Exec.execute env (Exec.toCompletion env fuel) i m = .ok () m') : R m m' := by
  have hm := h.execute (h.toCompletion env fuel) env i m
  rwa [hexecute] at hm

theorem keeps_atTerminal (env : Environment) : Keeps R (atTerminal env) := by
  refine h.keeps_bind (fun m => h.refl m) fun c => ?_
  apply h.keeps_bind (h.keeps_ofExcept _)
  intro i
  split <;> exact h.keeps_pure _

/-- What holds across every effect holds across a turn. -/
theorem untilSwitch (env : Environment) (fuel : Nat) : Keeps R (untilSwitch env fuel) := by
  induction fuel with
  | zero => exact h.keeps_throw _
  | succ fuel ih =>
    apply h.keeps_bind (h.keeps_fetch env)
    intro i
    apply h.keeps_bind (h.execute (h.toCompletion env fuel) env i)
    intro _
    refine h.keeps_bind (fun m => h.refl m) fun c => ?_
    split
    · exact h.keeps_pure ()
    · split
      · apply h.keeps_bind (h.keeps_atTerminal env)
        intro ended
        exact fun m =>
          h.registers m m.context.ip m.context.errorMessage m.context.lastReported ended
      · exact ih

end Effects

end Exec

end Swarm
