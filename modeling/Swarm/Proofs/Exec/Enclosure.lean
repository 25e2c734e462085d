import Swarm.Proofs.Tree.Commands

/-!
# Inside of enclosing constructs

`ask`, `create-turtles`, `with-local-randomness` and `carefully` run their block as a nested job, in
which agents run instructions that may run nested jobs again. The constructs around a machine, the
innermost first, are its enclosures. A fault leaves the run that it arose in, and with it the agent's
turn in the nested job, the nested job and the construct; all of them put back what they changed, and
none of them changes the fault, since it is recorded where it arose. Only `carefully` stops it, if it
is a runtime fault.

## Main definitions

* `Exec.Launches`: an instruction lets an agent of its nested job run
* `Exec.Drives`: an instruction comes to its nested job
* `Exec.abandoned`: the machine that an instruction leaves whose nested job fails
* `Exec.Enclosure`: a construct that is being carried out
* `Exec.Within`: a turn has come to a machine inside of enclosures
* `Exec.Handled`: what a caught fault leaves

## Main results

* `Exec.isOpen_of_execute`: faults of instructions are recorded
* `Exec.Drives.execute_of_error`: an instruction whose nested job fails
* `Exec.Launches.passes`, `Exec.Launches.caught`: one construct
* `Exec.Within.reaches`: a fault comes to the innermost construct that catches it
* `Exec.Within.surfaces`: a fault that is not caught ends the turn
-/

namespace Swarm

-- ════════════════════════════════════════════════════════════════════════
-- Recorded faults
-- ════════════════════════════════════════════════════════════════════════

theorem Site.lookup_annotate (site : Site) (f : Fault) :
    (site.annotate f).lookup "primitive" = some site.primitive := by
  simp [annotate, Fault.note, Fault.lookup, Fault.atOperation]

/-- A fault that was recorded needs no further record. -/
theorem Site.isOpen_bind (site : Site) (f : Fault) : isOpen (site.bind f) = false := by
  have hannotate (g : Fault) (hg : g.kind = .runtime) : isOpen (site.annotate g) = false := by
    simp [isOpen, lookup_annotate, kind_annotate, hg, FaultKind.isAgentValidation]
  unfold bind
  split
  · exact hannotate _ rfl
  · next hvalidation =>
    split
    · next hopen =>
      simp only [Bool.and_eq_true, decide_eq_true_eq] at hopen
      exact hannotate f hopen.1
    · next hclosed =>
      rw [isOpen, Bool.or_eq_false_iff]
      exact ⟨by simpa only [Bool.not_eq_true] using hvalidation,
        by simpa only [Bool.not_eq_true] using hclosed⟩

theorem Program.isOpen_of_instruction {program : Program} {procedure ip : Nat} {f : Fault}
    (h : program.instruction procedure ip = .error f) : Site.isOpen f = false := by
  obtain rfl | ⟨name, rfl⟩ := instruction_eq_error h <;> rfl

namespace Exec

variable {α : Type} {env : Environment} {run : Exec Unit} {i : Instruction} {m m' k k' : Machine}
  {f : Fault}

theorem mapFault_eq_fault {change : Machine → Fault → Fault} {x : Exec α}
    (h : mapFault change x m = .error (.fault f) m') :
    ∃ g, x m = .error (.fault g) m' ∧ f = change m' g := by
  rw [mapFault] at h
  rcases hx : x m with ⟨a, k⟩ | ⟨⟨g⟩ | _, k⟩ <;> rw [hx] at h <;> cases h
  exact ⟨g, rfl, rfl⟩

/-- Faults of instructions are recorded. -/
theorem isOpen_of_execute (h : execute env run i m = .error (.fault f) m') :
    Site.isOpen f = false := by
  obtain ⟨g, _, rfl⟩ := mapFault_eq_fault h
  unfold bindInstruction View.bind
  split
  · exact Site.isOpen_bind _ g
  · next hclosed => simpa using hclosed

/-- Faults of fetching need no record. -/
theorem isOpen_of_fetch (h : fetch env m = .error (.fault f) m') : Site.isOpen f = false := by
  obtain ⟨-, ⟨-, rfl⟩ | hi⟩ := fetch_eq_error h
  · rfl
  · exact Program.isOpen_of_instruction hi

theorem isOpen_of_step (h : (fetch env >>= execute env run) m = .error (.fault f) m') :
    Site.isOpen f = false := by
  cases hi : fetch env m with
  | ok i m₁ =>
    rw [bind_of_ok hi] at h
    exact isOpen_of_execute h
  | error e m₁ =>
    rw [bind_of_error hi] at h
    cases h
    exact isOpen_of_fetch hi

/-- A run in which an instruction fails ends there. -/
theorem bind_of_step_error {e : Stop} {next : Instruction → Exec Unit}
    (h : (fetch env >>= execute env run) m = .error e m') :
    (fetch env >>= fun i => execute env run i >>= fun _ => next i) m = .error e m' := by
  cases hi : fetch env m with
  | ok i m₁ =>
    rw [bind_of_ok hi] at h ⊢
    exact bind_of_error h
  | error e' m₁ =>
    rw [bind_of_error hi] at h ⊢
    exact h

theorem toCompletion_of_step_error {e : Stop} {fuel : Nat} (running : m.context.finished = false)
    (h : (fetch env >>= execute env (toCompletion env fuel)) m = .error e m') :
    toCompletion env (fuel + 1) m = .error e m' := by
  rw [toCompletion_of_running running]
  exact bind_of_step_error h

/-- An instruction passes a recorded fault on as it is. -/
theorem located_of_closed {x : Exec α} (closed : Site.isOpen f = false)
    (h : x m = .error (.fault f) m') :
    Tree.located env i.command i.position x m = .error (.fault f) m' := by
  rw [Tree.located, mapFault, h]
  dsimp only
  rw [View.bind, closed]
  rfl

-- ════════════════════════════════════════════════════════════════════════
-- Nested jobs
-- ════════════════════════════════════════════════════════════════════════

/-- A nested job over a list of agents lets one of them run from `k` on, after those before it have
run to the end of their blocks. -/
inductive Visits (run : Exec Unit) (entry : Nat) (stream : StreamRef) :
    List AgentRef → Machine → Machine → Prop where
  | here {m : Machine} {a : AgentRef} {rest : List AgentRef} : m.world.isAlive a = true →
    Visits run entry stream (a :: rest) m (enterAgent a entry stream m)
  | skip {m k : Machine} {a : AgentRef} {rest : List AgentRef} : m.world.isAlive a = false →
    Visits run entry stream rest m k → Visits run entry stream (a :: rest) m k
  | next {m m₁ k : Machine} {a : AgentRef} {rest : List AgentRef} : m.world.isAlive a = true →
    runAgent run entry stream a m = .ok () m₁ → Visits run entry stream rest m₁ k →
    Visits run entry stream (a :: rest) m k

/-- A nested job over a set lets an agent run from `k` on. -/
inductive Opens (env : Environment) (run : Exec Unit) (s : AgentSet) (entry : Nat)
    (stream : StreamRef) (m k : Machine) : Prop where
  | intro {m₁ : Machine} {order : List AgentRef} : m.nesting < env.limits.nesting →
    drawFrom stream (Draw.ofStream s.visitOrder) m = .ok order m₁ →
    Visits run entry stream order (enterNested m₁) k → Opens env run s entry stream m k

/-- Carrying out an instruction, an agent of its nested job is let run from `k` on. -/
inductive Launches (env : Environment) (run : Exec Unit) (i : Instruction) (m k : Machine) :
    Prop where
  | ask {m₁ : Machine} {v : Value} {s : AgentSet} : i.command = .ask →
    argument env i m = .ok v m₁ → (∀ a, v = .agent a → m₁.world.isAlive a = true) →
    Argument.agents i.command.token v = .ok s →
    Opens env run s i.next m₁.context.stream m₁ k → Launches env run i m k
  | createTurtles {m₁ m₂ : Machine} {v : Value} {count : Nat} {s : AgentSet} :
    i.command = .createTurtles → argument env i m = .ok v m₁ →
    m₁.context.agent.kind = .observer → Argument.count i.command.token v = .ok count →
    spawn count m₁ = .ok s m₂ → Opens env run s i.next m₁.context.stream m₂ k →
    Launches env run i m k
  | withLocalRandomness : i.command = .withLocalRandomness → i.known = none →
    Opens env run (.ofAgent m.context.agent) i.next ⟨m.streams.store.size⟩ (enterCopy m) k →
    Launches env run i m k
  | carefully : i.command = .carefully → i.known = none →
    Opens env run (.ofAgent m.context.agent) i.next m.context.stream m k → Launches env run i m k

variable {entry : Nat} {stream : StreamRef} {agents : List AgentRef} {s : AgentSet} {e : Stop}

theorem Visits.fails (h : Visits run entry stream agents m k) (hk : run k = .error e k') :
    ∃ m', runAgents run entry stream agents m = .error e m' := by
  induction h with
  | @here m a rest alive =>
    have hagent : runAgent run entry stream a m = .error e (leaveAgent m k') := by
      rw [runAgent_eq, within, hk]
      rfl
    rw [runAgents_cons, if_pos alive]
    exact ⟨_, bind_of_error hagent⟩
  | skip dead _ ih =>
    rw [runAgents_cons, if_neg (by simp [dead])]
    exact ih hk
  | next alive hagent _ ih =>
    rw [runAgents_cons, if_pos alive, bind_of_ok hagent]
    exact ih hk

theorem Opens.fails (h : Opens env run s entry stream m k) (hk : run k = .error e k') :
    ∃ m', runExclusive env run s entry stream m = .error e m' := by
  obtain ⟨nesting, hdraw, hvisits⟩ := h
  obtain ⟨m', hm'⟩ := hvisits.fails hk
  rw [runExclusive_eq, if_neg (by omega), bind_of_ok hdraw, within, hm']
  exact ⟨_, rfl⟩

theorem ask_of_alive {v : Value} (alive : ∀ a, v = .agent a → m.world.isAlive a = true)
    (hs : Argument.agents i.command.token v = .ok s) :
    ask env run i v m =
      (runExclusive env run s i.next m.context.stream >>= fun _ => goto i.offset) m := by
  rw [ask_eq, get_bind, Argument.asked_eq_ok.2 ⟨alive, hs⟩, ofExcept_ok, pure_bind]

theorem createTurtles_of_observer {v : Value} {count : Nat}
    (observer : m.context.agent.kind = .observer)
    (hcount : Argument.count i.command.token v = .ok count) (hspawn : spawn count m = .ok s m') :
    createTurtles env run i v m =
      (runExclusive env run s i.next m.context.stream >>= fun _ => goto i.offset) m' := by
  rw [createTurtles_eq, context_bind, Argument.births_eq_ok.2 ⟨observer, hcount⟩, ofExcept_ok,
    pure_bind]
  exact bind_of_ok hspawn

-- ════════════════════════════════════════════════════════════════════════
-- Instructions and their nested jobs
-- ════════════════════════════════════════════════════════════════════════

/-- An instruction that is carried out from `m` comes to its nested job over a set, which draws from
a stream and starts from another machine. -/
inductive Drives (env : Environment) (i : Instruction) (m : Machine) :
    AgentSet → StreamRef → Machine → Prop where
  | ask {m₁ : Machine} {v : Value} {s : AgentSet} : i.command = .ask →
    argument env i m = .ok v m₁ → (∀ a, v = .agent a → m₁.world.isAlive a = true) →
    Argument.agents i.command.token v = .ok s → Drives env i m s m₁.context.stream m₁
  | createTurtles {m₁ m₂ : Machine} {v : Value} {count : Nat} {s : AgentSet} :
    i.command = .createTurtles → argument env i m = .ok v m₁ →
    m₁.context.agent.kind = .observer → Argument.count i.command.token v = .ok count →
    spawn count m₁ = .ok s m₂ → Drives env i m s m₁.context.stream m₂
  | withLocalRandomness : i.command = .withLocalRandomness → i.known = none →
    Drives env i m (.ofAgent m.context.agent) ⟨m.streams.store.size⟩ (enterCopy m)
  | carefully : i.command = .carefully → i.known = none →
    Drives env i m (.ofAgent m.context.agent) m.context.stream m

variable {m₁ : Machine}

/-- An agent of a nested job is let run once its instruction has come to the job. -/
theorem Launches.drives (h : Launches env run i m k) :
    ∃ s stream m₁, Drives env i m s stream m₁ ∧ Opens env run s i.next stream m₁ k := by
  cases h with
  | ask command hv alive hs hopens => exact ⟨_, _, _, .ask command hv alive hs, hopens⟩
  | createTurtles command hv observer hcount hspawn hopens =>
    exact ⟨_, _, _, .createTurtles command hv observer hcount hspawn, hopens⟩
  | withLocalRandomness command known hopens =>
    exact ⟨_, _, _, .withLocalRandomness command known, hopens⟩
  | carefully command known hopens => exact ⟨_, _, _, .carefully command known, hopens⟩

theorem Drives.launches (h : Drives env i m s stream m₁)
    (hopens : Opens env run s i.next stream m₁ k) : Launches env run i m k := by
  cases h with
  | ask command hv alive hs => exact .ask command hv alive hs hopens
  | createTurtles command hv observer hcount hspawn =>
    exact .createTurtles command hv observer hcount hspawn hopens
  | withLocalRandomness command known => exact .withLocalRandomness command known hopens
  | carefully command known => exact .carefully command known hopens

/-- The machine that an instruction leaves whose nested job ended at `m'` in a fault. A copy of the
main stream that was made for the job is gone. -/
def abandoned (i : Instruction) (m m' : Machine) : Machine :=
  if i.command = .withLocalRandomness then leaveCopy m m' else m'

theorem abandoned_of_ne (h : i.command ≠ .withLocalRandomness) (m m' : Machine) :
    abandoned i m m' = m' :=
  if_neg h

/-- An instruction whose nested job ends in a recorded fault ends in it too, unless it catches
it. -/
theorem Drives.execute_of_error (h : Drives env i m s stream m₁)
    (hjob : runExclusive env run s i.next stream m₁ = .error (.fault f) m')
    (closed : Site.isOpen f = false) (uncaught : i.command = .carefully → f.kind ≠ .runtime) :
    execute env run i m = .error (.fault f) (abandoned i m m') := by
  cases h with
  | ask command hv alive hs =>
    rw [abandoned_of_ne (by simp [command]), execute_of_unary (by rw [command]; rfl)]
    refine located_of_closed closed ?_
    simp only [bind_of_ok hv, performUnary, command]
    rw [ask_of_alive alive hs, bind_of_error hjob]
  | createTurtles command hv observer hcount hspawn =>
    rw [abandoned_of_ne (by simp [command]), execute_of_unary (by rw [command]; rfl)]
    refine located_of_closed closed ?_
    simp only [bind_of_ok hv, performUnary, command]
    rw [createTurtles_of_observer observer hcount hspawn, bind_of_error hjob]
  | withLocalRandomness command known =>
    rw [abandoned, if_pos command, execute_of_known known]
    refine located_of_closed closed ?_
    simp only [perform, command]
    show Exec.withLocalRandomness env run i m = _
    rw [Exec.withLocalRandomness, context_bind]
    apply bind_of_error
    rw [withStreamCopy_eq, within, hjob]
    rfl
  | carefully command known =>
    rw [abandoned_of_ne (by simp [command]), execute_of_known known]
    refine located_of_closed closed ?_
    simp only [perform, command]
    show Exec.carefully env run i m = _
    rw [carefully_goto, Tree.carefully]
    apply bind_of_error
    rw [context_bind, Tree.caught_apply, hjob, Tree.caughtEnding, if_neg (uncaught command)]

/-- A recorded fault of a nested job passes through its construct, unless `carefully` catches it. -/
theorem Launches.passes (h : Launches env run i m k) (hk : run k = .error (.fault f) k')
    (closed : Site.isOpen f = false) (uncaught : i.command = .carefully → f.kind ≠ .runtime) :
    ∃ m', execute env run i m = .error (.fault f) m' := by
  obtain ⟨s, stream, m₁, hdrives, hopens⟩ := h.drives
  obtain ⟨m', hm'⟩ := hopens.fails hk
  exact ⟨_, hdrives.execute_of_error hm' closed uncaught⟩

-- ════════════════════════════════════════════════════════════════════════
-- Caught faults
-- ════════════════════════════════════════════════════════════════════════

/-- What a nested job leaves of the machine: the context is as before but for the locals of the
running call. -/
structure HandsBack (m m' : Machine) : Prop where
  context : m'.context = { m.context with frames := m'.context.frames }
  frames : TopLike m.context.frames.frames m'.context.frames.frames
  nesting : m'.nesting = m.nesting

theorem HandsBack.refl (m : Machine) : HandsBack m m :=
  ⟨rfl, .refl _, rfl⟩

theorem HandsBack.trans (h : HandsBack m m') (h' : HandsBack m' k) : HandsBack m k := by
  refine ⟨?_, h.frames.trans h'.frames, h'.nesting.trans h.nesting⟩
  rw [h'.context, h.context]

section Runs

variable (framed : Keeps Framed run) (seated : Keeps SameSeat run)
include framed seated

theorem handsBack_runAgent (entry : Nat) (stream : StreamRef) (a : AgentRef) (m : Machine) :
    HandsBack m (final (runAgent run entry stream a m)) := by
  rw [runAgent_eq, within, final_settle]
  obtain ⟨hframes, _, _⟩ := frames_leaveAgent (framed (enterAgent a entry stream m))
  exact ⟨rfl, hframes, (seated (enterAgent a entry stream m)).nesting⟩

theorem handsBack_runAgents (entry : Nat) (stream : StreamRef) (agents : List AgentRef)
    (m : Machine) : HandsBack m (final (runAgents run entry stream agents m)) := by
  induction agents generalizing m with
  | nil => exact .refl m
  | cons a rest ih =>
    rw [runAgents_cons]
    split
    · have hagent := handsBack_runAgent framed seated entry stream a m
      rw [bind_apply]
      cases hr : runAgent run entry stream a m with
      | ok _ m₁ =>
        rw [hr] at hagent
        exact hagent.trans (ih m₁)
      | error e m₁ =>
        rw [hr] at hagent
        exact hagent
    · exact ih m

theorem handsBack_runExclusive (env : Environment) (s : AgentSet) (entry : Nat)
    (stream : StreamRef) (m : Machine) :
    HandsBack m (final (runExclusive env run s entry stream m)) := by
  rw [runExclusive_eq]
  split
  · exact .refl m
  · simp only [bind_apply, drawFrom, Draw.ofStream]
    rw [within, final_settle]
    have hagents := handsBack_runAgents framed seated entry stream
      (s.visitOrder (m.streams.get stream)).1
      (enterNested { m with
        streams := m.streams.set stream (s.visitOrder (m.streams.get stream)).2 })
    refine ⟨hagents.context, hagents.frames, ?_⟩
    show _ - 1 = m.nesting
    rw [hagents.nesting]
    rfl

end Runs

/-- The machine after a fault was caught: the agent goes on at the second block with the message of
the fault, in the call and as deep as before. -/
structure Handled (i : Instruction) (f : Fault) (m m' : Machine) : Prop where
  context : m'.context = { m.context with
    ip := i.alternate
    errorMessage := some f.message
    frames := m'.context.frames }
  frames : TopLike m.context.frames.frames m'.context.frames.frames
  depth : m'.context.frames.depth = m.context.frames.depth
  nesting : m'.nesting = m.nesting

/-- A runtime fault in the first block of `carefully` is caught. -/
theorem Launches.caught (h : Launches env run i m k) (catches : i.command = .carefully)
    (framed : Keeps Framed run) (seated : Keeps SameSeat run)
    (hk : run k = .error (.fault f) k') (runtime : f.kind = .runtime) :
    ∃ m', execute env run i m = .ok () m' ∧ Handled i f m m' := by
  cases h with
  | ask command => simp [command] at catches
  | createTurtles command => simp [command] at catches
  | withLocalRandomness command => simp [command] at catches
  | carefully command known hopens =>
    obtain ⟨m₁, hm₁⟩ := hopens.fails hk
    have hback : HandsBack m m₁ := by
      have hfinal := handsBack_runExclusive framed seated env (.ofAgent m.context.agent) i.next
        m.context.stream m
      rwa [hm₁] at hfinal
    have hdepth := hback.frames.length_eq
    rw [CallStack.length_frames, CallStack.length_frames] at hdepth
    refine ⟨{ m₁ with context := { m₁.context with
      errorMessage := some f.message, ip := i.alternate } }, ?_, ?_, hback.frames, hdepth,
      hback.nesting⟩
    · rw [execute_of_known known, Tree.located, mapFault]
      have hcaught : perform env run i m = .ok () { m₁ with context := { m₁.context with
          errorMessage := some f.message, ip := i.alternate } } := by
        simp only [perform, command]
        show Exec.carefully env run i m = _
        rw [carefully_goto, Tree.carefully, bind_apply, context_bind, Tree.caught_apply, hm₁,
          Tree.caughtEnding, if_pos runtime]
        rfl
      rw [hcaught]
    · exact congrArg (fun c : Context => { c with
        errorMessage := some f.message, ip := i.alternate }) hback.context

-- ════════════════════════════════════════════════════════════════════════
-- Enclosures
-- ════════════════════════════════════════════════════════════════════════

/-- A run has come from `m` to `m'` by instructions that succeeded, and the agent has work left. -/
inductive Proceeds (env : Environment) (stops : Instruction → Bool) :
    Nat → Machine → Nat → Machine → Prop where
  | refl {fuel : Nat} {m : Machine} : m.context.finished = false →
    Proceeds env stops fuel m fuel m
  | step {fuel left : Nat} {m m₁ m₂ m' : Machine} {i : Instruction} : m.context.finished = false →
    fetch env m = .ok i m₁ → execute env (toCompletion env fuel) i m₁ = .ok () m₂ →
    stops i = false → Proceeds env stops fuel m₂ left m' →
    Proceeds env stops (fuel + 1) m left m'

/-- A construct that is being carried out, with the machine after its instruction was fetched and
the fuel for its block. -/
structure Enclosure where
  instruction : Instruction
  machine : Machine
  fuel : Nat

/-- The construct catches runtime faults of its first block. -/
def Enclosure.Catches (x : Enclosure) : Prop :=
  x.instruction.command = .carefully

/-- A turn that started at `start` has come to a machine inside of enclosures, the innermost of them
first. -/
inductive Within (env : Environment) (fuel : Nat) (start : Machine) :
    List Enclosure → Nat → Machine → Prop where
  | turn {left : Nat} {m : Machine} : Proceeds env Instruction.switches fuel start left m →
    Within env fuel start [] left m
  | nested {path : List Enclosure} {x : Enclosure} {left : Nat} {m₀ k m : Machine} :
    Within env fuel start path (x.fuel + 1) m₀ → fetch env m₀ = .ok x.instruction x.machine →
    Launches env (toCompletion env x.fuel) x.instruction x.machine k →
    Proceeds env (fun _ => false) x.fuel k left m → Within env fuel start (x :: path) left m

namespace Proceeds

variable {stops : Instruction → Bool} {fuel left : Nat}

theorem starts (h : Proceeds env stops fuel m left m') : m.context.finished = false := by
  cases h with
  | refl running => exact running
  | step running => exact running

theorem running (h : Proceeds env stops fuel m left m') : m'.context.finished = false := by
  induction h with
  | refl running => exact running
  | step _ _ _ _ _ ih => exact ih

theorem toCompletion_eq (h : Proceeds env stops fuel m left m') :
    toCompletion env fuel m = toCompletion env left m' := by
  induction h with
  | refl => rfl
  | step running hfetch hexecute _ _ ih =>
    rw [toCompletion_of_running running, bind_of_ok hfetch, bind_of_ok hexecute]
    exact ih

theorem untilSwitch_eq (h : Proceeds env Instruction.switches fuel m left m') :
    untilSwitch env fuel m = untilSwitch env left m' := by
  induction h with
  | refl => rfl
  | step _ hfetch hexecute goes hrest ih =>
    rw [untilSwitch_succ, bind_of_ok hfetch, bind_of_ok hexecute,
      restOfTurn_of_running _ _ hrest.starts, goes]
    exact ih

/-- One more instruction. -/
theorem snoc (h : Proceeds env stops fuel m (left + 1) m') (hfetch : fetch env m' = .ok i m₁)
    (hexecute : execute env (toCompletion env left) i m₁ = .ok () k) (goes : stops i = false)
    (hk : k.context.finished = false) : Proceeds env stops fuel m left k := by
  generalize hleft : left + 1 = bound at h
  induction h with
  | refl running =>
    subst hleft
    exact .step running hfetch hexecute goes (.refl hk)
  | step running hfetch' hexecute' goes' _ ih =>
    exact .step running hfetch' hexecute' goes' (ih hfetch hleft)

end Proceeds

namespace Within

variable {fuel left : Nat} {start : Machine} {path inner outer : List Enclosure} {x : Enclosure}

theorem running (h : Within env fuel start path left m) : m.context.finished = false := by
  cases h with
  | turn hgoes => exact hgoes.running
  | nested _ _ _ hgoes => exact hgoes.running

/-- One more instruction of the innermost run, unless it ends the turn. -/
theorem snoc (h : Within env fuel start path (left + 1) m) (hfetch : fetch env m = .ok i m₁)
    (hexecute : execute env (toCompletion env left) i m₁ = .ok () k)
    (goes : path ≠ [] ∨ i.switches = false) (hk : k.context.finished = false) :
    Within env fuel start path left k := by
  cases h with
  | turn hgoes =>
    exact .turn (hgoes.snoc hfetch hexecute (goes.resolve_left fun h => h rfl) hk)
  | nested houter hopen hlaunches hgoes =>
    exact .nested houter hopen hlaunches (hgoes.snoc hfetch hexecute rfl hk)

/-- A recorded fault of a nested run comes to the enclosure `x` if none inside of it catches it. -/
theorem reaches (h : Within env fuel start (inner ++ x :: outer) left m)
    (fails : toCompletion env left m = .error (.fault f) m') (closed : Site.isOpen f = false)
    (uncaught : ∀ y ∈ inner, y.Catches → f.kind ≠ .runtime) :
    ∃ m₀, Within env fuel start outer (x.fuel + 1) m₀
      ∧ fetch env m₀ = .ok x.instruction x.machine
      ∧ ∃ k k', Launches env (toCompletion env x.fuel) x.instruction x.machine k
        ∧ toCompletion env x.fuel k = .error (.fault f) k' := by
  induction inner generalizing left m m' with
  | nil =>
    cases h with
    | nested houter hfetch hlaunches hgoes =>
      exact ⟨_, houter, hfetch, _, _, hlaunches, hgoes.toCompletion_eq.trans fails⟩
  | cons y inner ih =>
    cases h with
    | @nested _ _ _ m₀ _ _ houter hfetch hlaunches hgoes =>
      obtain ⟨k', hk'⟩ := hlaunches.passes (hgoes.toCompletion_eq.trans fails) closed
        (uncaught y (by simp))
      have hstep : (fetch env >>= execute env (toCompletion env y.fuel)) m₀ =
          .error (.fault f) k' := by
        rw [bind_of_ok hfetch, hk']
      exact ih houter (toCompletion_of_step_error houter.running hstep) fun z hz =>
        uncaught z (by simp [hz])

/-- A fault that is not caught ends the turn. -/
theorem surfaces (h : Within env fuel start path (left + 1) m)
    (fails : (fetch env >>= execute env (toCompletion env left)) m = .error (.fault f) m')
    (uncaught : ∀ x ∈ path, x.Catches → f.kind ≠ .runtime) :
    ∃ k, untilSwitch env fuel start = .error (.fault f) k := by
  have closed := isOpen_of_step fails
  have hturn {left : Nat} {m m' : Machine}
      (hgoes : Proceeds env Instruction.switches fuel start (left + 1) m)
      (hm : (fetch env >>= execute env (toCompletion env left)) m = .error (.fault f) m') :
      untilSwitch env fuel start = .error (.fault f) m' := by
    rw [hgoes.untilSwitch_eq, untilSwitch_succ]
    exact bind_of_step_error hm
  rcases List.eq_nil_or_concat path with rfl | ⟨inner, x, rfl⟩
  · cases h with
    | turn hgoes => exact ⟨_, hturn hgoes fails⟩
  · rw [List.concat_eq_append] at h uncaught
    -- the fault comes to the outermost construct, and passes through it into the turn
    obtain ⟨_, houter, hfetch, k, k', hlaunches, hk⟩ := h.reaches
      (toCompletion_of_step_error h.running fails) closed fun y hy => uncaught y (by simp [hy])
    obtain ⟨m₁, hm₁⟩ := hlaunches.passes hk closed (uncaught x (by simp))
    cases houter with
    | turn hgoes =>
      refine ⟨m₁, hturn hgoes ?_⟩
      rw [bind_of_ok hfetch, hm₁]

/-- A runtime fault is caught by the innermost `carefully` around it. The run of this construct goes
on after it; a turn that the construct ends is over. -/
theorem caught (h : Within env fuel start (inner ++ x :: outer) (left + 1) m)
    (fails : (fetch env >>= execute env (toCompletion env left)) m = .error (.fault f) m')
    (runtime : f.kind = .runtime) (uncaught : ∀ y ∈ inner, ¬ y.Catches) (catches : x.Catches) :
    ∃ after, execute env (toCompletion env x.fuel) x.instruction x.machine = .ok () after
      ∧ Handled x.instruction f x.machine after
      ∧ (outer ≠ [] ∨ x.instruction.switches = false → Within env fuel start outer x.fuel after)
      ∧ (outer = [] → x.instruction.switches = true →
        untilSwitch env fuel start = endTurn env after) := by
  obtain ⟨_, houter, hfetch, k, k', hlaunches, hk⟩ := h.reaches
    (toCompletion_of_step_error h.running fails) (isOpen_of_step fails)
    fun y hy hc => absurd hc (uncaught y hy)
  obtain ⟨after, hexecute, hhandled⟩ := hlaunches.caught catches
    (framed_effects.toCompletion env x.fuel) (sameSeat_effects.toCompletion env x.fuel) hk runtime
  have hrunning : after.context.finished = false := by
    rw [hhandled.context, (fetch_eq_ok hfetch).1]
    exact houter.running
  refine ⟨after, hexecute, hhandled, fun goes => houter.snoc hfetch hexecute goes hrunning, ?_⟩
  rintro rfl switches
  cases houter with
  | turn hgoes =>
    rw [hgoes.untilSwitch_eq, untilSwitch_succ, bind_of_ok hfetch, bind_of_ok hexecute,
      restOfTurn_of_running _ _ hrunning, switches]
    rfl

end Within

end Exec

end Swarm
