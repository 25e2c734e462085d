import Swarm.Proofs.Exec.Frames
import Swarm.Proofs.Report

/-!
# What a computation sees of the machine

The instruction pointer and the places to return to say where an agent is in the code, and the
register of the last value is only written. `Machine.core` forgets the three. Most computations do
not look at them: from machines with the same core they go on alike. They also leave the frames in
place, so that what comes after them is run by the same call.

## Main definitions

* `Machine.core`: the machine without places in the code
* `Exec.Alike`: computations that ended alike
* `Exec.Steady`: the running call is still the same
* `Exec.Blind`: computations that see the core only and leave the running call and the halt flag as
  they are

## Main results

* `Expr.report_core`: expressions see the core only
* `Exec.Blind.bind`: computations put together from blind ones are blind
-/

namespace Swarm

/-- The frame without the place to return to. -/
def Frame.core (f : Frame) : Frame :=
  { f with returnIp := 0 }

/-- The stack without the places to return to. -/
def CallStack.core (s : CallStack) : CallStack where
  top := s.top.core
  below := s.below.map Frame.core
  maxDepth := s.maxDepth
  depth := s.depth
  depth_eq := by simp [s.depth_eq]

/-- The agent's state without places in the code, and without the value reported last. -/
def Context.core (c : Context) : Context :=
  { c with ip := 0, frames := c.frames.core, lastReported := .nobody }

/-- The machine without places in the code, and without the value reported last. -/
def Machine.core (m : Machine) : Machine :=
  { m with context := m.context.core }

/-- The view without the place to return to. -/
def View.core (v : View) : View :=
  { v with frame := v.frame.core }

theorem CallStack.frames_core (s : CallStack) : s.core.frames = s.frames.map Frame.core :=
  rfl

/-- Stacks with the same frames and the same bound are equal. -/
theorem CallStack.eq_of_frames {s t : CallStack} (frames : s.frames = t.frames)
    (maxDepth : s.maxDepth = t.maxDepth) : s = t := by
  obtain ⟨top, below, max, depth, hd⟩ := s
  obtain ⟨top', below', max', depth', hd'⟩ := t
  obtain ⟨rfl, rfl⟩ := List.cons.inj frames
  subst hd hd'
  cases maxDepth
  rfl

/-- Unwinding does not look at the places to return to. -/
theorem CallStack.core_unwindTo (s : CallStack) {n : Nat} (hn : 0 < n) :
    (s.unwindTo n).core = s.core.unwindTo n := by
  obtain ⟨hframes, hmax⟩ := frames_unwindTo s hn
  obtain ⟨hframes', hmax'⟩ := frames_unwindTo s.core hn
  refine eq_of_frames ?_ (hmax.trans hmax'.symm)
  rw [frames_core, hframes, hframes', base, base, frames_core, List.map_drop]
  rfl

theorem CallStack.push_core (s : CallStack) (f : Frame) :
    s.core.push f.core = (s.push f).map core := by
  show (if s.maxDepth ≤ s.depth then _ else _) = _
  rw [push]
  split <;> rfl

theorem CallStack.pop_core (s : CallStack) :
    s.core.pop = s.pop.map fun p => (p.1.core, p.2.core) := by
  obtain ⟨top, below, maxDepth, depth, hd⟩ := s
  cases below <;> rfl

/-- Two stacks with the same core are popped alike. -/
theorem CallStack.pop_of_core_eq {s t s' : CallStack} {f : Frame} (h : s.core = t.core)
    (hpop : s.pop = .ok (f, s')) : ∃ g t', t.pop = .ok (g, t') ∧ s'.core = t'.core := by
  have hcore : t.core.pop = .ok (f.core, s'.core) := by
    rw [← h, pop_core, hpop]
    rfl
  rw [pop_core] at hcore
  cases ht : t.pop with
  | error e =>
    rw [ht] at hcore
    cases hcore
  | ok p =>
    rw [ht] at hcore
    exact ⟨p.1, p.2, rfl, (congrArg Prod.snd (Except.ok.inj hcore)).symm⟩

theorem Reporter.report0_core (v : View) (r : Reporter) (position : Position) :
    r.report0 v.core position = r.report0 v position := by
  cases r <;> rfl

/-- The value of an expression does not depend on where the running call returns to. -/
theorem Expr.report_core (v : View) : ∀ e : Expr, e.report v.core = e.report v
  | ⟨r, [], position⟩ => by
    rw [report_nil, report_nil, Reporter.report0_core]
    rfl
  | ⟨r, [a], position⟩ => by
    rw [report_one, report_one, report_core v a]
    rfl
  | ⟨r, [a, b], position⟩ => by
    rw [report_two, report_two, report_core v a, report_core v b]
    rfl
  | ⟨r, a :: b :: c :: rest, position⟩ => by
    rw [report, report]
    · rfl
    all_goals simp

namespace Exec

variable {α β : Type}

/-- The computations gave the same value or failed in the same way, with machines of the same
core. -/
def Alike (r r' : Ending α) : Prop :=
  settle Machine.core r = settle Machine.core r'

/-- The running call, what is below it and the base of the agent's block are the same; its locals
may differ. -/
structure Steady (m m' : Machine) : Prop where
  frames : TopLike m.context.frames.frames m'.context.frames.frames
  baseDepth : m'.context.baseDepth = m.context.baseDepth
  finished : m'.context.finished = m.context.finished

/-- A computation that sees the core only and leaves the running call and the halt flag as they
are. -/
structure Blind (x : Exec α) : Prop where
  alike : ∀ {m t : Machine}, m.core = t.core → Alike (x m) (x t)
  steady : Keeps Steady x
  halt : ∀ m, (final (x m)).halt = m.halt

-- ════════════════════════════════════════════════════════════════════════
-- Endings
-- ════════════════════════════════════════════════════════════════════════

namespace Alike

theorem ok {m t : Machine} (a : α) (h : m.core = t.core) : Alike (.ok a m) (.ok a t) :=
  congrArg (EStateM.Result.ok a) h

theorem error {m t : Machine} (e : Stop) (h : m.core = t.core) :
    Alike (.error e m : Ending α) (.error e t) :=
  congrArg (EStateM.Result.error e) h

theorem ok_right {a : α} {t : Machine} {r : Ending α} (h : Alike r (.ok a t)) :
    ∃ m, r = .ok a m ∧ m.core = t.core := by
  cases r with
  | ok b m =>
    obtain ⟨rfl, hm⟩ := EStateM.Result.ok.inj h
    exact ⟨m, rfl, hm⟩
  | error e m => cases h

theorem error_right {e : Stop} {t : Machine} {r : Ending α} (h : Alike r (.error e t)) :
    ∃ m, r = .error e m ∧ m.core = t.core := by
  cases r with
  | ok b m => cases h
  | error e' m =>
    obtain ⟨rfl, hm⟩ := EStateM.Result.error.inj h
    exact ⟨m, rfl, hm⟩

theorem final {r r' : Ending α} (h : Alike r r') :
    (Exec.final r).core = (Exec.final r').core := by
  cases r' with
  | ok a t =>
    obtain ⟨m, rfl, hm⟩ := h.ok_right
    exact hm
  | error e t =>
    obtain ⟨m, rfl, hm⟩ := h.error_right
    exact hm

/-- Computations that ended alike told observers the same. -/
theorem notices {r r' : Ending α} (h : Alike r r') :
    (Exec.final r).notices = (Exec.final r').notices :=
  congrArg (fun k => k.notices) h.final

/-- A change of the machine that respects cores, made at the end. -/
theorem settle {r r' : Ending α} {f g : Machine → Machine} (h : Alike r r')
    (hfg : ∀ {m t : Machine}, m.core = t.core → (f m).core = (g t).core) :
    Alike (settle f r) (settle g r') := by
  cases r' with
  | ok a t =>
    obtain ⟨m, rfl, hm⟩ := h.ok_right
    exact .ok a (hfg hm)
  | error e t =>
    obtain ⟨m, rfl, hm⟩ := h.error_right
    exact .error e (hfg hm)

end Alike

namespace Steady

variable {m m' m'' : Machine}

theorem refl (m : Machine) : Steady m m :=
  ⟨.refl _, rfl, rfl⟩

theorem trans (h₁ : Steady m m') (h₂ : Steady m' m'') : Steady m m'' :=
  ⟨h₁.frames.trans h₂.frames, h₂.baseDepth.trans h₁.baseDepth, h₂.finished.trans h₁.finished⟩

theorem depth (h : Steady m m') : m'.context.frames.depth = m.context.frames.depth := by
  have hlen := h.frames.length_eq
  rwa [CallStack.length_frames, CallStack.length_frames] at hlen

theorem top (h : Steady m m') : m.context.frames.top.Like m'.context.frames.top :=
  h.frames.1

theorem below (h : Steady m m') : m'.context.frames.below = m.context.frames.below :=
  h.frames.2

theorem procedure (h : Steady m m') : m'.context.procedure = m.context.procedure :=
  h.top.procedure

/-- The context keeps its frames, its base and whether it is finished. -/
theorem of_eq (frames : m'.context.frames = m.context.frames)
    (baseDepth : m'.context.baseDepth = m.context.baseDepth)
    (finished : m'.context.finished = m.context.finished) : Steady m m' := by
  refine ⟨?_, baseDepth, finished⟩
  rw [frames]
  exact .refl _

end Steady

-- ════════════════════════════════════════════════════════════════════════
-- Blind computations
-- ════════════════════════════════════════════════════════════════════════

theorem blind_pure (a : α) : Blind (pure a : Exec α) :=
  ⟨fun h => .ok a h, fun m => .refl m, fun _ => rfl⟩

theorem blind_throw (e : Stop) : Blind (throw e : Exec α) :=
  ⟨fun h => .error e h, fun m => .refl m, fun _ => rfl⟩

theorem blind_ofExcept (x : Except Fault α) : Blind (ofExcept x) := by
  cases x with
  | ok a => exact blind_pure a
  | error f => exact blind_throw _

theorem Blind.bind {x : Exec α} {f : α → Exec β} (hx : Blind x) (hf : ∀ a, Blind (f a)) :
    Blind (x >>= f) := by
  constructor
  · intro m t h
    have hr := hx.alike h
    cases ht : x t with
    | ok a t' =>
      rw [ht] at hr
      obtain ⟨m', hm, hcore⟩ := hr.ok_right
      rw [bind_of_ok hm, bind_of_ok ht]
      exact (hf a).alike hcore
    | error e t' =>
      rw [ht] at hr
      obtain ⟨m', hm, hcore⟩ := hr.error_right
      rw [bind_of_error hm, bind_of_error ht]
      exact .error e hcore
  · intro m
    have hm := hx.steady m
    rw [bind_apply]
    cases hr : x m with
    | ok a m' =>
      rw [hr] at hm
      exact hm.trans ((hf a).steady m')
    | error e m' =>
      rw [hr] at hm
      exact hm
  · intro m
    have hm := hx.halt m
    rw [bind_apply]
    cases hr : x m with
    | ok a m' =>
      rw [hr] at hm
      exact ((hf a).halt m').trans hm
    | error e m' =>
      rw [hr] at hm
      exact hm

/-- A computation that looks at the machine first, but only at its core. -/
theorem blind_get {f : Machine → Exec α} (core : ∀ m, f m.core = f m) (hf : ∀ m, Blind (f m)) :
    Blind ((get : Exec Machine) >>= f) := by
  refine ⟨fun {m t} h => ?_, fun m => (hf m).steady m, fun m => (hf m).halt m⟩
  have heq : f m = f t := by rw [← core m, h, core t]
  rw [get_bind, get_bind, heq]
  exact (hf t).alike h

/-- A computation that looks at the running agent first, but only at its core. -/
theorem blind_context {f : Context → Exec α} (core : ∀ c : Context, f c.core = f c)
    (hf : ∀ c, Blind (f c)) : Blind (context >>= f) :=
  blind_get (f := fun m => f m.context) (fun m => core m.context) fun m => hf m.context

theorem blind_drawFrom (r : StreamRef) (d : Draw α) : Blind (drawFrom r d) := by
  constructor
  · intro m t h
    have hstreams : m.streams = t.streams := congrArg (fun k => k.streams) h
    unfold drawFrom
    rw [hstreams]
    cases d (t.streams.get r) with
    | ok a s => exact .ok a (congrArg (fun k => { k with streams := t.streams.set r s }) h)
    | error f s => exact .error _ (congrArg (fun k => { k with streams := t.streams.set r s }) h)
  · intro m
    rw [drawFrom]
    cases d (m.streams.get r) with
    | ok a s => exact .of_eq rfl rfl rfl
    | error f s => exact .of_eq rfl rfl rfl
  · intro m
    rw [drawFrom]
    cases d (m.streams.get r) <;> rfl

theorem blind_draw (d : Draw α) : Blind (draw d) :=
  blind_context (fun _ => rfl) fun _ => blind_drawFrom _ _

theorem blind_report (env : Environment) (e : Expr) : Blind (report env e) :=
  blind_get (fun m => congrArg draw (e.report_core (m.view env))) fun _ => blind_draw _

theorem blind_evaluate (env : Environment) (e : Expr) : Blind (evaluate env e) := by
  refine (blind_report env e).bind fun v => Blind.bind ?_ fun _ => blind_pure v
  exact ⟨fun h => .ok () h, fun _ => .of_eq rfl rfl rfl, fun _ => rfl⟩

theorem blind_evaluateAt (env : Environment) (args : List Expr) (index : Nat) :
    Blind (evaluateAt env args index) := by
  rw [evaluateAt]
  split
  · exact blind_evaluate env _
  · exact blind_throw _

theorem blind_numberAt (env : Environment) (args : List Expr) (index : Nat) (primitive : String) :
    Blind (numberAt env args index primitive) :=
  (blind_evaluateAt env args index).bind fun _ => blind_ofExcept _

theorem blind_agentsetAt (env : Environment) (args : List Expr) (index : Nat)
    (primitive : String) : Blind (agentsetAt env args index primitive) :=
  (blind_evaluateAt env args index).bind fun _ => blind_ofExcept _

theorem blind_getLocal (slot : Nat) : Blind (getLocal slot) :=
  blind_context (fun _ => rfl) fun _ => blind_ofExcept _

theorem blind_setLocal (slot : Nat) (v : Value) : Blind (setLocal slot v) := by
  constructor
  · intro m t h
    have hlocals : m.context.frames.top.locals = t.context.frames.top.locals :=
      congrArg (fun k => k.context.frames.top.locals) h
    rw [setLocal, context_bind, context_bind, Frame.set, Frame.set, hlocals]
    split
    · exact .ok () (congrArg (fun k : Machine => { k with
        context := { k.context with
          frames := k.context.frames.setTop { k.context.frames.top with
            locals := t.context.frames.top.locals.modify slot fun _ => v } } }) h)
    · exact .error _ h
  · intro m
    rw [setLocal, context_bind]
    cases hset : m.context.frames.top.set slot v with
    | ok f =>
      obtain ⟨hprocedure, hreturn, hsize, _⟩ := Frame.eq_of_set hset
      exact ⟨⟨⟨hprocedure, hreturn, hsize⟩, rfl⟩, rfl, rfl⟩
    | error e => exact .refl m
  · intro m
    rw [setLocal, context_bind]
    cases m.context.frames.top.set slot v <;> rfl

theorem blind_writeVariable (a : AgentRef) (slot : Nat) (v : Value) :
    Blind (writeVariable a slot v) := by
  refine blind_get (fun _ => rfl) fun _ => (blind_ofExcept _).bind fun stored => ?_
  exact ⟨fun h => .ok () (congrArg (fun k : Machine => { k with
    world := k.world.store a slot stored
    notices := k.notices.push (.changed a slot stored) }) h), fun _ => .of_eq rfl rfl rfl,
    fun _ => rfl⟩

theorem blind_notify (n : Notice) : Blind (notify n) :=
  ⟨fun h => .ok () (congrArg (fun k : Machine => { k with notices := k.notices.push n }) h),
    fun _ => .of_eq rfl rfl rfl, fun _ => rfl⟩

theorem blind_notifySlots (slots : List (AgentRef × Nat)) : Blind (notifySlots slots) := by
  induction slots with
  | nil => exact blind_pure ()
  | cons p rest ih =>
    refine blind_get (fun _ => rfl) fun _ => (blind_ofExcept _).bind fun v => ?_
    exact (blind_notify _).bind fun _ => ih

theorem blind_relax (nodes links : AgentSet) (springs : Springs) :
    Blind (relax nodes links springs) := by
  refine blind_get (fun _ => rfl) fun _ => (blind_draw _).bind fun laid => ?_
  refine Blind.bind ?_ fun _ => blind_notifySlots laid.1
  exact ⟨fun h => .ok () (congrArg (fun k : Machine => { k with world := laid.2 }) h),
    fun _ => .of_eq rfl rfl rfl, fun _ => rfl⟩

theorem blind_checkKind (token : String) (s : AgentSet) (kind : AgentKind) :
    Blind (checkKind token s kind) := by
  rw [checkKind]
  split
  · exact blind_pure ()
  · exact blind_ofExcept _

theorem blind_spawn (count : Nat) : Blind (spawn count) := by
  constructor
  · intro m t h
    have hworld : m.world = t.world := congrArg (fun k => k.world) h
    have hstreams : m.streams = t.streams := congrArg (fun k => k.streams) h
    have hstream : m.context.stream = t.context.stream := congrArg (fun k => k.context.stream) h
    rw [spawn]
    rw [hworld, hstreams, hstream]
    exact .ok _ (congrArg (fun k : Machine => { k with
      world := (t.world.createTurtles count (t.streams.get t.context.stream)).2.1
      streams := t.streams.set t.context.stream
        (t.world.createTurtles count (t.streams.get t.context.stream)).2.2 }) h)
  · exact fun _ => .of_eq rfl rfl rfl
  · exact fun _ => rfl

end Exec

end Swarm
