import Swarm.Proofs.Exec.Frames
import Swarm.Proofs.Report

/-!
# Computations that fail tolerably

Hoare triples for computations on the machine, with a condition for the machine of a failing
computation beside the usual one. A fault must be one that may surface; running out of fuel is
allowed everywhere.

## Main definitions

* `Exec.Safe`: the triples
* `Program.Sound`: what assembly guarantees of a program
* `Machine.Sound`: the machines that run such a program
* `Machine.At`: a sound machine that runs a given procedure

## Main results

* `ProgramDef.sound_of_assemble`: assembled programs are sound
-/

namespace Swarm

namespace Exec

variable {α β : Type}

/-- The computation gave a value and a machine with `Q`, or failed tolerably with a machine with
`E`. -/
def Meets (forgiving : Bool) (Q : α → Machine → Prop) (E : Machine → Prop) : Ending α → Prop
  | .ok a m => Q a m
  | .error (.fault f) m => f.Tolerable forgiving ∧ E m
  | .error .exhausted m => E m

/-- From every machine with `P`, the computation ends as `Meets` says. -/
def Safe (forgiving : Bool) (P : Machine → Prop) (x : Exec α) (Q : α → Machine → Prop)
    (E : Machine → Prop) : Prop :=
  ∀ m, P m → Meets forgiving Q E (x m)

variable {forgiving : Bool} {P P' E E' : Machine → Prop} {x : Exec α} {f : α → Exec β}
  {Q Q' : α → Machine → Prop} {R : β → Machine → Prop}

theorem Meets.mono {r : Ending α} (h : Meets forgiving Q E r) (post : ∀ a m, Q a m → Q' a m)
    (failed : ∀ m, E m → E' m) : Meets forgiving Q' E' r := by
  rcases r with ⟨a, m⟩ | ⟨⟨e⟩ | _, m⟩
  · exact post a m h
  · exact ⟨h.1, failed m h.2⟩
  · exact failed m h

theorem Meets.settle {r : Ending α} {g : Machine → Machine} (h : Meets forgiving Q E r)
    (post : ∀ a m, Q a m → Q' a (g m)) (failed : ∀ m, E m → E' (g m)) :
    Meets forgiving Q' E' (settle g r) := by
  rcases r with ⟨a, m⟩ | ⟨⟨e⟩ | _, m⟩
  · exact post a m h
  · exact ⟨h.1, failed m h.2⟩
  · exact failed m h

theorem Safe.mono (h : Safe forgiving P x Q E) (pre : ∀ m, P' m → P m)
    (post : ∀ a m, Q a m → Q' a m) (failed : ∀ m, E m → E' m) : Safe forgiving P' x Q' E' :=
  fun m hm => (h m (pre m hm)).mono post failed

theorem Safe.bind (hx : Safe forgiving P x Q E) (hf : ∀ a, Safe forgiving (Q a) (f a) R E) :
    Safe forgiving P (x >>= f) R E := by
  intro m hm
  have hm' := hx m hm
  rw [bind_apply]
  rcases hr : x m with ⟨a, m'⟩ | ⟨⟨e⟩ | _, m'⟩ <;> rw [hr] at hm'
  · exact hf a m' hm'
  · exact hm'
  · exact hm'

theorem safe_pure {a : α} (h : ∀ m, P m → Q a m) : Safe forgiving P (pure a) Q E :=
  h

theorem safe_exhausted : Safe forgiving P (throw .exhausted : Exec α) Q P :=
  fun _ hm => hm

/-- A computation that looks at the machine first. -/
theorem safe_get {g : Machine → Exec β} (h : ∀ m, P m → Safe forgiving (· = m) (g m) R E) :
    Safe forgiving P ((get : Exec Machine) >>= g) R E :=
  fun m hm => h m hm m rfl

theorem safe_context {g : Context → Exec β}
    (h : ∀ m, P m → Safe forgiving (· = m) (g m.context) R E) :
    Safe forgiving P (context >>= g) R E :=
  fun m hm => h m hm m rfl

/-- A check gives what it promises and leaves the machine as it is. -/
theorem safe_ofExcept {y : Except Fault α} {A : α → Prop} (h : Except.Yields forgiving A y) :
    Safe forgiving P (ofExcept y) (fun a m => A a ∧ P m) P := by
  intro m hm
  cases y with
  | ok a => exact ⟨h, hm⟩
  | error e => exact ⟨h, hm⟩

/-- A check of what a given machine holds. -/
theorem safe_check {y : Except Fault α} {A : α → Prop} {m : Machine} (hm : P m)
    (h : Except.Yields forgiving A y) :
    Safe forgiving (· = m) (ofExcept y) (fun a m' => A a ∧ P m') P := by
  intro m' hm'
  exact safe_ofExcept h m' (hm'.symm ▸ hm)

theorem safe_modify {g : Machine → Machine} {T : Unit → Machine → Prop}
    (h : ∀ m, P m → T () (g m)) : Safe forgiving P (modify g) T E :=
  h

theorem safe_modifyContext {g : Context → Context} {T : Unit → Machine → Prop}
    (h : ∀ m, P m → T () { m with context := g m.context }) :
    Safe forgiving P (modifyContext g) T E :=
  h

theorem Safe.mapFault {change : Machine → Fault → Fault} (h : Safe forgiving P x Q E)
    (hc : ∀ m e, e.Tolerable forgiving → (change m e).Tolerable forgiving) :
    Safe forgiving P (mapFault change x) Q E := by
  intro m hm
  have hx := h m hm
  rw [Exec.mapFault]
  rcases hr : x m with ⟨a, m'⟩ | ⟨⟨e⟩ | _, m'⟩ <;> rw [hr] at hx
  · exact hx
  · exact ⟨hc m' e hx.1, hx.2⟩
  · exact hx

end Exec

-- ════════════════════════════════════════════════════════════════════════
-- Whom a nested job is run for
-- ════════════════════════════════════════════════════════════════════════

theorem Argument.yields_asked {forgiving : Bool} (w : World) (token : String) (v : Value) :
    Except.Yields forgiving (fun _ => True) (asked w token v) := by
  unfold asked
  split
  · split
    · trivial
    · exact Fault.tolerable_ofCause (by rintro ⟨⟩)
  · exact yields_agents token _

theorem Argument.yields_births {forgiving : Bool} (kind : AgentKind) (token : String) (v : Value) :
    Except.Yields forgiving (fun _ => True) (births kind token v) := by
  by_cases observer : kind = .observer
  · rw [births, if_pos observer]
    exact yields_count token v
  · rw [births, if_neg observer]
    exact Fault.tolerable_ofCause (by rintro ⟨⟩)

-- ════════════════════════════════════════════════════════════════════════
-- Sound programs and machines
-- ════════════════════════════════════════════════════════════════════════

/-- What assembly guarantees of a program, against the number of variables of each kind. -/
structure Program.Sound (forgiving : Bool) (slots : AgentKind → Nat) (program : Program) : Prop where
  inside : ∀ {index : Nat} {q : Procedure}, program.procedures[index]? = some q →
    0 < q.code.size ∧ ∀ i ∈ q.code, i.Inside program.procedures.size q.code.size
  fits : ∀ {index : Nat} {q : Procedure}, program.procedures[index]? = some q → ∀ i ∈ q.code,
    ∃ sc : Scope, sc.forgiving = forgiving ∧ sc.slots = slots ∧ sc.procedure.locals = q.locals
      ∧ i.Fits sc
  room : ∀ {index : Nat} {q : Procedure}, program.procedures[index]? = some q →
    ∀ i ∈ q.code, ∀ name callee,
    i.command = .call name callee →
      ∃ q', program.procedures[callee]? = some q' ∧ i.args.length ≤ q'.locals
  kinded : ∀ {index : Nat} {q : Procedure}, program.procedures[index]? = some q → ∀ i ∈ q.code,
    ∀ v ∈ Expr.constantsOf i.args, v.wellKinded = true

/-- Assembled programs with well-kinded constants are sound. -/
theorem ProgramDef.sound_of_assemble {d : ProgramDef} {w : World} {forgiving : Bool}
    {program : Program} (h : d.assemble w forgiving = .ok program)
    (hk : ∀ v ∈ d.constants, v.wellKinded = true) :
    program.Sound forgiving fun kind => (w.table kind).size where
  inside hq := Program.inside_of_verify (assemble_eq_ok h).2.2 hq
  fits hq i hi := by
    obtain ⟨p, _, hlocals, hfits, _⟩ := fits_of_assemble h hq hi
    exact ⟨d.scope w forgiving p, rfl, rfl, hlocals.symm, hfits⟩
  room hq i hi name callee hc := by
    obtain ⟨_, _, _, hfits, _⟩ := fits_of_assemble h hq hi
    obtain ⟨p', hp', hinputs⟩ := hfits.callee name callee hc
    have hlayout : program.procedures[callee]? = some (p'.layout d.procedures) := by
      obtain ⟨_, rfl, _⟩ := assemble_eq_ok h
      have hp'' : d.procedures[callee]? = some p' := hp'
      simp [layout, hp'']
    obtain ⟨p'', hp'', hq', hle, _⟩ := procedure_of_assemble h hlayout
    obtain rfl : p' = p'' := Option.some.inj (hp'.symm.trans hp'')
    exact ⟨_, hlayout, hinputs ▸ hle⟩
  kinded hq i hi v hv := by
    obtain ⟨_, _, _, _, hconstants⟩ := fits_of_assemble h hq hi
    exact hk v (hconstants v hv)

/-- A frame of a procedure of the program, with its locals, all of them well-kinded. -/
structure Frame.Sound (program : Program) (f : Frame) : Prop where
  procedure : ∃ q, program.procedures[f.procedure]? = some q ∧ f.locals.size = q.locals
  kinded : ∀ v ∈ f.locals, v.wellKinded = true

theorem Frame.Sound.set {program : Program} {f g : Frame} (h : f.Sound program) {slot : Nat}
    {v : Value} (hv : v.wellKinded = true) (hs : f.set slot v = .ok g) : g.Sound program := by
  obtain ⟨hprocedure, _, hsize, hself, hother⟩ := eq_of_set hs
  refine ⟨?_, fun x hx => ?_⟩
  · rw [hprocedure, hsize]
    exact h.procedure
  · obtain ⟨k, hk, rfl⟩ := Array.mem_iff_getElem.1 hx
    by_cases hks : k = slot
    · subst hks
      have heq : g.locals[k] = v := by simpa [get, hk] using hself
      rw [heq]
      exact hv
    · have hk' : k < f.locals.size := hsize ▸ hk
      have heq : g.locals[k] = f.locals[k] := by simpa [get, hk, hk'] using hother k hks
      rw [heq]
      exact h.kinded _ (Array.getElem_mem hk')

/-- An assignment to a local that the procedure has succeeds. -/
theorem Frame.set_of_lt {f : Frame} {slot : Nat} (h : slot < f.locals.size) (v : Value) :
    ∃ g, f.set slot v = .ok g := by
  rw [Frame.set, if_pos h]
  exact ⟨_, rfl⟩

theorem Frame.sound_fresh {program : Program} {index : Nat} {q : Procedure}
    (hq : program.procedures[index]? = some q) (returnIp : Nat) :
    (Frame.fresh index q.locals returnIp).Sound program := by
  refine ⟨⟨q, hq, by simp⟩, fun v hv => ?_⟩
  rw [(Array.mem_replicate.1 hv).2]
  rfl

/-- Sound frames, each of which returns into the code of the one below. -/
def FramesSound (program : Program) : List Frame → Prop
  | [] => True
  | [f] => f.Sound program
  | f :: g :: below => f.Sound program
    ∧ (∃ q, program.procedures[g.procedure]? = some q ∧ f.returnIp < q.code.size)
    ∧ FramesSound program (g :: below)

theorem FramesSound.head {program : Program} {f : Frame} {below : List Frame}
    (h : FramesSound program (f :: below)) : f.Sound program := by
  cases below with
  | nil => exact h
  | cons g below => exact h.1

theorem FramesSound.tail {program : Program} {f : Frame} {below : List Frame}
    (h : FramesSound program (f :: below)) : FramesSound program below := by
  cases below with
  | nil => trivial
  | cons g below => exact h.2.2

theorem FramesSound.drop {program : Program} (n : Nat) :
    ∀ {frames : List Frame}, FramesSound program frames → FramesSound program (frames.drop n) := by
  induction n with
  | zero => exact fun h => h
  | succ n ih =>
    intro frames h
    cases frames with
    | nil => exact h
    | cons f below => exact ih h.tail

/-- A frame on top may be replaced by a sound one of the same procedure that returns to the same
place. -/
theorem FramesSound.setTop {program : Program} {f g : Frame} {below : List Frame}
    (h : FramesSound program (f :: below)) (hg : g.Sound program) (like : f.Like g) :
    FramesSound program (g :: below) := by
  cases below with
  | nil => exact hg
  | cons f' below => exact ⟨hg, like.returnIp ▸ h.2.1, h.2.2⟩

/-- Pending work that a sound program can go on with. -/
structure Cursor.Sound (program : Program) (c : Cursor) : Prop where
  frames : FramesSound program c.frames.frames
  base_pos : 0 < c.baseDepth
  base_le : c.baseDepth ≤ c.frames.depth
  ip : ∃ q, program.procedures[c.frames.top.procedure]? = some q ∧ c.ip < q.code.size

/-- A simulation on a sound world with the given numbers of variables. -/
structure Simulation.Sound (slots : AgentKind → Nat) (sim : Simulation) : Prop where
  world : sim.world.Sound
  slots : ∀ kind, slots kind = (sim.world.table kind).size

/-- A machine that a sound program can run on. -/
structure Machine.Sound (slots : AgentKind → Nat) (program : Program) (m : Machine) : Prop where
  simulation : m.toSimulation.Sound slots
  cursor : m.context.toCursor.Sound program

/-- A sound machine that runs the procedure at a place. -/
structure Machine.At (slots : AgentKind → Nat) (program : Program) (p : Nat) (m : Machine) : Prop
    extends Machine.Sound slots program m where
  procedure : m.context.procedure = p

variable {slots : AgentKind → Nat} {program : Program} {p : Nat} {m m' : Machine}

/-- Streams, notices, nesting and registers other than the instruction pointer do not matter. -/
theorem Machine.At.congr (h : m.At slots program p) (world : m'.world = m.world)
    (ip : m'.context.ip = m.context.ip) (frames : m'.context.frames = m.context.frames)
    (baseDepth : m'.context.baseDepth = m.context.baseDepth) : m'.At slots program p where
  simulation := ⟨world.symm ▸ h.simulation.world, world.symm ▸ h.simulation.slots⟩
  cursor :=
    { frames := frames.symm ▸ h.cursor.frames
      base_pos := baseDepth.symm ▸ h.cursor.base_pos
      base_le := by rw [frames, baseDepth]; exact h.cursor.base_le
      ip := by rw [frames, ip]; exact h.cursor.ip }
  procedure := by rw [Context.procedure, frames]; exact h.procedure

theorem Machine.At.withWorld (h : m.At slots program p) {w : World} (sound : w.Sound)
    (tables : w.tables = m.world.tables) : ({ m with world := w } : Machine).At slots program p where
  simulation := ⟨sound, fun kind => by
    have hs : slots kind = (m.world.table kind).size := h.simulation.slots kind
    rw [hs, World.table, World.table, tables]⟩
  cursor := h.cursor
  procedure := h.procedure

/-- The locals of the running procedure. -/
theorem Machine.At.size_locals (h : m.At slots program p) {q : Procedure}
    (hq : program.procedures[p]? = some q) : m.context.frames.top.locals.size = q.locals := by
  obtain ⟨⟨q', hq', hsize⟩, _⟩ := h.cursor.frames.head
  have hproc : m.context.frames.top.procedure = p := h.procedure
  rw [hproc, hq] at hq'
  cases hq'
  exact hsize

theorem Machine.At.setTop (h : m.At slots program p) {f : Frame} (hf : f.Sound program)
    (like : m.context.frames.top.Like f) :
    ({ m with context := { m.context with frames := m.context.frames.setTop f } } : Machine).At
      slots program p where
  simulation := h.simulation
  cursor :=
    { frames := h.cursor.frames.setTop hf like
      base_pos := h.cursor.base_pos
      base_le := h.cursor.base_le
      ip := by
        obtain ⟨q, hq, hip⟩ := h.cursor.ip
        exact ⟨q, like.procedure.symm ▸ hq, hip⟩ }
  procedure := like.procedure.trans h.procedure

end Swarm
