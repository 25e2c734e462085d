import Swarm.Proofs.Exec.Core

/-!
# Runs with enough fuel

A run that has enough fuel ends as it would with any more; with less it runs out. `Exec.Limit` says
so of the endings of one run for every amount of fuel. Runs of the machine are compared with other
runs, which have fuel of their own, by what they end in: either the other run ran out, and then
the machine does with no more fuel, or the runs of the machine have a limit that is alike.

## Main definitions

* `Exec.Exhausted`: a run that ran out of fuel
* `Exec.Limit`: what runs end in once they have enough fuel
* `Exec.Approaches`: runs whose limit is alike to an ending
* `Exec.Calm`: the running call is still the same, and nobody touched the halt flag
* `Exec.Reaches`: machines whose runs go on as those of another machine

## Main results

* `Exec.Approaches.bind`, `Exec.Approaches.mapFault`: comparing runs part by part
* `Exec.approaches_runExclusive`: nested jobs are compared by comparing the runs of agents
-/

namespace Swarm.Exec

variable {α β : Type}

/-- The fuel ran out. -/
def Exhausted : Ending α → Prop
  | .error .exhausted _ => True
  | _ => False

instance (r : Ending α) : Decidable (Exhausted r) :=
  match r with
  | .error .exhausted _ => .isTrue trivial
  | .error (.fault _) _ => .isFalse id
  | .ok _ _ => .isFalse id

/-- With enough fuel the endings `X` are all `r`, and with less the fuel runs out. -/
structure Limit (X : Nat → Ending α) (r : Ending α) : Prop where
  sound : ∀ fuel, Exhausted (X fuel) ∨ X fuel = r
  complete : ∃ enough, ∀ fuel, enough ≤ fuel → X fuel = r

/-- If `y` ran out of fuel, so did the endings `X` with at most `n` units; otherwise they have a
limit that is alike to `y`, whose machine has `Q`. -/
structure Approaches (n : Nat) (Q : Machine → Prop) (X : Nat → Ending α) (y : Ending α) :
    Prop where
  exhausted : Exhausted y → ∀ fuel, fuel ≤ n → Exhausted (X fuel)
  settled : ¬ Exhausted y → ∃ r, Alike r y ∧ Q (final r) ∧ Limit X r

/-- The running call is the same as before, and the halt flag was read at most. -/
structure Calm (m m' : Machine) : Prop extends Steady m m' where
  halt : m.halt.Precedes m'.halt

theorem Calm.refl (m : Machine) : Calm m m :=
  ⟨.refl m, .refl m.halt⟩

theorem Calm.trans {m₁ m₂ m₃ : Machine} (h₁ : Calm m₁ m₂) (h₂ : Calm m₂ m₃) : Calm m₁ m₃ :=
  ⟨h₁.toSteady.trans h₂.toSteady, h₁.halt.trans h₂.halt⟩

theorem Blind.calm {x : Exec α} (hx : Blind x) (m : Machine) : Calm m (final (x m)) :=
  ⟨hx.steady m, .of_eq (hx.halt m)⟩

/-- A flag that nobody touches stays as it is. -/
theorem Calm.untouched {m m' : Machine} (h : Calm m m') (untouched : m.halt.upcoming = []) :
    m'.halt.upcoming = [] := by
  rw [h.halt.eq_of_upcoming_nil untouched, untouched]

theorem Limit.const (r : Ending α) : Limit (fun _ => r) r :=
  ⟨fun _ => .inr rfl, ⟨0, fun _ _ => rfl⟩⟩

theorem exhausted_bind {x : Exec α} {f : α → Exec β} {m : Machine} (h : Exhausted (x m)) :
    Exhausted ((x >>= f) m) := by
  rw [bind_apply]
  rcases hx : x m with ⟨a, m'⟩ | ⟨⟨e⟩ | _, m'⟩ <;> rw [hx] at h
  · cases h
  · cases h
  · trivial

namespace Limit

/-- Some fuel is enough. -/
theorem reached {X : Nat → Ending α} {r : Ending α} (h : Limit X r) : ∃ fuel, X fuel = r := by
  obtain ⟨enough, henough⟩ := h.complete
  exact ⟨enough, henough enough (Nat.le_refl _)⟩

/-- One unit of fuel more. -/
theorem succ {X : Nat → Ending α} {r : Ending α} (zero : Exhausted (X 0))
    (h : Limit (fun j => X (j + 1)) r) : Limit X r := by
  obtain ⟨enough, henough⟩ := h.complete
  refine ⟨fun fuel => ?_, enough + 1, fun fuel hfuel => ?_⟩
  · cases fuel with
    | zero => exact .inl zero
    | succ fuel => exact h.sound fuel
  · obtain ⟨left, rfl⟩ : ∃ left, fuel = left + 1 := ⟨fuel - 1, by omega⟩
    exact henough left (by omega)

/-- Endings that are changed in a way that does not hide that the fuel ran out. -/
theorem map {X : Nat → Ending α} {r : Ending α} {g : Ending α → Ending β} (h : Limit X r)
    (hout : ∀ r, Exhausted r → Exhausted (g r)) : Limit (fun j => g (X j)) (g r) := by
  obtain ⟨enough, henough⟩ := h.complete
  exact ⟨fun fuel => (h.sound fuel).imp (hout _) (congrArg g), enough,
    fun fuel hfuel => congrArg g (henough fuel hfuel)⟩

/-- What follows a computation that fails is not reached. -/
theorem bind_error {X : Nat → Exec α} {m m' : Machine} {e : Stop}
    (h : Limit (fun j => X j m) (.error e m')) (F : Nat → α → Exec β) :
    Limit (fun j => (X j >>= F j) m) (.error e m') := by
  obtain ⟨enough, henough⟩ := h.complete
  exact ⟨fun fuel => (h.sound fuel).imp exhausted_bind bind_of_error, enough,
    fun fuel hfuel => bind_of_error (henough fuel hfuel)⟩

/-- What follows a computation that succeeds. -/
theorem bind {X : Nat → Exec α} {F : Nat → α → Exec β} {m m' : Machine} {a : α} {r : Ending β}
    (hx : Limit (fun j => X j m) (.ok a m')) (hf : Limit (fun j => F j a m') r) :
    Limit (fun j => (X j >>= F j) m) r := by
  obtain ⟨enough, henough⟩ := hx.complete
  obtain ⟨enough', henough'⟩ := hf.complete
  refine ⟨fun fuel => ?_, max enough enough', fun fuel hfuel => ?_⟩
  · rcases hx.sound fuel with hout | heq
    · exact .inl (exhausted_bind hout)
    · show Exhausted ((X fuel >>= F fuel) m) ∨ (X fuel >>= F fuel) m = r
      rw [bind_of_ok heq]
      exact hf.sound fuel
  · show (X fuel >>= F fuel) m = r
    rw [bind_of_ok (henough fuel (by omega))]
    exact henough' fuel (by omega)

end Limit

theorem exhausted_settle {r : Ending α} (f : Machine → Machine) :
    Exhausted (settle f r) ↔ Exhausted r := by
  rcases r with ⟨a, m'⟩ | ⟨⟨e⟩ | _, m'⟩ <;> rfl

theorem Alike.exhausted {r r' : Ending α} (h : Alike r r') : Exhausted r ↔ Exhausted r' := by
  rw [← exhausted_settle Machine.core, h, exhausted_settle]

/-- An ending whose fault is recorded. -/
def recorded (change : Machine → Fault → Fault) : Ending α → Ending α
  | .error (.fault f) m => .error (.fault (change m f)) m
  | r => r

theorem mapFault_apply (change : Machine → Fault → Fault) (x : Exec α) (m : Machine) :
    mapFault change x m = recorded change (x m) := by
  rw [mapFault]
  rcases x m with ⟨a, m'⟩ | ⟨⟨f⟩ | _, m'⟩ <;> rfl

theorem exhausted_recorded (change : Machine → Fault → Fault) (r : Ending α) :
    Exhausted (recorded change r) ↔ Exhausted r := by
  rcases r with ⟨a, m'⟩ | ⟨⟨f⟩ | _, m'⟩ <;> rfl

-- ════════════════════════════════════════════════════════════════════════
-- Comparing runs part by part
-- ════════════════════════════════════════════════════════════════════════

namespace Approaches

variable {n : Nat} {m t : Machine} {Q : Machine → Prop}

/-- A computation that does not depend on fuel. -/
theorem of_alike {x y : Ending α} (h : Alike x y) (hq : Q (final x)) :
    Approaches n Q (fun _ => x) y :=
  ⟨fun he _ _ => h.exhausted.2 he, fun _ => ⟨x, h, hq, .const x⟩⟩

/-- A blind computation from machines with the same core. -/
theorem of_blind {x : Exec α} (hx : Blind x) (h : m.core = t.core) :
    Approaches n (Calm m) (fun _ => x m) (x t) :=
  of_alike (hx.alike h) (hx.calm m)

/-- One computation after another. -/
theorem bind {X : Nat → Exec α} {F : Nat → α → Exec β} {y : Exec α} {f : α → Exec β}
    (hx : Approaches n (Calm m) (fun j => X j m) (y t))
    (hf : ∀ a m' t', m'.core = t'.core → Calm m m' →
      Approaches n (Calm m') (fun j => F j a m') (f a t')) :
    Approaches n (Calm m) (fun j => (X j >>= F j) m) ((y >>= f) t) := by
  by_cases hy : Exhausted (y t)
  · -- the first part ran out, here and there
    have hout : Exhausted ((y >>= f) t) := exhausted_bind hy
    exact ⟨fun _ fuel hfuel => exhausted_bind (hx.exhausted hy fuel hfuel), fun h => absurd hout h⟩
  obtain ⟨r, hr, hq, hlimit⟩ := hx.settled hy
  cases hyt : y t with
  | error e t' =>
    rw [hyt] at hr
    obtain ⟨m', rfl, hcore⟩ := hr.error_right
    have hfault : ¬ Exhausted (.error e t' : Ending β) := by
      rw [hyt] at hy
      cases e <;> exact hy
    rw [bind_of_error hyt]
    exact ⟨fun he => absurd he hfault,
      fun _ => ⟨.error e m', .error e hcore, hq, hlimit.bind_error F⟩⟩
  | ok a t' =>
    rw [hyt] at hr
    obtain ⟨m', rfl, hcore⟩ := hr.ok_right
    rw [bind_of_ok hyt]
    have hrest := hf a m' t' hcore hq
    refine ⟨fun he fuel hfuel => ?_, fun he => ?_⟩
    · rcases hlimit.sound fuel with hout | heq
      · exact exhausted_bind hout
      · show Exhausted ((X fuel >>= F fuel) m)
        rw [bind_of_ok heq]
        exact hrest.exhausted he fuel hfuel
    · obtain ⟨r', hr', hq', hlimit'⟩ := hrest.settled he
      exact ⟨r', hr', hq.trans hq', hlimit.bind hlimit'⟩

/-- Endings that are changed in ways that respect cores and do not hide that the fuel ran out. -/
theorem map {X : Nat → Ending α} {y : Ending α} {g g' : Ending α → Ending β} {R : Machine → Prop}
    (h : Approaches n Q X y) (hout : ∀ r, Exhausted (g r) ↔ Exhausted r)
    (hout' : ∀ r, Exhausted (g' r) ↔ Exhausted r) (hg : ∀ r r', Alike r r' → Alike (g r) (g' r'))
    (hq : ∀ r, Q (final r) → R (final (g r))) : Approaches n R (fun j => g (X j)) (g' y) := by
  refine ⟨fun he fuel hfuel => (hout _).2 (h.exhausted ((hout' y).1 he) fuel hfuel), fun he => ?_⟩
  obtain ⟨r, hr, hqr, hlimit⟩ := h.settled fun hy => he ((hout' y).2 hy)
  exact ⟨g r, hg r y hr, hq r hqr, hlimit.map fun r => (hout r).2⟩

/-- A change of the machine at the end. -/
theorem settle {X : Nat → Ending α} {y : Ending α} {f g : Machine → Machine}
    {R : Machine → Prop} (h : Approaches n Q X y)
    (hfg : ∀ {m t : Machine}, m.core = t.core → (f m).core = (g t).core)
    (hq : ∀ m, Q m → R (f m)) :
    Approaches n R (fun j => settle f (X j)) (Exec.settle g y) := by
  refine h.map (fun _ => exhausted_settle f) (fun _ => exhausted_settle g)
    (fun _ _ hr => hr.settle hfg) fun r hr => ?_
  rw [final_settle]
  exact hq _ hr

/-- Faults recorded in the same way. -/
theorem mapFault {X : Nat → Exec α} {y : Exec α} {change change' : Machine → Fault → Fault}
    (h : Approaches n Q (fun j => X j m) (y t))
    (hc : ∀ {m t : Machine}, m.core = t.core → ∀ f, change m f = change' t f) :
    Approaches n Q (fun j => mapFault change (X j) m) (Exec.mapFault change' y t) := by
  simp only [mapFault_apply]
  refine h.map (exhausted_recorded change) (exhausted_recorded change') (fun r r' hr => ?_)
    fun r hr => ?_
  · rcases r' with ⟨a, t'⟩ | ⟨⟨f⟩ | _, t'⟩
    · obtain ⟨m', rfl, hcore⟩ := hr.ok_right
      exact .ok a hcore
    · obtain ⟨m', rfl, hcore⟩ := hr.error_right
      show Alike (.error (.fault (change m' f)) m') (.error (.fault (change' t' f)) t')
      rw [hc hcore f]
      exact .error _ hcore
    · obtain ⟨m', rfl, hcore⟩ := hr.error_right
      exact .error _ hcore
  · rcases r with ⟨a, m'⟩ | ⟨⟨f⟩ | _, m'⟩ <;> exact hr

end Approaches

-- ════════════════════════════════════════════════════════════════════════
-- Nested jobs
-- ════════════════════════════════════════════════════════════════════════

/-- The runs of the machine from a place of a procedure, at the base of an agent's block and with a
halt flag that nobody touches, are approached by `run`. -/
def RunsAs (env : Environment) (n procedure entry : Nat) (run : Exec Unit) : Prop :=
  ∀ ⦃m t : Machine⦄, m.core = t.core → m.halt.upcoming = [] →
    m.context.procedure = procedure → m.context.ip = entry →
    m.context.baseDepth = m.context.frames.depth → m.context.finished = false →
    Approaches n (fun _ => True) (fun j => toCompletion env j m) (run t)

section Nested

variable {env : Environment} {n procedure entry : Nat} {run : Exec Unit}
  (hrun : RunsAs env n procedure entry run)
include hrun

theorem approaches_runAgent {m t : Machine} (h : m.core = t.core)
    (untouched : m.halt.upcoming = []) (hp : m.context.procedure = procedure) (place : Nat)
    (stream : StreamRef) (a : AgentRef) :
    Approaches n (Calm m) (fun j => runAgent (toCompletion env j) entry stream a m)
      (runAgent run place stream a t) := by
  have hcore : (enterAgent a entry stream m).core = (enterAgent a place stream t).core :=
    congrArg (enterAgent a 0 stream) h
  have hinner := hrun hcore untouched hp rfl rfl rfl
  have hdepth : m.context.frames.depth = t.context.frames.depth :=
    congrArg (fun k => k.context.frames.depth) h
  -- the machine that comes back from the agent's run
  have hframed : Approaches n
      (fun m' => Framed (enterAgent a entry stream m) m' ∧ m.halt.Precedes m'.halt)
      (fun j => toCompletion env j (enterAgent a entry stream m))
      (run (enterAgent a place stream t)) := by
    refine ⟨hinner.exhausted, fun he => ?_⟩
    obtain ⟨r, hr, _, hlimit⟩ := hinner.settled he
    obtain ⟨fuel, hfuel⟩ := hlimit.reached
    refine ⟨r, hr, ?_, hlimit⟩
    rw [← hfuel]
    exact ⟨framed_effects.toCompletion env fuel (enterAgent a entry stream m),
      precedes_effects.toCompletion env fuel (enterAgent a entry stream m)⟩
  simp only [runAgent_eq, within]
  refine hframed.settle (fun {m' t'} h' => ?_) fun m' hm' => ?_
  · have hframes : (m'.context.frames.unwindTo m.context.frames.depth).core
        = (t'.context.frames.unwindTo t.context.frames.depth).core := by
      have h'' : m'.context.frames.core = t'.context.frames.core :=
        congrArg (fun k => k.context.frames) h'
      rw [CallStack.core_unwindTo _ m.context.frames.depth_pos,
        CallStack.core_unwindTo _ t.context.frames.depth_pos, hdepth, h'']
    show ({ m'.core with context := { m.core.context with
        frames := (m'.context.frames.unwindTo m.context.frames.depth).core } } : Machine)
      = { t'.core with context := { t.core.context with
        frames := (t'.context.frames.unwindTo t.context.frames.depth).core } }
    rw [h, h', hframes]
  · obtain ⟨htop, _, _⟩ := frames_leaveAgent hm'.1
    exact ⟨⟨htop, rfl, rfl⟩, hm'.2⟩

theorem approaches_runAgents (place : Nat) (stream : StreamRef) (agents : List AgentRef) :
    ∀ {m t : Machine}, m.core = t.core → m.halt.upcoming = [] →
      m.context.procedure = procedure →
      Approaches n (Calm m) (fun j => runAgents (toCompletion env j) entry stream agents m)
        (runAgents run place stream agents t) := by
  induction agents with
  | nil =>
    intro m t h _ _
    exact .of_blind (blind_pure ()) h
  | cons a rest ih =>
    intro m t h untouched hp
    have hworld : m.world = t.world := congrArg (fun k => k.world) h
    simp only [runAgents_cons]
    rw [hworld]
    split
    · apply (approaches_runAgent hrun h untouched hp place stream a).bind
      intro _ m' t' h' hcalm
      exact ih h' (hcalm.untouched untouched) (hcalm.procedure.trans hp)
    · exact ih h untouched hp

/-- A nested job is approached if the runs of its agents are. -/
theorem approaches_runExclusive {m t : Machine} (h : m.core = t.core)
    (untouched : m.halt.upcoming = []) (hp : m.context.procedure = procedure) (s : AgentSet)
    (place : Nat) (stream : StreamRef) :
    Approaches n (Calm m) (fun j => runExclusive env (toCompletion env j) s entry stream m)
      (runExclusive env run s place stream t) := by
  have hnesting : m.nesting = t.nesting := congrArg (fun k => k.nesting) h
  simp only [runExclusive_eq]
  rw [hnesting]
  split
  · exact .of_blind (blind_throw _) h
  · apply (Approaches.of_blind (blind_drawFrom stream _) h).bind
    intro order m' t' h' hcalm
    have hnested : (enterNested m').core = (enterNested t').core := congrArg enterNested h'
    have hagents := approaches_runAgents hrun place stream order hnested
      (hcalm.untouched untouched) (hcalm.procedure.trans hp)
    refine hagents.settle (fun {m₁ t₁} h₁ => congrArg (leaveNested m₁) h₁) fun m₁ hm₁ => ?_
    exact ⟨⟨hm₁.frames, hm₁.baseDepth, hm₁.finished⟩, hm₁.halt⟩

theorem approaches_withStreamCopy {m t : Machine} (h : m.core = t.core)
    (untouched : m.halt.upcoming = []) (hp : m.context.procedure = procedure) (s : AgentSet)
    (place : Nat) :
    Approaches n (Calm m)
      (fun j => withStreamCopy (fun copy => runExclusive env (toCompletion env j) s entry copy) m)
      (withStreamCopy (fun copy => runExclusive env run s place copy) t) := by
  have hstreams : m.streams = t.streams := congrArg (fun k => k.streams) h
  have hcopy : (enterCopy m).core = (enterCopy t).core := congrArg enterCopy h
  have hblock := approaches_runExclusive hrun hcopy untouched hp s place ⟨m.streams.store.size⟩
  simp only [withStreamCopy_eq, within]
  rw [hstreams] at hblock ⊢
  refine hblock.settle (fun {m₁ t₁} h₁ => ?_) fun m₁ hm₁ => ?_
  · show leaveCopy m.core m₁.core = leaveCopy t.core t₁.core
    rw [h, h₁]
  · exact ⟨⟨hm₁.frames, hm₁.baseDepth, hm₁.finished⟩, hm₁.halt⟩

end Nested

-- ════════════════════════════════════════════════════════════════════════
-- One instruction after another
-- ════════════════════════════════════════════════════════════════════════

variable {env : Environment} {m m' m'' : Machine} {i : Instruction}

/-- The machine is about to carry out an instruction, and nobody will halt it. -/
structure Poised (env : Environment) (m : Machine) (i : Instruction) : Prop where
  live : m.halt = .steady false
  running : m.context.finished = false
  fetched : env.program.instruction m.context.procedure m.context.ip = .ok i

/-- The runs from `m` that do not run out of fuel are runs from `m'` with no more fuel, and runs
from `m` with enough fuel go on as runs from `m'`. -/
structure Reaches (env : Environment) (m m' : Machine) : Prop where
  sound : ∀ fuel, Exhausted (toCompletion env fuel m) ∨
    ∃ left, left ≤ fuel ∧ toCompletion env fuel m = toCompletion env left m'
  complete : ∃ enough spent, ∀ fuel, enough ≤ fuel →
    toCompletion env (fuel + spent) m = toCompletion env fuel m'

theorem toCompletion_zero (h : m.context.finished = false) : Exhausted (toCompletion env 0 m) := by
  rw [toCompletion, context_bind, h]
  trivial

theorem toCompletion_of_finished (h : m.context.finished = true) (fuel : Nat) :
    toCompletion env fuel m = .ok () m := by
  cases fuel <;> rw [toCompletion, context_bind, h] <;> rfl

/-- A flag that nobody touches is found as it is. -/
theorem haltRead_of_untouched (untouched : m.halt.upcoming = []) : m.haltRead = m := by
  have hlater : m.halt.later = m.halt := m.halt.precedes_later.eq_of_upcoming_nil untouched
  rw [Machine.haltRead, hlater]

theorem toCompletion_of_halted (halted : m.halt.isRaised = true)
    (running : m.context.finished = false) (fuel : Nat) :
    toCompletion env (fuel + 1) m = .error (.fault (.ofCause .halted)) m.haltRead := by
  rw [toCompletion_of_running running, bind_of_error (fetch_of_halted halted)]

theorem toCompletion_of_live (live : m.halt.isRaised = false)
    (running : m.context.finished = false)
    (fetched : env.program.instruction m.context.procedure m.context.ip = .ok i) (fuel : Nat) :
    toCompletion env (fuel + 1) m =
      (execute env (toCompletion env fuel) i >>= fun _ => toCompletion env fuel) m.haltRead := by
  rw [toCompletion_of_running running, bind_of_ok (fetch_of_fetched live fetched)]

theorem toCompletion_succ (h : Poised env m i) (fuel : Nat) :
    toCompletion env (fuel + 1) m =
      (execute env (toCompletion env fuel) i >>= fun _ => toCompletion env fuel) m := by
  have live : m.halt.isRaised = false := by
    rw [h.live, HaltFlag.isRaised_steady]
  have untouched : m.halt.upcoming = [] := congrArg HaltFlag.upcoming h.live
  rw [toCompletion_of_live live h.running h.fetched, haltRead_of_untouched untouched]

namespace Reaches

theorem refl (env : Environment) (m : Machine) : Reaches env m m :=
  ⟨fun fuel => .inr ⟨fuel, Nat.le_refl _, rfl⟩, 0, 0, fun _ _ => rfl⟩

theorem trans (h₁ : Reaches env m m') (h₂ : Reaches env m' m'') : Reaches env m m'' := by
  refine ⟨fun fuel => ?_, ?_⟩
  · rcases h₁.sound fuel with hout | ⟨left, hleft, heq⟩
    · exact .inl hout
    rw [heq]
    rcases h₂.sound left with hout | ⟨left', hleft', heq'⟩
    · exact .inl hout
    · exact .inr ⟨left', by omega, heq'⟩
  · obtain ⟨enough₁, spent₁, hgo₁⟩ := h₁.complete
    obtain ⟨enough₂, spent₂, hgo₂⟩ := h₂.complete
    refine ⟨max enough₁ enough₂, spent₂ + spent₁, fun fuel hfuel => ?_⟩
    rw [← Nat.add_assoc, hgo₁ (fuel + spent₂) (by omega), hgo₂ fuel (by omega)]

/-- What runs end in is carried back. -/
theorem limit {r : Ending Unit} (h : Reaches env m m')
    (hr : Limit (fun j => toCompletion env j m') r) :
    Limit (fun j => toCompletion env j m) r := by
  constructor
  · intro fuel
    show Exhausted (toCompletion env fuel m) ∨ toCompletion env fuel m = r
    rcases h.sound fuel with hout | ⟨left, _, heq⟩
    · exact .inl hout
    · rw [heq]
      exact hr.sound left
  · obtain ⟨enough, spent, hgo⟩ := h.complete
    obtain ⟨enough', hgo'⟩ := hr.complete
    refine ⟨max enough enough' + spent, fun fuel hfuel => ?_⟩
    have hsplit : fuel = fuel - spent + spent := by omega
    show toCompletion env fuel m = r
    rw [hsplit, hgo (fuel - spent) (by omega)]
    exact hgo' (fuel - spent) (by omega)

/-- So is running out of fuel. -/
theorem exhausted {n : Nat} (h : Reaches env m m')
    (hout : ∀ fuel, fuel ≤ n → Exhausted (toCompletion env fuel m')) (fuel : Nat)
    (hfuel : fuel ≤ n) : Exhausted (toCompletion env fuel m) := by
  rcases h.sound fuel with hout' | ⟨left, hleft, heq⟩
  · exact hout'
  · rw [heq]
    exact hout left (by omega)

/-- A machine from which one that finished its block is reached ends there. -/
theorem limit_of_finished (h : Reaches env m m') (hm' : m'.context.finished = true) :
    Limit (fun j => toCompletion env j m) (.ok () m') := by
  apply h.limit
  simp only [toCompletion_of_finished hm']
  exact .const _

end Reaches

/-- Carrying out an instruction, given what it ends in with enough fuel for its blocks. -/
theorem reaches_of_execute (h : Poised env m i)
    (hlimit : Limit (fun j => execute env (toCompletion env j) i m) (.ok () m')) :
    Reaches env m m' := by
  constructor
  · intro fuel
    cases fuel with
    | zero => exact .inl (toCompletion_zero h.running)
    | succ fuel =>
      rw [toCompletion_succ h]
      rcases hlimit.sound fuel with hout | heq
      · exact .inl (exhausted_bind hout)
      · exact .inr ⟨fuel, by omega, bind_of_ok heq⟩
  · obtain ⟨enough, hgo⟩ := hlimit.complete
    refine ⟨enough, 1, fun fuel hfuel => ?_⟩
    rw [toCompletion_succ h]
    exact bind_of_ok (hgo fuel hfuel)

/-- An instruction uses up a unit of fuel. -/
theorem exhausted_of_execute {n : Nat} (h : Poised env m i)
    (hlimit : Limit (fun j => execute env (toCompletion env j) i m) (.ok () m'))
    (hout : ∀ fuel, fuel ≤ n → Exhausted (toCompletion env fuel m')) (fuel : Nat)
    (hfuel : fuel ≤ n + 1) : Exhausted (toCompletion env fuel m) := by
  cases fuel with
  | zero => exact toCompletion_zero h.running
  | succ fuel =>
    rw [toCompletion_succ h]
    rcases hlimit.sound fuel with hout' | heq
    · exact exhausted_bind hout'
    · rw [bind_of_ok heq]
      exact hout fuel (by omega)

end Swarm.Exec
