import Swarm.Proofs.Provenance.Instruction

/-!
# Instructions that drive nested jobs

`ask`, `create-turtles`, `with-local-randomness` and `carefully` first find out over which set and
from which stream their nested job is run, then run it, and then move on. If such an instruction
succeeds, then the nested job came to an end, or failed with a fault that was caught. The context
that comes back from the job is the one that went into it, but for the locals of its call.

## Main definitions

* `Exec.Concludes`: what an instruction makes of how its nested job ended

## Main results

* `Exec.Launches.enters`: how an agent of a nested job begins
* `Exec.drives_of_execute`: instructions that drive a nested job and succeed
* `Exec.Quiet.drives`: what holds across the quiet effects holds until the nested job starts
-/

namespace Swarm.Exec

variable {α : Type} {env : Environment} {run : Exec Unit} {i : Instruction} {m m₁ m' k : Machine}
  {s : AgentSet} {stream : StreamRef} {f : Fault}

/-- What an instruction that was carried out from `m` makes of the end of its nested job. -/
inductive Concludes (i : Instruction) (m : Machine) : Ending Unit → Machine → Prop where
  | ended {m₂ : Machine} :
    Concludes i m (.ok () m₂) { m₂ with context := { m₂.context with ip := i.offset } }
  | copied {m₂ : Machine} :
    Concludes i m (.ok () m₂) { leaveCopy m m₂ with
      context := { (leaveCopy m m₂).context with ip := i.offset } }
  | caught {m₂ : Machine} {f : Fault} : i.command = .carefully → f.kind = .runtime →
    Concludes i m (.error (.fault f) m₂) { m₂ with
      context := { m₂.context with errorMessage := some f.message, ip := i.alternate } }

-- ════════════════════════════════════════════════════════════════════════
-- Agents of nested jobs
-- ════════════════════════════════════════════════════════════════════════

/-- An agent of a nested job is alive when it begins, and its context is a fresh one. -/
theorem Visits.enters {entry : Nat} {agents : List AgentRef}
    (h : Visits run entry stream agents m k) :
    ∃ a m₁, m₁.world.isAlive a = true ∧ k = enterAgent a entry stream m₁ := by
  induction h with
  | @here m a _ alive => exact ⟨a, m, alive, rfl⟩
  | skip _ _ ih => exact ih
  | next _ _ _ ih => exact ih

theorem Opens.enters {entry : Nat} (h : Opens env run s entry stream m k) :
    ∃ a m₁, m₁.world.isAlive a = true ∧ k = enterAgent a entry stream m₁ := by
  obtain ⟨_, _, hvisits⟩ := h
  exact hvisits.enters

theorem Launches.enters (h : Launches env run i m k) :
    ∃ a stream m₁, m₁.world.isAlive a = true ∧ k = enterAgent a i.next stream m₁ := by
  obtain ⟨_, stream, _, _, hopens⟩ := h.drives
  obtain ⟨a, hk⟩ := hopens.enters
  exact ⟨a, stream, hk⟩

/-- An instruction leaves the world that its nested job left. -/
theorem Concludes.world {r : Ending Unit} (h : Concludes i m r m') :
    m'.world = (final r).world := by
  cases h <;> rfl

theorem mapFault_eq_ok {change : Machine → Fault → Fault} {x : Exec α} {a : α}
    (h : mapFault change x m = .ok a m') : x m = .ok a m' := by
  rw [mapFault_apply] at h
  rcases hx : x m with ⟨b, k⟩ | ⟨⟨g⟩ | _, k⟩ <;> rw [hx] at h
  · exact h
  · cases h
  · cases h

/-- A computation that begins with a check and succeeds has passed the check. -/
theorem ofExcept_bind_eq_ok {β : Type} {x : Except Fault α} {g : α → Exec β} {b : β}
    (h : (ofExcept x >>= g) m = .ok b m') : ∃ a, x = .ok a ∧ g a m = .ok b m' := by
  cases x with
  | ok a => exact ⟨a, rfl, h⟩
  | error f => cases h

-- ════════════════════════════════════════════════════════════════════════
-- Instructions that succeed
-- ════════════════════════════════════════════════════════════════════════

theorem drives_of_ask {v : Value} (command : i.command = .ask) (hv : argument env i m = .ok v m₁)
    (h : ask env run i v m₁ = .ok () m') :
    ∃ s stream m₂, Drives env i m s stream m₂
      ∧ Concludes i m (runExclusive env run s i.next stream m₂) m' := by
  rw [ask_eq, get_bind] at h
  obtain ⟨s, hs, h⟩ := ofExcept_bind_eq_ok h
  obtain ⟨alive, hs⟩ := Argument.asked_eq_ok.1 hs
  obtain ⟨_, m₂, hrun, hgoto⟩ := bind_eq_ok h
  cases hgoto
  refine ⟨s, _, m₁, .ask command hv alive hs, ?_⟩
  rw [hrun]
  exact .ended

theorem drives_of_createTurtles {v : Value} (command : i.command = .createTurtles)
    (hv : argument env i m = .ok v m₁) (h : createTurtles env run i v m₁ = .ok () m') :
    ∃ s stream m₂, Drives env i m s stream m₂
      ∧ Concludes i m (runExclusive env run s i.next stream m₂) m' := by
  rw [createTurtles_eq, context_bind] at h
  obtain ⟨count, hcount, h⟩ := ofExcept_bind_eq_ok h
  obtain ⟨observer, hcount⟩ := Argument.births_eq_ok.1 hcount
  obtain ⟨created, m₂, hspawn, h⟩ := bind_eq_ok h
  obtain ⟨_, m₃, hrun, hgoto⟩ := bind_eq_ok h
  cases hgoto
  refine ⟨created, _, m₂, .createTurtles command hv observer hcount hspawn, ?_⟩
  rw [hrun]
  exact .ended

theorem drives_of_withLocalRandomness (command : i.command = .withLocalRandomness)
    (known : i.known = none) (h : withLocalRandomness env run i m = .ok () m') :
    ∃ s stream m₂, Drives env i m s stream m₂
      ∧ Concludes i m (runExclusive env run s i.next stream m₂) m' := by
  rw [withLocalRandomness_goto] at h
  obtain ⟨_, m₂, hscope, hgoto⟩ := bind_eq_ok h
  cases hgoto
  rw [Tree.withLocalRandomness, context_bind, withStreamCopy_eq, within] at hscope
  refine ⟨_, _, _, .withLocalRandomness command known, ?_⟩
  cases hrun : runExclusive env run (.ofAgent m.context.agent) i.next ⟨m.streams.store.size⟩
      (enterCopy m) with
  | ok _ m₃ =>
    rw [hrun] at hscope
    cases hscope
    exact .copied
  | error e m₃ =>
    rw [hrun] at hscope
    cases hscope

theorem drives_of_carefully (command : i.command = .carefully) (known : i.known = none)
    (h : carefully env run i m = .ok () m') :
    ∃ s stream m₂, Drives env i m s stream m₂
      ∧ Concludes i m (runExclusive env run s i.next stream m₂) m' := by
  rw [carefully_goto] at h
  obtain ⟨caught, m₂, hblock, hgoto⟩ := bind_eq_ok h
  cases hgoto
  rw [Tree.carefully, context_bind, Tree.caught_apply] at hblock
  refine ⟨_, _, m, .carefully command known, ?_⟩
  rcases hrun : runExclusive env run (.ofAgent m.context.agent) i.next m.context.stream m with
    ⟨_, m₃⟩ | ⟨⟨f⟩ | _, m₃⟩ <;> rw [hrun] at hblock
  · cases hblock
    exact .ended
  · rw [Tree.caughtEnding] at hblock
    split at hblock
    · next runtime =>
      cases hblock
      exact .caught command runtime
    · cases hblock
  · cases hblock

/-- A command that takes no single argument succeeds only if it is given none. -/
theorem known_of_multiple (multiple : i.command.isUnary = false)
    (h : carryOut env run i m = .ok () m') : i.known = none := by
  cases known : i.known with
  | none => rfl
  | some v =>
    rw [carryOut, known] at h
    simp only [performUnary_of_multiple multiple] at h
    cases h

theorem die_of_execute (dies : i.command = .die) (h : execute env run i m = .ok () m') :
    die m = .ok () m' := by
  rw [execute_eq_carryOut] at h
  have hcarry := mapFault_eq_ok h
  rw [carryOut_of_known (known_of_multiple (by rw [dies]; rfl) hcarry), perform] at hcarry
  simp only [dies] at hcarry
  exact hcarry

/-- An instruction that drives a nested job and succeeds comes to the job, runs it and goes on after
it, even if the job failed. -/
theorem drives_of_execute (exclusive : i.command.isExclusive = true)
    (h : execute env run i m = .ok () m') :
    ∃ s stream m₁, Drives env i m s stream m₁
      ∧ Concludes i m (runExclusive env run s i.next stream m₁) m' := by
  rw [execute_eq_carryOut] at h
  have hcarry := mapFault_eq_ok h
  cases command : i.command with
  | ask =>
    rw [carryOut_of_unary (by rw [command]; rfl)] at hcarry
    obtain ⟨v, m₁, hv, hcommand⟩ := bind_eq_ok hcarry
    simp only [performUnary, command] at hcommand
    exact drives_of_ask command hv hcommand
  | createTurtles =>
    rw [carryOut_of_unary (by rw [command]; rfl)] at hcarry
    obtain ⟨v, m₁, hv, hcommand⟩ := bind_eq_ok hcarry
    simp only [performUnary, command] at hcommand
    exact drives_of_createTurtles command hv hcommand
  | withLocalRandomness =>
    have known := known_of_multiple (by rw [command]; rfl) hcarry
    rw [carryOut_of_known known, perform] at hcarry
    simp only [command] at hcarry
    exact drives_of_withLocalRandomness command known hcarry
  | carefully =>
    have known := known_of_multiple (by rw [command]; rfl) hcarry
    rw [carryOut_of_known known, perform] at hcarry
    simp only [command] at hcarry
    exact drives_of_carefully command known hcarry
  | _ => simp [command, Command.isExclusive] at exclusive

-- ════════════════════════════════════════════════════════════════════════
-- Until the nested job
-- ════════════════════════════════════════════════════════════════════════

section Quiet

variable {R : Machine → Machine → Prop} (h : Quiet R)
include h

theorem Quiet.keeps_argument (env : Environment) (i : Instruction) : Keeps R (argument env i) := by
  rw [argument]
  split
  · exact h.keeps_pure _
  · exact h.keeps_evaluateAt env i.args 0

theorem Quiet.of_argument {v : Value} (hv : argument env i m = .ok v m₁) : R m m₁ := by
  have hm := h.keeps_argument env i m
  rwa [hv] at hm

theorem Quiet.keeps_springReadings (env : Environment) (i : Instruction) (k : Nat) :
    Keeps R (springReadings env i k) := by
  induction k with
  | zero => exact h.keeps_pure ()
  | succ k ih =>
    apply h.keeps_bind ih
    intro _
    rw [springReading]
    split
    · exact h.keeps_bind (h.keeps_agentsetAt env i.args k _) fun _ => h.keeps_pure ()
    · exact h.keeps_bind (h.keeps_numberAt env i.args k _) fun _ => h.keeps_pure ()

/-- What holds across the quiet effects, and if a stream is copied, holds until the nested job. -/
theorem Quiet.drives (copies : ∀ m, R m (enterCopy m)) (hd : Drives env i m s stream m₁) :
    R m m₁ := by
  cases hd with
  | ask _ hv _ _ => exact h.of_argument hv
  | @createTurtles m₂ _ _ count _ _ hv _ _ hspawn =>
    have hborn := h.spawn m₂ count
    rw [hspawn] at hborn
    exact h.trans (h.of_argument hv) hborn
  | withLocalRandomness => exact copies m
  | carefully => exact h.refl m

end Quiet

end Swarm.Exec
