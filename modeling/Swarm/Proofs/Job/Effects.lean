import Swarm.Engine
import Swarm.Proofs.Exec.Effects

/-!
# What a step can do

A relation between simulations that holds across every effect of an instruction holds across turns
and steps of jobs. More generally, the turns of a step end as single turns do.

## Main definitions

* `Job.seat`: the machine of a turn
* `Job.Answers`: how turns may end

## Main results

* `Job.answers_turns`: from one turn to the turns of a step
* `Job.turn_effects`, `Job.step_effects`: across a turn and across a step
-/

namespace Swarm

open Swarm.Exec (Effects Quiet)

/-- A relation between simulations, seen as one between machines. -/
def Simulation.Lifted (S : Simulation → Simulation → Prop) (m m' : Machine) : Prop :=
  S m.toSimulation m'.toSimulation

variable {S : Simulation → Simulation → Prop} (h : Effects (Simulation.Lifted S))

namespace Job

/-- The machine in which an agent of a job takes its turn. -/
def seat (stream : StreamRef) (c : Cursor) (sim : Simulation) : Machine :=
  { sim with nesting := 0, context := .resume c stream }

section Turns

variable {env : Environment} {fuel : Nat} {stream : StreamRef} {c : Cursor} {sim : Simulation}
  {m : Machine}

theorem turn_of_ok (h : Exec.untilSwitch env fuel (seat stream c sim) = .ok () m) :
    turn env fuel stream c sim = (.ok m.context, m.toSimulation) := by
  rw [seat] at h
  rw [turn, h]

theorem turn_of_error {e : Stop}
    (h : Exec.untilSwitch env fuel (seat stream c sim) = .error e m) :
    turn env fuel stream c sim = (.error e, m.toSimulation) := by
  rw [seat] at h
  rw [turn, h]

/-- How turns may end: with a value that has `A`, or early for a reason that has `E`. The simulation
has `S` in either case. -/
structure Answers {α : Type} (A : α → Prop) (E : Stop → Prop) (S : Simulation → Prop)
    (r : Except Stop α × Simulation) : Prop where
  value : ∀ a sim', r = (.ok a, sim') → A a
  reason : ∀ e sim', r = (.error e, sim') → E e
  simulation : S r.2

/-- The turns of a step end as single turns do. The simulation has `S` throughout; `Q` is what turns
leave of the cursors that have work left. -/
theorem answers_turns {Q : Cursor → Prop} {E : Stop → Prop} {S : Simulation → Prop}
    (cursors : List Cursor)
    (hturn : ∀ c ∈ cursors, ∀ sim, S sim →
      Answers (fun after : Context => Q after.toCursor) E S (turn env fuel stream c sim))
    (hs : S sim) :
    Answers (fun pending => ∀ c ∈ pending, Q c) E S (turns env fuel stream cursors sim) := by
  induction cursors generalizing sim with
  | nil =>
    refine ⟨fun pending sim' h => ?_, nofun, hs⟩
    cases h
    exact fun c hc => by cases hc
  | cons c rest ih =>
    have hrest {sim : Simulation} (hs : S sim) :
        Answers (fun pending => ∀ c ∈ pending, Q c) E S (turns env fuel stream rest sim) :=
      ih (fun d hd => hturn d (by simp [hd])) hs
    rw [turns]
    split
    · have hone := hturn c (by simp) sim hs
      rcases ht : turn env fuel stream c sim with ⟨e | after, sim₁⟩ <;> rw [ht] at hone
      · refine ⟨nofun, fun e' sim' h => ?_, hone.simulation⟩
        cases h
        exact hone.reason e sim₁ rfl
      have hothers := hrest hone.simulation
      rcases hts : turns env fuel stream rest sim₁ with ⟨e | left, sim₂⟩ <;>
        rw [hts] at hothers <;> simp only [hts]
      · refine ⟨nofun, fun e' sim' h => ?_, hothers.simulation⟩
        cases h
        exact hothers.reason e sim₂ rfl
      · refine ⟨fun pending sim' h => ?_, nofun, hothers.simulation⟩
        cases h
        intro d hd
        split at hd
        · exact hothers.value left sim₂ rfl d hd
        · rcases List.mem_cons.1 hd with rfl | hd
          · exact hone.value after sim₁ rfl
          · exact hothers.value left sim₂ rfl d hd
    · exact hrest hs

end Turns

/-- A machine with no work, drawing from a stream. -/
def idle (sim : Simulation) (stream : StreamRef) : Machine :=
  { sim with
    nesting := 0
    context := .resume ⟨.observer, 0, .ofFrame 0 (.fresh 0 0 0), 1, none⟩ stream }

include h

theorem refl_of_effects (sim : Simulation) : S sim sim :=
  h.refl (idle sim Streams.main)

theorem trans_of_effects {sim₁ sim₂ sim₃ : Simulation} (h₁ : S sim₁ sim₂) (h₂ : S sim₂ sim₃) :
    S sim₁ sim₃ :=
  @Quiet.trans _ h.toQuiet (idle sim₁ Streams.main) (idle sim₂ Streams.main)
    (idle sim₃ Streams.main) h₁ h₂

theorem turn_effects (env : Environment) (fuel : Nat) (stream : StreamRef) (c : Cursor)
    (sim : Simulation) : S sim (turn env fuel stream c sim).2 := by
  have hrun := h.untilSwitch env fuel { sim with nesting := 0, context := .resume c stream }
  rw [turn]
  cases hr : Exec.untilSwitch env fuel { sim with nesting := 0, context := .resume c stream } with
  | ok _ m =>
    rw [hr] at hrun
    exact hrun
  | error e m =>
    rw [hr] at hrun
    exact hrun

theorem turns_effects (env : Environment) (fuel : Nat) (stream : StreamRef)
    (cursors : List Cursor) (sim : Simulation) : S sim (turns env fuel stream cursors sim).2 := by
  have hturn (c : Cursor) (sim' : Simulation) (hs : S sim sim') :
      Answers (fun _ => True) (fun _ => True) (S sim) (turn env fuel stream c sim') :=
    ⟨fun _ _ _ => trivial, fun _ _ _ => trivial,
      trans_of_effects h hs (turn_effects h env fuel stream c sim')⟩
  exact (answers_turns (Q := fun _ => True) cursors (fun c _ => hturn c)
    (refl_of_effects h sim)).simulation

theorem takeUp_effects (env : Environment) (job : Job) (sim : Simulation) :
    S sim (job.takeUp env sim).2 := by
  unfold takeUp start
  split
  · exact refl_of_effects h sim
  · split
    · exact refl_of_effects h sim
    · exact h.draw (idle sim job.stream) _

/-- What holds across every effect holds across a step of a job. -/
theorem step_effects (env : Environment) (fuel : Nat) (job : Job) (sim : Simulation) :
    S sim (job.step env fuel sim).2.2 := by
  have htake := takeUp_effects h env job sim
  rw [step]
  rcases ht : job.takeUp env sim with ⟨f | cursors, sim'⟩
  · rw [ht] at htake
    exact htake
  · rw [ht] at htake
    have hturns := trans_of_effects h htake (turns_effects h env fuel job.stream cursors sim')
    dsimp only
    rcases hts : turns env fuel job.stream cursors sim' with ⟨e | pending, sim''⟩
    · rw [hts] at hturns
      exact hturns
    · rw [hts] at hturns
      exact hturns

end Job

end Swarm
