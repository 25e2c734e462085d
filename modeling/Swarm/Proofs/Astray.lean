import Swarm.Proofs.Raised

/-!
# Faults of agents that went astray

Three defects say that an agent has lost its place in the code: it runs a procedure that the program
does not have, it came to a place outside of the procedure, or it returned from its last call. What
an instruction does besides moving raises none of them. Arguments may be of any type, expressions
need not have been checked, and the world may hold anything.

## Main definitions

* `Fault.isAstray`: faults of agents that lost their place

## Main results

* `Fault.Plain.isAstray_eq_false`: no primitive raises such a fault
* `View.isAstray_bind`: recording where a fault arose makes no such fault of it
-/

namespace Swarm

/-- The defects of code that leads an agent astray. -/
def Defect.isAstray : Defect → Bool
  | .noProcedure _ => true
  | .outsideProcedure .. => true
  | .returnedPastBase => true
  | _ => false

/-- The agent lost its place in the code. -/
def Fault.isAstray (f : Fault) : Bool :=
  match f.cause with
  | .defect d => d.isAstray
  | _ => false

/-- An agent that lost its place cannot be helped: nothing catches the fault. -/
theorem Fault.kind_of_isAstray {f : Fault} (h : f.isAstray = true) :
    f.kind = .internalConsistency := by
  unfold isAstray at h
  split at h
  · next d hd => rw [kind, hd]; rfl
  · cases h

/-- Primitives lead nobody astray. -/
theorem Fault.Plain.isAstray_eq_false {f : Fault} (h : f.Plain) : f.isAstray = false := by
  obtain ⟨c, hc, rfl⟩ := h
  cases c with
  | defect d => cases d <;> first | rfl | cases hc
  | _ => rfl

/-- Recording where a fault arose leads nobody astray. -/
theorem View.isAstray_bind {f : Fault} (v : View) (primitive : String) (position : Position)
    (h : f.isAstray = false) : (v.bind primitive position f).isAstray = false := by
  unfold Fault.isAstray at h ⊢
  rcases v.cause_bind primitive position f with hcause | hcause <;> rw [hcause]
  exact h

end Swarm
