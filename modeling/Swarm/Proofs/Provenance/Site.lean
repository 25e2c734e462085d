import Swarm.Proofs.Exec.Enclosure
import Swarm.Proofs.Source.Position

/-!
# Recorded sites

A site is recorded once, among the details of a fault, and what was recorded can be read back. No
cause has a detail that could be taken for a recorded primitive. Other details of the same name may
stand before the record, such as the agent that died, but the latest one counts.

## Main results

* `Site.ofFault?_bind`: reading a recorded site
* `Site.bind_of_validation`: a fault about an agent becomes a runtime fault that stems from it
* `Site.bind_of_closed`: a recorded fault stays as it is
-/

namespace Swarm

/-- No cause names a primitive among its details. -/
theorem Fault.lookup_primitive_ofCause (c : Cause) : (ofCause c).lookup "primitive" = none := by
  cases c with
  | defect d => cases d <;> rfl
  | _ => rfl

/-- Going to a place that the code does not have is a defect. -/
theorem Program.kind_of_instruction {program : Program} {index ip : Nat} {f : Fault}
    (h : program.instruction index ip = .error f) : f.kind = .internalConsistency := by
  obtain rfl | ⟨name, rfl⟩ := instruction_eq_error h <;> rfl

namespace Site

variable (site : Site) {f : Fault}

/-- A recorded fault stays as it is. -/
theorem bind_of_closed (h : isOpen f = false) : site.bind f = f := by
  rw [isOpen, Bool.or_eq_false_iff] at h
  rw [bind, if_neg (by simp [h.1]), if_neg (by simp [h.2])]

/-- A fault keeps its message. -/
theorem message_bind : (site.bind f).message = f.message := by
  unfold bind
  split
  · rfl
  · split <;> rfl

/-- A recorded fault is not about an agent any more. -/
theorem isAgentValidation_of_closed (h : isOpen f = false) : f.kind.isAgentValidation = false :=
  (Bool.or_eq_false_iff.mp h).1

/-- A fault about an agent becomes a runtime fault that stems from it. -/
theorem bind_of_validation (h : f.kind.isAgentValidation = true) :
    (site.bind f).kind = .runtime ∧ (site.bind f).origin = some (.fault f) := by
  rw [bind, if_pos h]
  exact ⟨rfl, rfl⟩

theorem kind_bind_of_not_validation (h : f.kind.isAgentValidation = false) :
    (site.bind f).kind = f.kind := by
  rw [bind, if_neg (by simp [h])]
  split <;> rfl

theorem ofFault?_annotate (runtime : f.kind = .runtime) (fits : site.position.Fits) :
    ofFault? (site.annotate f) = some { site with message := f.message } := by
  have hprocedure : (site.annotate f).lookup "procedure" = some site.procedure := by
    simp [annotate, Fault.note, Fault.lookup, Fault.atOperation]
  have hposition : (site.annotate f).lookup "position" = some site.position.text := by
    simp [annotate, Fault.note, Fault.lookup, Fault.atOperation]
  have hagent : (site.annotate f).lookup "agent" = some site.agent := by
    simp [annotate, Fault.note, Fault.lookup, Fault.atOperation]
  rw [ofFault?, if_pos (by rw [kind_annotate, runtime]), lookup_annotate, hprocedure, hposition,
    hagent]
  simp only [Option.bind_eq_bind, Option.bind_some, Position.ofText_text fits]
  rfl

/-- A runtime fault that was recorded here for the first time holds the site. -/
theorem ofFault?_bind (unrecorded : f.lookup "primitive" = none)
    (runtime : (site.bind f).kind = .runtime) (fits : site.position.Fits) :
    ofFault? (site.bind f) = some { site with message := f.message } := by
  by_cases hvalidation : f.kind.isAgentValidation = true
  · rw [bind, if_pos hvalidation]
    exact site.ofFault?_annotate rfl fits
  · have hclosed : isOpen f = false → f.kind ≠ .runtime := by
      intro h hkind
      simp [isOpen, hkind, unrecorded] at h
    by_cases hopen : isOpen f = true
    · have hruntime : (f.kind = .runtime && (f.lookup "primitive").isNone) = true := by
        simpa [isOpen, hvalidation] using hopen
      rw [bind, if_neg hvalidation, if_pos hruntime]
      exact site.ofFault?_annotate (by simpa using (Bool.and_eq_true_iff.mp hruntime).1) fits
    · have hstays := site.bind_of_closed (by simpa using hopen)
      rw [hstays] at runtime
      exact absurd runtime (hclosed (by simpa using hopen))

end Site

end Swarm
