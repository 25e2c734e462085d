import Swarm.Machine.Report
import Swarm.Proofs.Draw

/-!
# Faults that are no defects

A check or a draw either gives a value of which something holds, or ends in a fault that may
surface. Defects may not surface, except for names that were let through unresolved.

## Main definitions

* `Fault.Tolerable`: a fault that may surface
* `Except.Yields`, `Draw.Yields`: how a check and how a draw may end
-/

namespace Swarm

variable {forgiving : Bool} {α β : Type}

/-- A fault that may surface. The only defect among them is a name that stands for nothing, where
such names were let through. -/
def Fault.Tolerable (forgiving : Bool) (f : Fault) : Prop :=
  f.kind = .internalConsistency →
    forgiving = true ∧ ∃ (name : String) (position : Position),
      f = .ofDefect (.unresolved name position.text)

theorem Fault.tolerable_of_kind {f : Fault} (h : f.kind ≠ .internalConsistency) :
    f.Tolerable forgiving :=
  fun hk => absurd hk h

theorem Fault.tolerable_ofCause {c : Cause} (h : c.kind ≠ .internalConsistency) :
    (Fault.ofCause c).Tolerable forgiving :=
  tolerable_of_kind h

theorem Fault.tolerable_unresolved (name : String) (position : Position) :
    (Fault.ofDefect (.unresolved name position.text)).Tolerable true :=
  fun _ => ⟨rfl, name, position, rfl⟩

theorem Site.kind_annotate (site : Site) (f : Fault) : (site.annotate f).kind = f.kind :=
  rfl

/-- Recording where a fault arose changes its cause only if it is about an agent. -/
theorem View.cause_bind (v : View) (primitive : String) (position : Position) (f : Fault) :
    (v.bind primitive position f).cause = f.cause
      ∨ (v.bind primitive position f).cause = .stated .runtime f.message := by
  unfold View.bind Site.bind
  split
  · split
    · exact .inr rfl
    · split <;> exact .inl rfl
  · exact .inl rfl

/-- Recording where a fault arose makes no defect of it. -/
theorem View.tolerable_bind {f : Fault} (v : View) (primitive : String) (position : Position)
    (h : f.Tolerable forgiving) : (v.bind primitive position f).Tolerable forgiving := by
  unfold View.bind Site.bind
  split
  · split
    · have hkind : ((v.site primitive position).annotate
          ((Fault.stated .runtime f.message).stemmingFrom f)).kind = .runtime := rfl
      exact Fault.tolerable_of_kind (by rw [hkind]; decide)
    · split
      · next hk =>
        refine Fault.tolerable_of_kind ?_
        simp only [Bool.and_eq_true, decide_eq_true_eq] at hk
        simp [Site.kind_annotate, hk.1]
      · exact h
  · exact h

/-- A check gives a value with a property, or a fault that may surface. -/
def Except.Yields (forgiving : Bool) (Q : α → Prop) : Except Fault α → Prop
  | .ok a => Q a
  | .error f => f.Tolerable forgiving

namespace Except

variable {x : Except Fault α} {f : α → Except Fault β} {P : α → Prop} {Q : β → Prop}

theorem Yields.bind (hx : Yields forgiving P x) (hf : ∀ a, P a → Yields forgiving Q (f a)) :
    Yields forgiving Q (x >>= f) := by
  cases x with
  | ok a => exact hf a hx
  | error e => exact hx

theorem Yields.mono {P' : α → Prop} (hx : Yields forgiving P x) (h : ∀ a, P a → P' a) :
    Yields forgiving P' x := by
  cases x with
  | ok a => exact h a hx
  | error e => exact hx

end Except

/-- A draw gives a value with a property, or a fault that may surface, from every stream. -/
def Draw.Yields (forgiving : Bool) (Q : α → Prop) (x : Draw α) : Prop :=
  ∀ s,
    match x s with
    | .ok a _ => Q a
    | .error f _ => f.Tolerable forgiving

namespace Draw

variable {x : Draw α} {f : α → Draw β} {P : α → Prop} {Q : β → Prop}

theorem yields_pure {a : α} (h : P a) : Yields forgiving P (pure a : Draw α) :=
  fun _ => h

theorem yields_throw {e : Fault} (h : e.Tolerable forgiving) :
    Yields forgiving P (throw e : Draw α) :=
  fun _ => h

theorem Yields.bind (hx : Yields forgiving P x) (hf : ∀ a, P a → Yields forgiving Q (f a)) :
    Yields forgiving Q (x >>= f) := by
  intro s
  have hs := hx s
  rw [bind_apply]
  cases hr : x s with
  | ok a s' =>
    rw [hr] at hs
    exact hf a hs s'
  | error e s' =>
    rw [hr] at hs
    exact hs

theorem yields_ofExcept {y : Except Fault α} (h : Except.Yields forgiving P y) :
    Yields forgiving P (ofExcept y) := by
  intro s
  cases y with
  | ok a => exact h
  | error e => exact h

theorem yields_ofStream (g : Random.Stream → α × Random.Stream) (h : ∀ s, P (g s).1) :
    Yields forgiving P (ofStream g) :=
  fun s => h s

theorem Yields.mapFault {change : Fault → Fault} (hx : Yields forgiving P x)
    (h : ∀ e : Fault, e.Tolerable forgiving → (change e).Tolerable forgiving) :
    Yields forgiving P (Draw.mapFault change x) := by
  intro s
  have hs := hx s
  rw [Draw.mapFault]
  cases hr : x s with
  | ok a s' =>
    rw [hr] at hs
    exact hs
  | error e s' =>
    rw [hr] at hs
    exact h e hs

end Draw

end Swarm
