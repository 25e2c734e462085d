import Swarm.World.Spring

/-!
# Checks and draws that succeed

A chain of checks or draws succeeds only if each of its links does, and fails as one of its links
does. These lemmas take such chains apart.

## Main definitions

* `Except.FailsWith`: a check that fails in certain ways only

## Main results

* `Except.bind_eq_ok`, `Draw.bind_eq_ok`: a chain that succeeds
* `Draw.ofExcept_eq_ok`, `Draw.pure_eq_ok`: its last links
* `Except.FailsWith.bind`: a chain that fails
-/

namespace Swarm

theorem Except.bind_eq_ok {ε α β : Type} {x : Except ε α} {f : α → Except ε β} {b : β}
    (h : (x >>= f) = .ok b) : ∃ a, x = .ok a ∧ f a = .ok b := by
  cases x with
  | ok a => exact ⟨a, rfl, h⟩
  | error e => cases h

/-- The check fails, if at all, with an error that has a property. -/
def Except.FailsWith {ε α : Type} (P : ε → Prop) (x : Except ε α) : Prop :=
  ∀ e, x = .error e → P e

namespace Except

variable {ε α β : Type} {P : ε → Prop}

theorem failsWith_ok (a : α) : FailsWith P (.ok a : Except ε α) :=
  nofun

theorem failsWith_error {e : ε} (h : P e) : FailsWith P (.error e : Except ε α) := by
  rintro _ ⟨⟩
  exact h

theorem FailsWith.bind {x : Except ε α} {f : α → Except ε β} (hx : FailsWith P x)
    (hf : ∀ a, FailsWith P (f a)) : FailsWith P (x >>= f) := by
  cases x with
  | ok a => exact hf a
  | error e => exact failsWith_error (hx e rfl)

end Except

namespace Draw

open Swarm.Random (Stream)

variable {α β : Type}

theorem bind_apply (x : Draw α) (f : α → Draw β) (s : Stream) :
    (x >>= f) s =
      match x s with
      | .ok a s => f a s
      | .error e s => .error e s := by
  show EStateM.bind x f s = _
  unfold EStateM.bind
  cases x s <;> rfl

theorem bind_eq_ok {x : Draw α} {f : α → Draw β} {s s' : Stream} {b : β}
    (h : (x >>= f) s = .ok b s') : ∃ a s₁, x s = .ok a s₁ ∧ f a s₁ = .ok b s' := by
  rw [bind_apply] at h
  cases hx : x s with
  | ok a s₁ =>
    rw [hx] at h
    exact ⟨a, s₁, rfl, h⟩
  | error e s₁ =>
    rw [hx] at h
    cases h

theorem ofExcept_eq_ok {x : Except Fault α} {s s' : Stream} {a : α}
    (h : ofExcept x s = .ok a s') : x = .ok a ∧ s' = s := by
  cases x with
  | ok b =>
    cases h
    exact ⟨rfl, rfl⟩
  | error f => cases h

theorem pure_eq_ok {a b : α} {s s' : Stream} (h : (pure a : Draw α) s = .ok b s') :
    b = a ∧ s' = s := by
  cases h
  exact ⟨rfl, rfl⟩

/-- The draw fails, if at all, with a fault that has a property. -/
def FailsWith (P : Fault → Prop) (x : Draw α) : Prop :=
  ∀ s f s', x s = .error f s' → P f

section FailsWith

variable {P : Fault → Prop}

theorem failsWith_pure (a : α) : FailsWith P (pure a : Draw α) :=
  fun _ _ _ h => by cases h

theorem failsWith_throw {f : Fault} (h : P f) : FailsWith P (throw f : Draw α) := by
  rintro s _ _ ⟨⟩
  exact h

theorem FailsWith.bind {x : Draw α} {g : α → Draw β} (hx : FailsWith P x)
    (hg : ∀ a, FailsWith P (g a)) : FailsWith P (x >>= g) := by
  intro s f s' h
  rw [bind_apply] at h
  cases hr : x s with
  | ok a s₁ =>
    rw [hr] at h
    exact hg a s₁ f s' h
  | error e s₁ =>
    rw [hr] at h
    cases h
    exact hx s _ _ hr

theorem failsWith_ofExcept {x : Except Fault α} (h : Except.FailsWith P x) :
    FailsWith P (ofExcept x) := by
  cases x with
  | ok a => exact failsWith_pure a
  | error f => exact failsWith_throw (h f rfl)

theorem failsWith_ofStream (g : Stream → α × Stream) : FailsWith P (ofStream g) :=
  fun _ _ _ h => by cases h

theorem FailsWith.mono {Q : Fault → Prop} {x : Draw α} (hx : FailsWith P x)
    (h : ∀ f, P f → Q f) : FailsWith Q x :=
  fun s f s' hf => h f (hx s f s' hf)

end FailsWith

end Draw

end Swarm
