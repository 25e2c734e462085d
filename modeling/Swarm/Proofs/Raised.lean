import Swarm.Proofs.Report
import Swarm.Proofs.World.Records

/-!
# Faults as they are raised

A check or a draw that fails does so with the fault of a cause. The fault has no trail yet: where it
arose is recorded by the expression or the instruction that made the check. What primitives raise is
of few causes: those about agents and variables, about the types of arguments, about division and
empty lists, calls that are too deep, and defects of code that is no expression or no command.

## Main definitions

* `Cause.isPrimitive`: the causes of the faults that primitives raise
* `Fault.Plain`: a fault as a primitive raises it
* `Except.Plain`, `Draw.Plain`: checks and draws that raise no other faults

## Main results

* `World.plain_accept`, `World.plain_layoutSpring` and others: what is done to a world
* `Reporter.plain_report0`, `Reporter.plain_report1`, `Reporter.plain_report2`: reporters
* `Expr.failsWith_report`: what holds of the faults of primitives, and is kept by recording where
  they arose, holds of the faults of expressions
-/

namespace Swarm

variable {α β : Type}

/-- The defects that primitives run into. -/
def Defect.isPrimitive : Defect → Bool
  | .variableSlot .. => true
  | .localSlot _ => true
  | .argumentMissing _ => true
  | .argumentCount .. => true
  | .takesArguments _ => true
  | .notUnaryReporter _ => true
  | .notBinaryReporter _ => true
  | .unresolved .. => true
  | .noGenericEntry _ => true
  | .notUnaryCommand _ => true
  | _ => false

/-- The causes of the faults that primitives raise. -/
def Cause.isPrimitive : Cause → Bool
  | .domainViolation .. => true
  | .wrongAgent .. => true
  | .noSuchAgent _ => true
  | .cannotLink _ => true
  | .fixedNumber => true
  | .observerDeath => true
  | .patchDeath => true
  | .agentDead _ => true
  | .typeMismatch .. => true
  | .divisionByZero => true
  | .emptyList => true
  | .callDepth _ => true
  | .noSprings => true
  | .defect d => d.isPrimitive
  | _ => false

/-- A fault as a primitive raises it, without a trail. -/
def Fault.Plain (f : Fault) : Prop :=
  ∃ c : Cause, c.isPrimitive = true ∧ f = .ofCause c

/-- The check fails, if at all, with a fault as a primitive raises it. -/
abbrev Except.Plain (x : Except Fault α) : Prop :=
  FailsWith Fault.Plain x

theorem Except.plain_error {c : Cause} (h : c.isPrimitive = true) :
    Plain (.error (.ofCause c) : Except Fault α) :=
  failsWith_error ⟨c, h, rfl⟩

/-- The draw fails, if at all, with a fault as a primitive raises it. -/
abbrev Draw.Plain (x : Draw α) : Prop :=
  FailsWith Fault.Plain x

namespace Draw

theorem plain_pure (a : α) : Plain (pure a : Draw α) :=
  failsWith_pure a

theorem plain_throw {c : Cause} (h : c.isPrimitive = true) : Plain (throw (.ofCause c) : Draw α) :=
  failsWith_throw ⟨c, h, rfl⟩

theorem plain_ofExcept {x : Except Fault α} (h : Except.Plain x) : Plain (ofExcept x) :=
  failsWith_ofExcept h

theorem FailsWith.mapFault {P Q : Fault → Prop} {change : Fault → Fault} {x : Draw α}
    (hx : FailsWith P x) (hc : ∀ f, P f → Q (change f)) : FailsWith Q (Draw.mapFault change x) := by
  intro s f s' h
  rw [Draw.mapFault] at h
  cases hr : x s with
  | ok a s₁ =>
    rw [hr] at h
    cases h
  | error e s₁ =>
    rw [hr] at h
    cases h
    exact hc e (hx s _ _ hr)

theorem plain_ofStream (g : Random.Stream → α × Random.Stream) : Plain (ofStream g) :=
  failsWith_ofStream g

end Draw

-- ════════════════════════════════════════════════════════════════════════
-- Arguments, locals and the world
-- ════════════════════════════════════════════════════════════════════════

theorem Argument.plain_mismatch (primitive expected : String) (v : Value) :
    Except.Plain (mismatch primitive expected v : Except Fault α) :=
  Except.plain_error rfl

theorem Argument.plain_number (primitive : String) (v : Value) :
    Except.Plain (number primitive v) := by
  rw [number]
  split
  · exact Except.failsWith_ok _
  · exact plain_mismatch _ _ v

theorem Argument.plain_boolean (primitive : String) (v : Value) :
    Except.Plain (boolean primitive v) := by
  rw [boolean]
  split
  · exact Except.failsWith_ok _
  · exact plain_mismatch _ _ v

theorem Argument.plain_count (primitive : String) (v : Value) : Except.Plain (count primitive v) :=
  (plain_number primitive v).bind fun _ => Except.failsWith_ok _

theorem Argument.plain_agents (primitive : String) (v : Value) :
    Except.Plain (agents primitive v) := by
  unfold agents
  split
  · exact Except.failsWith_ok _
  · exact Except.failsWith_ok _
  · exact plain_mismatch _ _ _

theorem Argument.plain_agentset (primitive : String) (v : Value) :
    Except.Plain (agentset primitive v) := by
  rw [agentset]
  split
  · exact Except.failsWith_ok _
  · exact Except.plain_error rfl

theorem Frame.plain_get (f : Frame) (slot : Nat) : Except.Plain (f.get slot) := by
  rw [get]
  split
  · exact Except.failsWith_ok _
  · exact Except.plain_error rfl

theorem Frame.plain_set (f : Frame) (slot : Nat) (v : Value) : Except.Plain (f.set slot v) := by
  rw [set]
  split
  · exact Except.failsWith_ok _
  · exact Except.plain_error rfl

theorem CallStack.plain_push (s : CallStack) (f : Frame) : Except.Plain (s.push f) := by
  rw [push]
  split
  · exact Except.plain_error rfl
  · exact Except.failsWith_ok _

theorem Domain.plain_stored (d : Domain) (name : String) (v : Value) :
    Except.Plain (d.stored name v) := by
  unfold stored
  dsimp only
  repeat' split
  all_goals first
    | exact Except.failsWith_ok _
    | exact Except.plain_error rfl

namespace World

variable (w : World)

theorem plain_live (a : AgentRef) : Except.Plain (w.live a) := by
  rw [live]
  split
  · exact Except.plain_error rfl
  · split
    · exact Except.failsWith_ok _
    · exact Except.plain_error rfl

theorem plain_getVariable (a : AgentRef) (slot : Nat) : Except.Plain (w.getVariable a slot) := by
  apply (w.plain_live a).bind
  intro r
  split
  · exact Except.failsWith_ok _
  · exact Except.plain_error rfl

theorem plain_accept (a : AgentRef) (slot : Nat) (v : Value) :
    Except.Plain (w.accept a slot v) := by
  rw [accept]
  split
  · exact Except.plain_error rfl
  · split
    · exact Except.plain_error rfl
    · cases hl : w.live a with
      | error f => exact Except.failsWith_error (w.plain_live a f hl)
      | ok r => exact Domain.plain_stored _ _ _

theorem plain_mortal (a : AgentRef) : Except.Plain (w.mortal a) := by
  have hlive : Except.Plain ((w.live a).map fun _ => ()) := by
    cases hl : w.live a with
    | error f => exact Except.failsWith_error (w.plain_live a f hl)
    | ok r => exact Except.failsWith_ok _
  unfold mortal
  split
  · exact Except.plain_error rfl
  · exact Except.plain_error rfl
  · exact hlive

theorem plain_position (a : AgentRef) : Except.Plain (w.position a) := by
  apply (w.plain_live a).bind
  intro r
  dsimp only
  split
  · exact Except.plain_error rfl
  · exact Except.failsWith_ok _

theorem plain_patchHere (a : AgentRef) : Except.Plain (w.patchHere a) :=
  (w.plain_position a).bind fun _ => Except.failsWith_ok _

theorem plain_target (running : AgentRef) (kind : AgentKind) (primitive : String) :
    Except.Plain (Argument.target w running kind primitive) := by
  rw [Argument.target]
  split
  · exact Except.failsWith_ok _
  · split
    · exact Except.failsWith_ok _
    · split
      · exact w.plain_patchHere running
      · exact Except.plain_error rfl

theorem plain_ends? (link : AgentRef) : Except.Plain (w.ends? link) := by
  apply (w.plain_live link).bind
  intro r
  dsimp only
  split
  · exact Except.plain_error rfl
  · split <;> exact Except.failsWith_ok _

theorem plain_layoutSpring (nodes links : AgentSet) (springs : Springs) :
    Draw.Plain (w.layoutSpring nodes links springs) :=
  failsWith_layoutSpring (fun _ => ⟨_, rfl, rfl⟩) (fun link _ => w.plain_ends? link)
    fun a _ => w.plain_position a

end World

-- ════════════════════════════════════════════════════════════════════════
-- Expressions
-- ════════════════════════════════════════════════════════════════════════

namespace Reporter

theorem plain_report0 (v : View) (r : Reporter) (position : Position) :
    Except.Plain (r.report0 v position) := by
  cases r with
  | getVariable kind slot =>
    exact (v.world.plain_target v.agent kind _).bind fun a => v.world.plain_getVariable a slot
  | getLocal slot => exact v.frame.plain_get slot
  | self =>
    unfold report0
    dsimp only
    split
    · exact Except.plain_error rfl
    · exact Except.failsWith_ok _
  | constant | turtles | patches | links | errorMessage => exact Except.failsWith_ok _
  | _ => exact Except.plain_error rfl

theorem plain_pickOne (w : World) (token : String) (a : Value) :
    Draw.Plain (pickOne w token a) := by
  unfold pickOne
  split
  · apply (Draw.plain_ofStream _).bind
    intro found
    split
    · exact Draw.plain_pure _
    · exact Draw.plain_pure _
  · exact Draw.plain_throw rfl
  · apply (Draw.plain_ofStream _).bind
    intro found
    split
    · exact Draw.plain_pure _
    · exact Draw.plain_pure _
  · exact Draw.plain_throw rfl

theorem plain_randomInteger (x : Float) : Draw.Plain (randomInteger x) := by
  unfold randomInteger
  dsimp only
  split
  · exact (Draw.plain_ofStream _).bind fun _ => Draw.plain_pure _
  · split
    · exact (Draw.plain_ofStream _).bind fun _ => Draw.plain_pure _
    · exact Draw.plain_pure _

theorem plain_report1 (w : World) (r : Reporter) (a : Value) : Draw.Plain (r.report1 w a) := by
  have hnumber : Draw.Plain (Draw.ofExcept (Argument.number r.token a)) :=
    Draw.plain_ofExcept (Argument.plain_number _ a)
  cases r with
  | count =>
    exact (Draw.plain_ofExcept (Argument.plain_agentset _ a)).bind fun _ => Draw.plain_pure _
  | random =>
    exact hnumber.bind fun x => (plain_randomInteger x).bind fun _ => Draw.plain_pure _
  | randomFloat =>
    exact hnumber.bind fun _ => (Draw.plain_ofStream _).bind fun _ => Draw.plain_pure _
  | oneOf => exact plain_pickOne w _ a
  | not =>
    exact (Draw.plain_ofExcept (Argument.plain_boolean _ a)).bind fun _ => Draw.plain_pure _
  | _ => exact Draw.plain_throw rfl

theorem plain_report2 (r : Reporter) (a b : Value) : Except.Plain (r.report2 a b) := by
  have hnumbers {f : Float → Float → Except Fault Value} (hf : ∀ x y, Except.Plain (f x y)) :
      Except.Plain (do
        let x ← Argument.number r.token a
        let y ← Argument.number r.token b
        f x y) :=
    (Argument.plain_number _ a).bind fun x => (Argument.plain_number _ b).bind fun y => hf x y
  cases r with
  | equal => exact Except.failsWith_ok _
  | and =>
    apply (Argument.plain_boolean _ a).bind
    intro x
    split
    · exact (Argument.plain_boolean _ b).bind fun _ => Except.failsWith_ok _
    · exact Except.failsWith_ok _
  | or =>
    apply (Argument.plain_boolean _ a).bind
    intro x
    split
    · exact Except.failsWith_ok _
    · exact (Argument.plain_boolean _ b).bind fun _ => Except.failsWith_ok _
  | plus | minus | mult | lt | gt => exact hnumbers fun _ _ => Except.failsWith_ok _
  | div =>
    apply hnumbers
    intro x y
    show Except.Plain
      (if y == 0 then .error (Fault.ofCause .divisionByZero) else .ok (Value.number (x / y)))
    split
    · exact Except.plain_error rfl
    · exact Except.failsWith_ok _
  | _ => exact hnumbers fun _ _ => Except.plain_error rfl

theorem plain_early (r : Reporter) (x : Value) : Except.Plain (r.early x) := by
  cases r with
  | and => exact (Argument.plain_boolean _ x).bind fun _ => Except.failsWith_ok _
  | or => exact (Argument.plain_boolean _ x).bind fun _ => Except.failsWith_ok _
  | _ => exact Except.failsWith_ok _

end Reporter

section Expressions

variable {P : Fault → Prop} (plain : ∀ f : Fault, f.Plain → P f) (v : View)
  (recorded : ∀ (primitive : String) (position : Position) (f : Fault),
    P f → P (v.bind primitive position f))
include plain recorded

/-- An expression fails, if at all, with a fault that a primitive raised and that expressions
recorded. -/
theorem Expr.failsWith_report : ∀ e : Expr, Draw.FailsWith P (e.report v)
  | ⟨r, [], position⟩ => by
    rw [report_nil]
    exact ((Draw.plain_ofExcept (r.plain_report0 v position)).mono plain).mapFault (recorded _ _)
  | ⟨r, [a], position⟩ => by
    rw [report_one]
    exact ((failsWith_report a).bind fun x => (r.plain_report1 v.world x).mono plain).mapFault
      (recorded _ _)
  | ⟨r, [a, b], position⟩ => by
    have ha := failsWith_report a
    have hb := failsWith_report b
    rw [report_two]
    refine Draw.FailsWith.mapFault (ha.bind fun x => ?_) (recorded _ _)
    apply ((Draw.plain_ofExcept (r.plain_early x)).mono plain).bind
    rintro (_ | z)
    · exact hb.bind fun y => (Draw.plain_ofExcept (r.plain_report2 x y)).mono plain
    · exact Draw.failsWith_pure _
  | ⟨r, a :: b :: c :: rest, position⟩ => by
    rw [report]
    · exact ((Draw.plain_throw rfl).mono plain).mapFault (recorded _ _)
    all_goals simp

end Expressions

end Swarm
