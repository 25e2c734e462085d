import Swarm.Proofs.Raised
import Swarm.Proofs.Tree.Commands

/-!
# How computations on the machine stop

What holds of the faults that primitives raise holds of the faults of commands that run no block. If
it is also kept when the place of a fault is recorded, it holds of the faults of arguments. Neither
of them runs out of fuel, since they run no code.

## Main definitions

* `Exec.StopsWith`: a computation that stops early for certain reasons only
* `Exec.FailsWith`: a computation that fails in certain ways only, and may run out of fuel
* `Exec.Clean`: a computation that stops as primitives do
* `Exec.Plain`: a computation that fails as primitives do

## Main results

* `Exec.clean_write`, `Exec.clean_relax` and others: what commands do besides evaluating arguments
* `Exec.stopsWith_evaluate`, `Exec.stopsWith_layoutSpring`, `Exec.stopsWith_fillInputs`: what they
  do with arguments
-/

namespace Swarm

/-- The reason is a fault with a property, or that the fuel ran out. -/
def Stop.Fails (P : Fault → Prop) : Stop → Prop
  | .fault f => P f
  | .exhausted => True

/-- The reason is a fault of a primitive. -/
def Stop.Plain : Stop → Prop
  | .fault f => f.Plain
  | .exhausted => False

theorem Argument.plain_asked (w : World) (token : String) (v : Value) :
    Except.Plain (asked w token v) := by
  unfold asked
  split
  · split
    · exact Except.failsWith_ok _
    · exact Except.plain_error rfl
  · exact plain_agents token _

theorem Argument.plain_births (kind : AgentKind) (token : String) (v : Value) :
    Except.Plain (births kind token v) := by
  rw [births]
  split
  · exact plain_count token v
  · exact Except.plain_error rfl

namespace Exec

variable {α β : Type}

/-- The computation stops early for no reason but those that have a property. -/
def StopsWith (P : Stop → Prop) (x : Exec α) : Prop :=
  ∀ m e m', x m = .error e m' → P e

/-- The computation ends in no fault but those that have a property. -/
def FailsWith (P : Fault → Prop) (x : Exec α) : Prop :=
  ∀ m f m', x m = .error (.fault f) m' → P f

section Rules

variable {P : Stop → Prop}

theorem stopsWith_pure (a : α) : StopsWith P (pure a : Exec α) :=
  fun _ _ _ h => by cases h

theorem stopsWith_fail {f : Fault} (h : P (.fault f)) : StopsWith P (fail f : Exec α) := by
  rintro m _ _ ⟨⟩
  exact h

theorem StopsWith.bind {x : Exec α} {g : α → Exec β} (hx : StopsWith P x)
    (hg : ∀ a, StopsWith P (g a)) : StopsWith P (x >>= g) := by
  intro m e m' h
  rw [bind_apply] at h
  cases hr : x m with
  | ok a m₁ =>
    rw [hr] at h
    exact hg a m₁ e m' h
  | error e' m₁ =>
    rw [hr] at h
    cases h
    exact hx m e _ hr

theorem StopsWith.mono {Q : Stop → Prop} {x : Exec α} (hx : StopsWith P x)
    (h : ∀ e, P e → Q e) : StopsWith Q x :=
  fun m e m' he => h e (hx m e m' he)

theorem stopsWith_get {g : Machine → Exec β} (h : ∀ m, StopsWith P (g m)) :
    StopsWith P ((get : Exec Machine) >>= g) :=
  fun m => h m m

theorem stopsWith_context {g : Context → Exec β} (h : ∀ c, StopsWith P (g c)) :
    StopsWith P (context >>= g) :=
  fun m => h m.context m

theorem stopsWith_modify (g : Machine → Machine) : StopsWith P (modify g : Exec Unit) :=
  fun _ _ _ h => by cases h

theorem stopsWith_ofExcept {x : Except Fault α} (h : Except.FailsWith (fun f => P (.fault f)) x) :
    StopsWith P (ofExcept x) := by
  cases x with
  | ok a => exact stopsWith_pure a
  | error f => exact stopsWith_fail (h f rfl)

theorem stopsWith_drawFrom (r : StreamRef) {d : Draw α}
    (h : Draw.FailsWith (fun f => P (.fault f)) d) : StopsWith P (drawFrom r d) := by
  intro m e m' he
  rw [drawFrom] at he
  cases hd : d (m.streams.get r) with
  | ok a s =>
    rw [hd] at he
    cases he
  | error f s =>
    rw [hd] at he
    cases he
    exact h _ _ _ hd

theorem stopsWith_draw {d : Draw α} (h : Draw.FailsWith (fun f => P (.fault f)) d) :
    StopsWith P (draw d) :=
  stopsWith_context fun _ => stopsWith_drawFrom _ h

end Rules

section Faults

variable {P : Fault → Prop}

theorem failsWith_iff {x : Exec α} : FailsWith P x ↔ StopsWith (Stop.Fails P) x := by
  constructor
  · intro h m e m' he
    cases e with
    | fault f => exact h m f m' he
    | exhausted => trivial
  · exact fun h m f m' hf => h m (.fault f) m' hf

theorem failsWith_pure (a : α) : FailsWith P (pure a : Exec α) :=
  failsWith_iff.2 (stopsWith_pure a)

theorem FailsWith.bind {x : Exec α} {g : α → Exec β} (hx : FailsWith P x)
    (hg : ∀ a, FailsWith P (g a)) : FailsWith P (x >>= g) :=
  failsWith_iff.2 ((failsWith_iff.1 hx).bind fun a => failsWith_iff.1 (hg a))

theorem FailsWith.mono {Q : Fault → Prop} {x : Exec α} (hx : FailsWith P x)
    (h : ∀ f, P f → Q f) : FailsWith Q x :=
  fun m f m' hf => h f (hx m f m' hf)

theorem failsWith_context {g : Context → Exec β} (h : ∀ c, FailsWith P (g c)) :
    FailsWith P (context >>= g) :=
  fun m => h m.context m

theorem failsWith_modify (g : Machine → Machine) : FailsWith P (modify g : Exec Unit) :=
  failsWith_iff.2 (stopsWith_modify g)

theorem failsWith_ofExcept {x : Except Fault α} (h : Except.FailsWith P x) :
    FailsWith P (ofExcept x) :=
  failsWith_iff.2 (stopsWith_ofExcept h)

end Faults

-- ════════════════════════════════════════════════════════════════════════
-- Commands without arguments
-- ════════════════════════════════════════════════════════════════════════

/-- The computation stops as primitives do. -/
abbrev Clean (x : Exec α) : Prop :=
  StopsWith Stop.Plain x

/-- The computation fails as primitives do. -/
abbrev Plain (x : Exec α) : Prop :=
  FailsWith Fault.Plain x

theorem StopsWith.plain {x : Exec α} (h : Clean x) : Plain x :=
  fun m f m' hf => h m (.fault f) m' hf

/-- A property of all faults of primitives. -/
theorem StopsWith.of_clean {P : Stop → Prop} (plain : ∀ f : Fault, f.Plain → P (.fault f))
    {x : Exec α} (h : Clean x) : StopsWith P x := by
  refine h.mono fun e he => ?_
  cases e with
  | fault f => exact plain f he
  | exhausted => exact he.elim

theorem clean_ofExcept {x : Except Fault α} (h : Except.Plain x) : Clean (ofExcept x) :=
  stopsWith_ofExcept h

theorem clean_getLocal (slot : Nat) : Clean (getLocal slot) :=
  stopsWith_context fun c => clean_ofExcept (c.frames.top.plain_get slot)

theorem clean_setLocal (slot : Nat) (v : Value) : Clean (setLocal slot v) :=
  stopsWith_context fun c => (clean_ofExcept (c.frames.top.plain_set slot v)).bind fun _ =>
    stopsWith_modify _

theorem clean_write (kind : AgentKind) (slot : Nat) (token : String) (v : Value) :
    Clean (Tree.write kind slot token v) := by
  apply stopsWith_get
  intro m
  apply (clean_ofExcept (m.world.plain_target _ kind token)).bind
  intro a
  apply stopsWith_get
  intro m
  exact (clean_ofExcept (m.world.plain_accept a slot v)).bind fun _ =>
    (stopsWith_modify _).bind fun _ => stopsWith_modify _

theorem clean_startCount (slot : Nat) (token : String) (v : Value) :
    Clean (Tree.startCount slot token v) :=
  (clean_ofExcept (Argument.plain_count token v)).bind fun _ => clean_setLocal slot _

theorem clean_countPass (goesOn : Float → Bool) (slot : Nat) :
    Clean (Tree.countPass goesOn slot) := by
  apply (clean_getLocal slot).bind
  intro v
  apply (clean_ofExcept (Argument.plain_number _ v)).bind
  intro left
  split
  · exact (clean_setLocal _ _).bind fun _ => stopsWith_pure true
  · exact stopsWith_pure false

theorem clean_notifySlots (slots : List (AgentRef × Nat)) : Clean (notifySlots slots) := by
  induction slots with
  | nil => exact stopsWith_pure ()
  | cons p rest ih =>
    apply stopsWith_get
    intro m
    exact (clean_ofExcept (m.world.plain_getVariable p.1 p.2)).bind fun _ =>
      (stopsWith_modify _).bind fun _ => ih

theorem clean_checkKind (token : String) (s : AgentSet) (kind : AgentKind) :
    Clean (checkKind token s kind) := by
  rw [checkKind]
  split
  · exact stopsWith_pure ()
  · exact clean_ofExcept (Argument.plain_mismatch _ _ _)

theorem clean_relax (nodes links : AgentSet) (springs : Springs) :
    Clean (relax nodes links springs) := by
  apply stopsWith_get
  intro m
  exact (stopsWith_draw (m.world.plain_layoutSpring nodes links springs)).bind fun laid =>
    (stopsWith_modify _).bind fun _ => clean_notifySlots laid.1

theorem clean_die : Clean die :=
  stopsWith_get fun m => (clean_ofExcept (m.world.plain_mortal _)).bind fun _ =>
    (stopsWith_modify _).bind fun _ => stopsWith_modify _

-- ════════════════════════════════════════════════════════════════════════
-- Arguments
-- ════════════════════════════════════════════════════════════════════════

section Arguments

variable {P : Stop → Prop} (plain : ∀ f : Fault, f.Plain → P (.fault f))
  (recorded : ∀ (v : View) (primitive : String) (position : Position) (f : Fault),
    P (.fault f) → P (.fault (v.bind primitive position f))) (env : Environment)
include plain recorded

theorem stopsWith_evaluate (e : Expr) : StopsWith P (evaluate env e) := by
  have hreport : StopsWith P (report env e) := stopsWith_get fun m =>
    stopsWith_draw (e.failsWith_report (P := fun f => P (.fault f)) plain (m.view env) (recorded _))
  exact hreport.bind fun v => (stopsWith_modify _).bind fun _ => stopsWith_pure v

theorem stopsWith_evaluateAt (args : List Expr) (index : Nat) :
    StopsWith P (evaluateAt env args index) := by
  rw [evaluateAt]
  split
  · exact stopsWith_evaluate plain recorded env _
  · exact stopsWith_fail (plain _ ⟨_, rfl, rfl⟩)

theorem stopsWith_numberAt (args : List Expr) (index : Nat) (primitive : String) :
    StopsWith P (numberAt env args index primitive) :=
  (stopsWith_evaluateAt plain recorded env args index).bind fun v =>
    .of_clean plain (clean_ofExcept (Argument.plain_number _ v))

theorem stopsWith_agentsetAt (args : List Expr) (index : Nat) (primitive : String) :
    StopsWith P (agentsetAt env args index primitive) :=
  (stopsWith_evaluateAt plain recorded env args index).bind fun v =>
    .of_clean plain (clean_ofExcept (Argument.plain_agentset _ v))

theorem stopsWith_layoutSpring (args : List Expr) (token : String) :
    StopsWith P (Tree.layoutSpring env args token) := by
  apply (stopsWith_agentsetAt plain recorded env args 0 token).bind
  intro nodes
  apply (stopsWith_agentsetAt plain recorded env args 1 token).bind
  intro links
  apply (stopsWith_numberAt plain recorded env args 2 token).bind
  intro constant
  apply (stopsWith_numberAt plain recorded env args 3 token).bind
  intro length
  apply (stopsWith_numberAt plain recorded env args 4 token).bind
  intro repulsion
  apply (StopsWith.of_clean plain (clean_checkKind token nodes .turtle)).bind
  intro _
  apply (StopsWith.of_clean plain (clean_checkKind token links .link)).bind
  intro _
  exact .of_clean plain (clean_relax nodes links ⟨constant, length, repulsion⟩)

theorem stopsWith_fillInputs (args : List Expr) :
    ∀ (slot : Nat) (frame : Frame), StopsWith P (fillInputs env slot args frame) := by
  induction args with
  | nil => exact fun _ frame => stopsWith_pure frame
  | cons e rest ih =>
    intro slot frame
    apply (stopsWith_evaluate plain recorded env e).bind
    intro v
    exact (StopsWith.of_clean plain (clean_ofExcept (frame.plain_set slot v))).bind
      fun f => ih (slot + 1) f

end Arguments

end Exec

end Swarm
