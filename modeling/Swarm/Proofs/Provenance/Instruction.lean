import Swarm.Proofs.Exec.Steering
import Swarm.Proofs.Provenance.Expression

/-!
# Where the fault of an instruction arose

An instruction fails because an argument has no value, because an agent of its nested job failed, or
by itself. The first two kinds of faults were recorded further inside. The third kind is raised in
the call and by the agent that came to the instruction, since nothing but a completed call or return
changes the running call.

## Main definitions

* `Exec.carryOut`: an instruction without the record of its faults
* `Exec.Consults`: an instruction evaluates an argument
* `Exec.Arises`: the ways in which an instruction fails

## Main results

* `Exec.Consults.carryOut_eq`: an argument that fails ends the instruction
* `Exec.arises_of_carryOut`: an instruction fails in one of these ways
-/

namespace Swarm

/-- The causes of the faults that instructions raise by themselves. -/
def Cause.isOwn : Cause → Bool
  | .defect _ => true
  | .nesting _ => true
  | c => c.isPrimitive

/-- A fault as an instruction raises it by itself, without a trail. -/
def Fault.Own (f : Fault) : Prop :=
  ∃ c : Cause, c.isOwn = true ∧ f = .ofCause c

theorem Fault.Plain.own {f : Fault} (h : f.Plain) : f.Own := by
  obtain ⟨c, hc, rfl⟩ := h
  refine ⟨c, ?_, rfl⟩
  cases c <;> first | exact hc | rfl

theorem Fault.Own.unrecorded {f : Fault} (h : f.Own) : f.lookup "primitive" = none := by
  obtain ⟨c, _, rfl⟩ := h
  exact lookup_primitive_ofCause c

namespace Exec

variable {α β : Type} {env : Environment} {run : Exec Unit} {i : Instruction} {m m₁ m' : Machine}
  {f : Fault} {e : Stop}

/-- Carry out an instruction, without recording where a fault arose. -/
def carryOut (env : Environment) (run : Exec Unit) (i : Instruction) : Exec Unit :=
  match i.known with
  | some v => performUnary env run i v
  | none => perform env run i

theorem execute_eq_carryOut :
    execute env run i = mapFault (bindInstruction env i) (carryOut env run i) :=
  rfl

theorem carryOut_of_known (h : i.known = none) : carryOut env run i = perform env run i := by
  rw [carryOut, h]

theorem carryOut_of_unary (h : i.command.isUnary = true) :
    carryOut env run i = (argument env i >>= performUnary env run i) := by
  unfold carryOut argument
  cases i.known with
  | some v => rw [pure_bind]
  | none =>
    rw [perform]
    simp only [h, if_true]

-- ════════════════════════════════════════════════════════════════════════
-- Arguments
-- ════════════════════════════════════════════════════════════════════════

/-- Evaluate the `k`-th argument of `layout-spring`, which is a set or a number. -/
def springReading (env : Environment) (i : Instruction) (k : Nat) : Exec Unit :=
  if k < 2 then agentsetAt env i.args k i.command.token >>= fun _ => pure ()
  else numberAt env i.args k i.command.token >>= fun _ => pure ()

/-- Evaluate the first `k` arguments of `layout-spring`. -/
def springReadings (env : Environment) (i : Instruction) : Nat → Exec Unit
  | 0 => pure ()
  | k + 1 => springReadings env i k >>= fun _ => springReading env i k

/-- Carrying out an instruction from `m` on, an argument is evaluated from another machine on. -/
inductive Consults (env : Environment) (i : Instruction) (m : Machine) : Expr → Machine → Prop where
  | unary {a : Expr} : i.known = none → i.command.isUnary = true → i.args[0]? = some a →
    Consults env i m a m
  | input {name : String} {index : Nat} {q : Procedure} {before after : List Expr} {a : Expr}
      {frame : Frame} {m₁ : Machine} :
    i.known = none → i.command = .call name index → env.program.procedure index = .ok q →
    i.args = before ++ a :: after →
    fillInputs env 0 before (.fresh index q.locals i.next) m = .ok frame m₁ →
    Consults env i m a m₁
  | spring {k : Nat} {a : Expr} {m₁ : Machine} :
    i.known = none → i.command = .layoutSpring → k < 5 → i.args[k]? = some a →
    springReadings env i k m = .ok () m₁ → Consults env i m a m₁

theorem bind_eq_ok {x : Exec α} {g : α → Exec β} {b : β} (h : (x >>= g) m = .ok b m') :
    ∃ a m₁, x m = .ok a m₁ ∧ g a m₁ = .ok b m' := by
  rw [bind_apply] at h
  cases hx : x m with
  | ok a m₁ =>
    rw [hx] at h
    exact ⟨a, m₁, rfl, h⟩
  | error e m₁ =>
    rw [hx] at h
    cases h

theorem bind_eq_error {x : Exec α} {g : α → Exec β} (h : (x >>= g) m = .error e m') :
    x m = .error e m' ∨ ∃ a m₁, x m = .ok a m₁ ∧ g a m₁ = .error e m' := by
  rw [bind_apply] at h
  cases hx : x m with
  | ok a m₁ =>
    rw [hx] at h
    exact .inr ⟨a, m₁, rfl, h⟩
  | error e' m₁ =>
    rw [hx] at h
    cases h
    exact .inl rfl

/-- A computation that begins with a check fails in the check or after it. -/
theorem ofExcept_bind_eq_error {x : Except Fault α} {g : α → Exec β}
    (h : (ofExcept x >>= g) m = .error (.fault f) m') :
    (x = .error f ∧ m' = m) ∨ ∃ a, x = .ok a ∧ g a m = .error (.fault f) m' := by
  cases x with
  | ok a =>
    rw [ofExcept_ok, pure_bind] at h
    exact .inr ⟨a, rfl, h⟩
  | error g =>
    rw [ofExcept_error] at h
    cases h
    exact .inl ⟨rfl, rfl⟩

/-- A command that fails does so before it moves. -/
theorem error_of_bind_goto {x : Exec α} {target : α → Nat}
    (h : (x >>= fun a => goto (target a)) m = .error e m') : x m = .error e m' := by
  rcases bind_eq_error h with hx | ⟨a, m₁, _, hgoto⟩
  · exact hx
  · cases hgoto

theorem fillInputs_append (before rest : List Expr) (slot : Nat) (frame : Frame) :
    fillInputs env slot (before ++ rest) frame =
      (fillInputs env slot before frame >>= fun frame =>
        fillInputs env (slot + before.length) rest frame) := by
  induction before generalizing slot frame with
  | nil => rfl
  | cons a before ih =>
    have hslot : slot + (before.length + 1) = slot + 1 + before.length := by omega
    simp only [List.cons_append, List.length_cons, fillInputs, bind_assoc, ih, hslot]

theorem evaluateAt_of_some {args : List Expr} {k : Nat} {a : Expr} (h : args[k]? = some a) :
    evaluateAt env args k = evaluate env a := by
  rw [evaluateAt, h]

section Readings

variable {k n : Nat}

/-- The arguments of `layout-spring`. -/
def springArguments (env : Environment) (i : Instruction) :
    Exec (AgentSet × AgentSet × Springs) := do
  let nodes ← agentsetAt env i.args 0 i.command.token
  let links ← agentsetAt env i.args 1 i.command.token
  let constant ← numberAt env i.args 2 i.command.token
  let length ← numberAt env i.args 3 i.command.token
  let repulsion ← numberAt env i.args 4 i.command.token
  return (nodes, links, ⟨constant, length, repulsion⟩)

/-- Lay out springs, given the arguments. -/
def laySprings (token : String) (p : AgentSet × AgentSet × Springs) : Exec Unit := do
  checkKind token p.1 .turtle
  checkKind token p.2.1 .link
  relax p.1 p.2.1 p.2.2

theorem layoutSpring_eq :
    layoutSpring env i =
      (springArguments env i >>= fun p => laySprings i.command.token p >>= fun _ =>
        goto i.next) := by
  simp only [layoutSpring, springArguments, laySprings, relax, bind_assoc, pure_bind]

theorem springReadings_five :
    springReadings env i 5 = (springArguments env i >>= fun _ => pure ()) := by
  simp [springReadings, springReading, springArguments]

theorem springArguments_eq_error :
    springArguments env i m = .error e m' ↔ springReadings env i 5 m = .error e m' := by
  rw [springReadings_five]
  constructor
  · exact fun h => bind_of_error h
  · intro h
    rcases bind_eq_error h with hargs | ⟨_, _, _, hpure⟩
    · exact hargs
    · cases hpure

/-- A reading that fails ends those that come after it. -/
theorem springReadings_of_error (hk : k < n) (hreadings : springReadings env i k m = .ok () m₁)
    (h : springReading env i k m₁ = .error e m') : springReadings env i n m = .error e m' := by
  induction n with
  | zero => omega
  | succ n ih =>
    rw [springReadings]
    by_cases hkn : k = n
    · subst hkn
      rw [bind_of_ok hreadings]
      exact h
    · exact bind_of_error (ih (by omega))

/-- Readings fail in one of them. -/
theorem error_of_springReadings (h : springReadings env i n m = .error e m') :
    ∃ k m₁, k < n ∧ springReadings env i k m = .ok () m₁
      ∧ springReading env i k m₁ = .error e m' := by
  induction n generalizing e m' with
  | zero => cases h
  | succ n ih =>
    rw [springReadings] at h
    rcases bind_eq_error h with hbefore | ⟨_, m₁, hbefore, hlast⟩
    · obtain ⟨k, m₁, hk, hreadings, hreading⟩ := ih hbefore
      exact ⟨k, m₁, by omega, hreadings, hreading⟩
    · exact ⟨n, m₁, by omega, hbefore, hlast⟩

theorem springReading_of_error {a : Expr} (ha : i.args[k]? = some a)
    (h : evaluate env a m = .error e m') : springReading env i k m = .error e m' := by
  rw [springReading]
  split
  · rw [agentsetAt, evaluateAt_of_some ha]
    exact bind_of_error (bind_of_error h)
  · rw [numberAt, evaluateAt_of_some ha]
    exact bind_of_error (bind_of_error h)

end Readings

/-- An argument that fails ends the instruction. -/
theorem Consults.carryOut_eq {a : Expr} (h : Consults env i m a m₁)
    (ha : evaluate env a m₁ = .error e m') : carryOut env run i m = .error e m' := by
  cases h with
  | unary known unary hargs =>
    have hargument : argument env i m = .error e m' := by
      rw [argument, known]
      simp only [evaluateAt_of_some hargs, ha]
    rw [carryOut_of_unary unary, bind_of_error hargument]
  | @input name index q before after _ frame _ known command hq hargs hbefore =>
    have hfill : fillInputs env 0 i.args (.fresh index q.locals i.next) m = .error e m' := by
      rw [hargs, fillInputs_append, bind_of_ok hbefore, fillInputs]
      exact bind_of_error ha
    rw [carryOut_of_known known, perform]
    simp only [command]
    show call env i index m = _
    rw [call, hq, ofExcept_ok, pure_bind]
    exact bind_of_error hfill
  | spring known command hk hargs hreadings =>
    rw [carryOut_of_known known, perform]
    simp only [command]
    show layoutSpring env i m = _
    rw [layoutSpring_eq]
    apply bind_of_error
    rw [springArguments_eq_error]
    exact springReadings_of_error hk hreadings (springReading_of_error hargs ha)

-- ════════════════════════════════════════════════════════════════════════
-- Nested jobs and runs
-- ════════════════════════════════════════════════════════════════════════

variable {entry : Nat} {stream : StreamRef} {s : AgentSet}

/-- A nested job over a list of agents fails in the run of one of them. -/
theorem visits_of_error {agents : List AgentRef}
    (h : runAgents run entry stream agents m = .error e m') :
    ∃ k k', Visits run entry stream agents m k ∧ run k = .error e k' := by
  induction agents generalizing m with
  | nil => cases h
  | cons a rest ih =>
    rw [runAgents_cons] at h
    cases alive : m.world.isAlive a with
    | false =>
      rw [if_neg (by simp [alive])] at h
      obtain ⟨k, k', hvisits, hk⟩ := ih h
      exact ⟨k, k', .skip alive hvisits, hk⟩
    | true =>
      rw [if_pos alive] at h
      rcases bind_eq_error h with hagent | ⟨_, m₁, hagent, hrest⟩
      · rw [runAgent_eq, within] at hagent
        cases hk : run (enterAgent a entry stream m) with
        | ok _ k =>
          rw [hk] at hagent
          cases hagent
        | error e' k' =>
          rw [hk] at hagent
          cases hagent
          exact ⟨_, k', .here alive, hk⟩
      · obtain ⟨k, k', hvisits, hk⟩ := ih hrest
        exact ⟨k, k', .next alive hagent hvisits, hk⟩

/-- A nested job fails because it is nested too deep, or in the run of an agent. -/
theorem opens_of_error (h : runExclusive env run s entry stream m = .error e m') :
    (e = .fault (.ofCause (.nesting env.limits.nesting)) ∧ m' = m)
      ∨ ∃ k k', Opens env run s entry stream m k ∧ run k = .error e k' := by
  rw [runExclusive_eq] at h
  split at h
  · cases h
    exact .inl ⟨rfl, rfl⟩
  · next shallow =>
    rcases bind_eq_error h with hdraw | ⟨order, m₁, hdraw, hagents⟩
    · cases hdraw
    · rw [within] at hagents
      cases hr : runAgents run entry stream order (enterNested m₁) with
      | ok _ m₂ =>
        rw [hr] at hagents
        cases hagents
      | error e' m₂ =>
        rw [hr] at hagents
        cases hagents
        obtain ⟨k, k', hvisits, hk⟩ := visits_of_error hr
        exact .inr ⟨k, k', ⟨by omega, hdraw, hvisits⟩, hk⟩

/-- Fetching fails by a halt or a defect. -/
theorem kind_of_fetch (h : fetch env m = .error (.fault f) m') :
    f.kind = .halted ∨ f.kind = .internalConsistency := by
  obtain ⟨-, ⟨-, rfl⟩ | hi⟩ := fetch_eq_error h
  · exact .inl rfl
  · exact .inr (Program.kind_of_instruction hi)

/-- A run to the end of a block fails in one of its instructions. -/
theorem proceeds_of_error {fuel : Nat} (h : toCompletion env fuel m = .error (.fault f) m') :
    ∃ left m₁, Proceeds env (fun _ => false) fuel m (left + 1) m₁
      ∧ (fetch env >>= execute env (toCompletion env left)) m₁ = .error (.fault f) m' := by
  induction fuel generalizing m with
  | zero =>
    rw [toCompletion, context_bind] at h
    split at h <;> cases h
  | succ fuel ih =>
    cases running : m.context.finished with
    | true =>
      rw [toCompletion, context_bind, running] at h
      cases h
    | false =>
      rw [toCompletion_of_running running] at h
      rcases bind_eq_error h with hfetch | ⟨i, m₁, hfetch, hrest⟩
      · exact ⟨fuel, m, .refl running, bind_of_error hfetch⟩
      · rcases bind_eq_error hrest with hexecute | ⟨_, m₂, hexecute, hrest⟩
        · refine ⟨fuel, m, .refl running, ?_⟩
          rw [bind_of_ok hfetch]
          exact hexecute
        · obtain ⟨left, m₃, hproceeds, hfails⟩ := ih hrest
          exact ⟨left, m₃, .step running hfetch hexecute rfl hproceeds, hfails⟩

-- ════════════════════════════════════════════════════════════════════════
-- The ways to fail
-- ════════════════════════════════════════════════════════════════════════

/-- The ways in which an instruction that is carried out from `m` on fails. -/
inductive Arises (env : Environment) (run : Exec Unit) (i : Instruction) (m : Machine) (f : Fault)
    (m' : Machine) : Prop where
  /-- An argument has no value. -/
  | argument {a : Expr} {m₁ : Machine} : Consults env i m a m₁ →
    evaluate env a m₁ = .error (.fault f) m' → Arises env run i m f m'
  /-- An agent of the nested job fails. -/
  | nested {k k' : Machine} : Launches env run i m k → run k = .error (.fault f) k' →
    Arises env run i m f m'
  /-- The instruction fails by itself, in the call that it belongs to. -/
  | own : f.Own → m'.context.procedure = m.context.procedure → Arises env run i m f m'

section Place

variable {x : Exec α} {a : α} (blind : Blind x)
include blind

theorem Blind.procedure_of_ok (h : x m = .ok a m') :
    m'.context.procedure = m.context.procedure := by
  have hplace := (blind.steady m).procedure
  rwa [h] at hplace

theorem Blind.procedure_of_error (h : x m = .error e m') :
    m'.context.procedure = m.context.procedure := by
  have hplace := (blind.steady m).procedure
  rwa [h] at hplace

end Place

section Commands

variable {v : Value} (place : m₁.context.procedure = m.context.procedure)
include place

/-- A command that runs no block and evaluates no argument. -/
theorem arises_of_blind {x : Exec α} (blind : Blind x) (plain : Plain x)
    (h : x m₁ = .error (.fault f) m') : Arises env run i m f m' :=
  .own (plain m₁ f m' h).own ((blind.procedure_of_error h).trans place)

/-- A command that moves on fails by itself. -/
theorem arises_of_steers {x : Exec Unit} (steers : Steers i x)
    (h : x m₁ = .error (.fault f) m') : Arises env run i m f m' := by
  cases steers with
  | moves blind clean _ => exact arises_of_blind place blind clean.plain (error_of_bind_goto h)
  | refuses _ =>
    cases h
    exact .own ⟨_, rfl, rfl⟩ place

/-- A nested job that fails. -/
theorem arises_of_runExclusive (launches : ∀ k, Opens env run s entry stream m₁ k →
      Launches env run i m k)
    (h : runExclusive env run s entry stream m₁ = .error (.fault f) m') :
    Arises env run i m f m' := by
  rcases opens_of_error h with ⟨hnesting, rfl⟩ | ⟨k, k', hopens, hk⟩
  · cases hnesting
    exact .own ⟨_, rfl, rfl⟩ place
  · exact .nested (launches k hopens) hk

theorem arises_of_ask (command : i.command = .ask) (hv : argument env i m = .ok v m₁)
    (h : Tree.ask env run i.next i.command.token v m₁ = .error (.fault f) m') :
    Arises env run i m f m' := by
  rw [Tree.ask_eq, get_bind] at h
  rcases ofExcept_bind_eq_error h with ⟨hs, rfl⟩ | ⟨s, hs, hblock⟩
  · exact .own (Argument.plain_asked _ _ v f hs).own place
  · obtain ⟨alive, hs⟩ := Argument.asked_eq_ok.1 hs
    exact arises_of_runExclusive place (fun k => .ask command hv alive hs) hblock

theorem arises_of_createTurtles (command : i.command = .createTurtles)
    (hv : argument env i m = .ok v m₁)
    (h : Tree.createTurtles env run i.next i.command.token v m₁ = .error (.fault f) m') :
    Arises env run i m f m' := by
  rw [Tree.createTurtles_eq, context_bind] at h
  rcases ofExcept_bind_eq_error h with ⟨hcount, rfl⟩ | ⟨count, hcount, h⟩
  · exact .own (Argument.plain_births _ _ v f hcount).own place
  · obtain ⟨observer, hcount⟩ := Argument.births_eq_ok.1 hcount
    rcases bind_eq_error h with hspawn | ⟨created, m₂, hspawn, hblock⟩
    · cases hspawn
    · have hplace := (blind_spawn count).procedure_of_ok hspawn
      exact arises_of_runExclusive (hplace.trans place)
        (fun k => .createTurtles command hv observer hcount hspawn) hblock

/-- A command with one argument, given its value. -/
theorem arises_of_performUnary (hv : argument env i m = .ok v m₁)
    (h : performUnary env run i v m₁ = .error (.fault f) m') : Arises env run i m f m' := by
  cases hc : i.command with
  | ask =>
    simp only [performUnary, hc] at h
    rw [ask_goto] at h
    exact arises_of_ask place hc hv (error_of_bind_goto h)
  | createTurtles =>
    simp only [performUnary, hc] at h
    rw [createTurtles_goto] at h
    exact arises_of_createTurtles place hc hv (error_of_bind_goto h)
  | _ => exact arises_of_steers place (steers_performUnary env run (by simp [hc]) (by simp [hc]) v) h

end Commands

/-- An argument fails because there is none, or because it has no value. -/
theorem evaluateAt_eq_error {args : List Expr} {k : Nat}
    (h : evaluateAt env args k m = .error (.fault f) m') :
    (f = .ofDefect (.argumentMissing k) ∧ m' = m)
      ∨ ∃ a, args[k]? = some a ∧ evaluate env a m = .error (.fault f) m' := by
  cases ha : args[k]? with
  | none =>
    rw [evaluateAt, ha] at h
    cases h
    exact .inl ⟨rfl, rfl⟩
  | some a =>
    rw [evaluateAt_of_some ha] at h
    exact .inr ⟨a, rfl, h⟩

theorem blind_argument (env : Environment) (i : Instruction) : Blind (argument env i) := by
  rw [argument]
  split
  · exact blind_pure _
  · exact blind_evaluateAt env i.args 0

theorem blind_fillInputs (env : Environment) (args : List Expr) :
    ∀ (slot : Nat) (frame : Frame), Blind (fillInputs env slot args frame) := by
  induction args with
  | nil => exact fun _ frame => blind_pure frame
  | cons a rest ih =>
    intro slot frame
    exact (blind_evaluate env a).bind fun _ => (blind_ofExcept _).bind fun next =>
      ih (slot + 1) next

theorem blind_springReading (env : Environment) (i : Instruction) (k : Nat) :
    Blind (springReading env i k) := by
  rw [springReading]
  split
  · exact (blind_agentsetAt env i.args k _).bind fun _ => blind_pure ()
  · exact (blind_numberAt env i.args k _).bind fun _ => blind_pure ()

theorem blind_springReadings (env : Environment) (i : Instruction) (k : Nat) :
    Blind (springReadings env i k) := by
  induction k with
  | zero => exact blind_pure ()
  | succ k ih => exact ih.bind fun _ => blind_springReading env i k

theorem blind_springArguments (env : Environment) (i : Instruction) :
    Blind (springArguments env i) := by
  apply (blind_agentsetAt env i.args 0 _).bind
  intro nodes
  apply (blind_agentsetAt env i.args 1 _).bind
  intro links
  apply (blind_numberAt env i.args 2 _).bind
  intro constant
  apply (blind_numberAt env i.args 3 _).bind
  intro length
  apply (blind_numberAt env i.args 4 _).bind
  intro repulsion
  exact blind_pure _

/-- Inputs fail because one of them has no value, or has no place in the frame. -/
theorem fillInputs_eq_error {args : List Expr} {slot : Nat} {frame : Frame}
    (h : fillInputs env slot args frame m = .error (.fault f) m') :
    (f.Own ∧ m'.context.procedure = m.context.procedure)
      ∨ ∃ before a after frame' m₁, args = before ++ a :: after
        ∧ fillInputs env slot before frame m = .ok frame' m₁
        ∧ evaluate env a m₁ = .error (.fault f) m' := by
  induction args generalizing slot frame m with
  | nil => cases h
  | cons a rest ih =>
    rcases bind_eq_error h with ha | ⟨v, m₁, ha, hrest⟩
    · exact .inr ⟨[], a, rest, frame, m, rfl, rfl, ha⟩
    · have hplace := (blind_evaluate env a).procedure_of_ok ha
      rcases ofExcept_bind_eq_error hrest with ⟨hset, rfl⟩ | ⟨next, hset, hrest⟩
      · exact .inl ⟨(frame.plain_set slot v f hset).own, hplace⟩
      · rcases ih hrest with ⟨hown, hrestPlace⟩ | ⟨before, b, after, frame', m₂, rfl, hbefore, hb⟩
        · exact .inl ⟨hown, hrestPlace.trans hplace⟩
        · refine .inr ⟨a :: before, b, after, frame', m₂, rfl, ?_, hb⟩
          rw [fillInputs, bind_of_ok ha, hset, ofExcept_ok, pure_bind]
          exact hbefore

theorem arises_of_call {name : String} {index : Nat} (known : i.known = none)
    (command : i.command = .call name index) (h : call env i index m = .error (.fault f) m') :
    Arises env run i m f m' := by
  rw [call] at h
  rcases ofExcept_bind_eq_error h with ⟨hq, rfl⟩ | ⟨q, hq, h⟩
  · rw [Program.procedure] at hq
    split at hq <;> cases hq
    exact .own ⟨_, rfl, rfl⟩ rfl
  · rcases bind_eq_error h with hfill | ⟨frame, m₁, hfill, hpush⟩
    · rcases fillInputs_eq_error hfill with ⟨hown, hplace⟩ | ⟨_, _, _, _, _, hargs, hbefore, ha⟩
      · exact .own hown hplace
      · exact .argument (.input known command hq hargs hbefore) ha
    · have hplace :=
        (blind_fillInputs env i.args 0 (.fresh index q.locals i.next)).procedure_of_ok hfill
      rw [context_bind] at hpush
      rcases ofExcept_bind_eq_error hpush with ⟨hf, rfl⟩ | ⟨frames, _, hmove⟩
      · exact .own (CallStack.plain_push _ _ f hf).own hplace
      · cases hmove

theorem arises_of_leave (h : leave m = .error (.fault f) m') : Arises env run i m f m' := by
  rw [leave, context_bind] at h
  split at h
  · cases h
  · rcases ofExcept_bind_eq_error h with ⟨hp, rfl⟩ | ⟨_, _, hmove⟩
    · unfold CallStack.pop at hp
      split at hp <;> cases hp
      exact .own ⟨_, rfl, rfl⟩ rfl
    · cases hmove

theorem arises_of_die (h : die m = .error (.fault f) m') : Arises env run i m f m' := by
  rw [die, get_bind] at h
  rcases ofExcept_bind_eq_error h with ⟨hm, rfl⟩ | ⟨_, _, hremove⟩
  · exact .own (World.plain_mortal _ _ f hm).own rfl
  · cases hremove

/-- A reading fails because there is no argument, because it has no value, or because the value is
of another type. -/
theorem springReading_eq_error {k : Nat}
    (h : springReading env i k m = .error (.fault f) m') :
    (f.Own ∧ m'.context.procedure = m.context.procedure)
      ∨ ∃ a, i.args[k]? = some a ∧ evaluate env a m = .error (.fault f) m' := by
  have hvalue {β : Type} {check : Value → Except Fault β} (plain : ∀ v, Except.Plain (check v))
      (h : (evaluateAt env i.args k >>= fun v => ofExcept (check v)) m = .error (.fault f) m') :
      (f.Own ∧ m'.context.procedure = m.context.procedure)
        ∨ ∃ a, i.args[k]? = some a ∧ evaluate env a m = .error (.fault f) m' := by
    rcases bind_eq_error h with hv | ⟨v, m₁, hv, hcheck⟩
    · rcases evaluateAt_eq_error hv with ⟨rfl, rfl⟩ | ha
      · exact .inl ⟨⟨_, rfl, rfl⟩, rfl⟩
      · exact .inr ha
    · have hplace := (blind_evaluateAt env i.args k).procedure_of_ok hv
      cases hc : check v with
      | ok b =>
        rw [hc] at hcheck
        cases hcheck
      | error g =>
        rw [hc, ofExcept_error] at hcheck
        cases hcheck
        exact .inl ⟨(plain v f hc).own, hplace⟩
  rw [springReading] at h
  split at h
  · rcases bind_eq_error h with hs | ⟨_, _, _, hpure⟩
    · exact hvalue (fun v => Argument.plain_agentset _ v) hs
    · cases hpure
  · rcases bind_eq_error h with hx | ⟨_, _, _, hpure⟩
    · exact hvalue (fun v => Argument.plain_number _ v) hx
    · cases hpure

theorem blind_laySprings (token : String) (p : AgentSet × AgentSet × Springs) :
    Blind (laySprings token p) :=
  (blind_checkKind token p.1 .turtle).bind fun _ => (blind_checkKind token p.2.1 .link).bind
    fun _ => blind_relax p.1 p.2.1 p.2.2

theorem clean_laySprings (token : String) (p : AgentSet × AgentSet × Springs) :
    Clean (laySprings token p) :=
  (clean_checkKind token p.1 .turtle).bind fun _ => (clean_checkKind token p.2.1 .link).bind
    fun _ => clean_relax p.1 p.2.1 p.2.2

theorem arises_of_layoutSpring (known : i.known = none) (command : i.command = .layoutSpring)
    (h : layoutSpring env i m = .error (.fault f) m') : Arises env run i m f m' := by
  rw [layoutSpring_eq] at h
  rcases bind_eq_error h with hargs | ⟨p, m₁, hargs, hlay⟩
  · rw [springArguments_eq_error] at hargs
    obtain ⟨k, m₁, hk, hreadings, hreading⟩ := error_of_springReadings hargs
    have hplace := (blind_springReadings env i k).procedure_of_ok hreadings
    rcases springReading_eq_error hreading with ⟨hown, hown'⟩ | ⟨a, ha, hfails⟩
    · exact .own hown (hown'.trans hplace)
    · exact .argument (.spring known command hk ha hreadings) hfails
  · have hplace := (blind_springArguments env i).procedure_of_ok hargs
    exact arises_of_blind hplace (blind_laySprings _ p) (clean_laySprings _ p).plain
      (error_of_bind_goto hlay)

theorem arises_of_withLocalRandomness (known : i.known = none)
    (command : i.command = .withLocalRandomness)
    (h : Tree.withLocalRandomness env run i.next m = .error (.fault f) m') :
    Arises env run i m f m' := by
  rw [Tree.withLocalRandomness, context_bind, withStreamCopy_eq, within] at h
  cases hblock : runExclusive env run (.ofAgent m.context.agent) i.next ⟨m.streams.store.size⟩
      (enterCopy m) with
  | ok _ m₁ =>
    rw [hblock] at h
    cases h
  | error e m₁ =>
    rw [hblock] at h
    cases h
    rcases opens_of_error hblock with ⟨hnesting, rfl⟩ | ⟨k, k', hopens, hk⟩
    · cases hnesting
      exact .own ⟨_, rfl, rfl⟩ rfl
    · exact .nested (.withLocalRandomness command known hopens) hk

theorem arises_of_carefully (known : i.known = none) (command : i.command = .carefully)
    (h : Tree.carefully env run i.next m = .error (.fault f) m') : Arises env run i m f m' := by
  rw [Tree.carefully, context_bind, Tree.caught_apply] at h
  rcases hblock : runExclusive env run (.ofAgent m.context.agent) i.next m.context.stream m with
    ⟨_, m₁⟩ | ⟨⟨g⟩ | _, m₁⟩ <;> rw [hblock] at h
  · cases h
  · rw [Tree.caughtEnding] at h
    split at h <;> cases h
    exact arises_of_runExclusive rfl (fun k => .carefully command known) hblock
  · cases h

/-- A command, with its arguments. -/
theorem arises_of_perform (known : i.known = none) (multiple : i.command.isUnary = false)
    (h : perform env run i m = .error (.fault f) m') : Arises env run i m f m' := by
  rw [perform, if_neg (by simp [multiple])] at h
  cases hc : i.command with
  | withLocalRandomness =>
    simp only [hc] at h
    rw [withLocalRandomness_goto] at h
    exact arises_of_withLocalRandomness known hc (error_of_bind_goto h)
  | carefully =>
    simp only [hc] at h
    rw [carefully_goto] at h
    exact arises_of_carefully known hc (error_of_bind_goto h)
  | call name index =>
    simp only [hc] at h
    exact arises_of_call known hc h
  | stop =>
    simp only [hc] at h
    exact arises_of_leave h
  | ret =>
    simp only [hc] at h
    exact arises_of_leave h
  | die =>
    simp only [hc] at h
    exact arises_of_die h
  | layoutSpring =>
    simp only [hc] at h
    exact arises_of_layoutSpring known hc h
  | goto =>
    simp only [hc] at h
    cases h
  | repeatCheck slot =>
    simp only [hc] at h
    exact arises_of_steers rfl (steers_countDown hc) h
  | done =>
    simp only [hc] at h
    cases h
  | _ =>
    simp only [hc] at h
    cases h
    exact .own ⟨_, rfl, rfl⟩ rfl

theorem performUnary_of_multiple (h : i.command.isUnary = false) (v : Value) :
    performUnary env run i v = fail (.ofDefect (.notUnaryCommand i.command.token)) := by
  unfold performUnary
  cases hc : i.command <;> first | rfl | (rw [hc] at h; cases h)

/-- An instruction fails because an argument has no value, because an agent of its nested job
fails, or by itself. -/
theorem arises_of_carryOut (h : carryOut env run i m = .error (.fault f) m') :
    Arises env run i m f m' := by
  cases hunary : i.command.isUnary with
  | true =>
    rw [carryOut_of_unary hunary] at h
    rcases bind_eq_error h with hv | ⟨v, m₁, hv, hcommand⟩
    · cases hknown : i.known with
      | some v =>
        rw [argument, hknown] at hv
        cases hv
      | none =>
        rw [argument, hknown] at hv
        rcases evaluateAt_eq_error hv with ⟨rfl, rfl⟩ | ⟨a, ha, hfails⟩
        · exact .own ⟨_, rfl, rfl⟩ rfl
        · exact .argument (.unary hknown hunary ha) hfails
    · have hplace := (blind_argument env i).procedure_of_ok hv
      exact arises_of_performUnary hplace hv hcommand
  | false =>
    cases hknown : i.known with
    | none =>
      rw [carryOut_of_known hknown] at h
      exact arises_of_perform hknown hunary h
    | some v =>
      -- a command that takes no single argument fails if it is given one
      rw [carryOut, hknown] at h
      simp only [performUnary_of_multiple hunary] at h
      cases h
      exact .own ⟨_, rfl, rfl⟩ rfl

end Exec

end Swarm
