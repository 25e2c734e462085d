import Swarm.Proofs.Exec.Moves

/-!
# Where fuel runs out

What an instruction does by itself needs no fuel, however long its arguments and sets are. So an
instruction runs out of fuel only while its nested job does, and a nested job only while one of its
agents runs. This agent began in the call that the instruction belongs to, at the instruction
after it.

## Main definitions

* `Exec.Sated`: a computation that does not run out of fuel
* `Exec.Starves`: an instruction comes to a nested job that runs out of fuel
* `Exec.BeginsIn`: an agent of a nested job begins in the call of another machine

## Main results

* `Exec.starves_of_exhausted`: an instruction that runs out of fuel does so in its nested job
* `Exec.begins_of_exhausted`: and there in the run of an agent
-/

namespace Swarm.Exec

variable {α : Type} {env : Environment} {run : Exec Unit} {i : Instruction} {m m₁ m' k : Machine}
  {s : AgentSet} {stream : StreamRef} {entry : Nat} {agents : List AgentRef}

/-- The computation does not run out of fuel. -/
abbrev Sated (x : Exec α) : Prop :=
  StopsWith (· ≠ .exhausted) x

/-- Primitives need no fuel. -/
theorem StopsWith.sated {x : Exec α} (h : Clean x) : Sated x :=
  .of_clean (fun _ _ h => by cases h) h

theorem StopsWith.ne_exhausted {x : Exec α} (h : Sated x) : x m ≠ .error .exhausted m' :=
  fun hx => h m _ m' hx rfl

theorem exhausted_iff {r : Ending α} : Exhausted r ↔ ∃ m, r = .error .exhausted m := by
  rcases r with ⟨a, m⟩ | ⟨⟨f⟩ | _, m⟩
  · exact ⟨False.elim, by rintro ⟨_, ⟨⟩⟩⟩
  · exact ⟨False.elim, by rintro ⟨_, ⟨⟩⟩⟩
  · exact ⟨fun _ => ⟨m, rfl⟩, fun _ => trivial⟩

-- ════════════════════════════════════════════════════════════════════════
-- What needs no fuel
-- ════════════════════════════════════════════════════════════════════════

theorem sated_ofExcept (x : Except Fault α) : Sated (ofExcept x) :=
  stopsWith_ofExcept (P := (· ≠ .exhausted)) fun _ _ h => by cases h

theorem sated_argument (env : Environment) (i : Instruction) : Sated (argument env i) := by
  rw [argument]
  split
  · exact stopsWith_pure _
  · exact stopsWith_evaluateAt (fun _ _ h => by cases h) (fun _ _ _ _ _ h => by cases h) env
      i.args 0

theorem sated_fillInputs (env : Environment) (args : List Expr) (slot : Nat) (frame : Frame) :
    Sated (fillInputs env slot args frame) :=
  stopsWith_fillInputs (fun _ _ h => by cases h) (fun _ _ _ _ _ h => by cases h) env args slot frame

theorem sated_call (env : Environment) (i : Instruction) (index : Nat) :
    Sated (call env i index) := by
  apply (sated_ofExcept _).bind
  intro q
  apply (sated_fillInputs env i.args 0 _).bind
  intro frame
  apply stopsWith_context
  intro c
  exact (sated_ofExcept _).bind fun _ => stopsWith_modify _

theorem sated_leave : Sated leave := by
  apply stopsWith_context
  intro c
  split
  · exact stopsWith_modify _
  · exact (sated_ofExcept _).bind fun _ => stopsWith_modify _

theorem sated_layoutSpring (env : Environment) (args : List Expr) (token : String) :
    Sated (Tree.layoutSpring env args token) :=
  stopsWith_layoutSpring (fun _ _ h => by cases h) (fun _ _ _ _ _ h => by cases h) env args token

theorem sated_fetch (env : Environment) : Sated (fetch env) := by
  rintro m e m' h rfl
  rw [fetch_apply] at h
  split at h
  · cases h
  · exact sated_ofExcept _ _ _ _ h rfl

theorem sated_endTurn (env : Environment) : Sated (endTurn env) := by
  refine StopsWith.bind (stopsWith_context fun c => ?_) fun _ => stopsWith_modify _
  refine (sated_ofExcept _).bind fun i => ?_
  split <;> exact stopsWith_pure _

/-- A command that moves on does so without fuel. -/
theorem sated_of_steers {x : Exec Unit} (steers : Steers i x) : Sated x := by
  cases steers with
  | moves _ clean _ => exact clean.sated.bind fun _ => stopsWith_modify _
  | refuses _ => exact stopsWith_fail (by rintro ⟨⟩)

/-- A command that takes no single argument and runs no nested job. -/
theorem sated_perform (multiple : i.command.isUnary = false)
    (quiet : i.command.isExclusive = false) : perform env run i m ≠ .error .exhausted m' := by
  intro h
  rw [perform, if_neg (by simp [multiple])] at h
  cases hc : i.command with
  | withLocalRandomness => simp [hc, Command.isExclusive] at quiet
  | carefully => simp [hc, Command.isExclusive] at quiet
  | call name index =>
    simp only [hc] at h
    exact (sated_call env i index).ne_exhausted h
  | stop =>
    simp only [hc] at h
    exact sated_leave.ne_exhausted h
  | ret =>
    simp only [hc] at h
    exact sated_leave.ne_exhausted h
  | die =>
    simp only [hc] at h
    exact clean_die.sated.ne_exhausted h
  | layoutSpring =>
    simp only [hc] at h
    rw [layoutSpring_goto] at h
    exact (sated_layoutSpring env _ _).ne_exhausted (error_of_bind_goto h)
  | repeatCheck slot =>
    simp only [hc] at h
    exact (sated_of_steers (steers_countDown hc)).ne_exhausted h
  | _ =>
    simp only [hc] at h
    cases h

-- ════════════════════════════════════════════════════════════════════════
-- What needs fuel
-- ════════════════════════════════════════════════════════════════════════

/-- The instruction comes to a nested job, which runs out of fuel. -/
def Starves (env : Environment) (run : Exec Unit) (i : Instruction) (m : Machine) : Prop :=
  ∃ s stream m₁ m₂, Drives env i m s stream m₁
    ∧ runExclusive env run s i.next stream m₁ = .error .exhausted m₂

theorem starves_of_ask {v : Value} (command : i.command = .ask) (hv : argument env i m = .ok v m₁)
    (h : Tree.ask env run i.next i.command.token v m₁ = .error .exhausted m') :
    Starves env run i m := by
  rw [Tree.ask_eq, get_bind] at h
  cases hs : Argument.asked m₁.world i.command.token v with
  | error f =>
    rw [hs] at h
    cases h
  | ok s =>
    rw [hs] at h
    obtain ⟨alive, hs⟩ := Argument.asked_eq_ok.1 hs
    exact ⟨s, _, m₁, m', .ask command hv alive hs, h⟩

theorem starves_of_createTurtles {v : Value} (command : i.command = .createTurtles)
    (hv : argument env i m = .ok v m₁)
    (h : Tree.createTurtles env run i.next i.command.token v m₁ = .error .exhausted m') :
    Starves env run i m := by
  rw [Tree.createTurtles_eq, context_bind] at h
  cases hcount : Argument.births m₁.context.agent.kind i.command.token v with
  | error f =>
    rw [hcount] at h
    cases h
  | ok count =>
    rw [hcount, ofExcept_ok, pure_bind] at h
    obtain ⟨observer, hcount⟩ := Argument.births_eq_ok.1 hcount
    rcases bind_eq_error h with hspawn | ⟨created, m₂, hspawn, hblock⟩
    · cases hspawn
    · exact ⟨created, _, m₂, m', .createTurtles command hv observer hcount hspawn, hblock⟩

theorem starves_of_withLocalRandomness (known : i.known = none)
    (command : i.command = .withLocalRandomness)
    (h : Tree.withLocalRandomness env run i.next m = .error .exhausted m') :
    Starves env run i m := by
  rw [Tree.withLocalRandomness, context_bind, withStreamCopy_eq, within] at h
  obtain ⟨m₂, hblock⟩ := exhausted_iff.1 ((exhausted_settle _).1 (exhausted_iff.2 ⟨m', h⟩))
  exact ⟨_, _, _, m₂, .withLocalRandomness command known, hblock⟩

theorem starves_of_carefully (known : i.known = none) (command : i.command = .carefully)
    (h : Tree.carefully env run i.next m = .error .exhausted m') : Starves env run i m := by
  rw [Tree.carefully, context_bind, Tree.caught_apply] at h
  obtain ⟨m₂, hblock⟩ :=
    exhausted_iff.1 ((Tree.exhausted_caughtEnding _).1 (exhausted_iff.2 ⟨m', h⟩))
  exact ⟨_, _, m, m₂, .carefully command known, hblock⟩

/-- An instruction that runs out of fuel does so in its nested job. -/
theorem starves_of_exhausted (h : Exhausted (execute env run i m)) : Starves env run i m := by
  rw [execute_eq_carryOut, mapFault_apply, exhausted_recorded] at h
  obtain ⟨m', hcarry⟩ := exhausted_iff.1 h
  cases hunary : i.command.isUnary with
  | true =>
    rw [carryOut_of_unary hunary] at hcarry
    rcases bind_eq_error hcarry with hv | ⟨v, m₁, hv, hcommand⟩
    · exact absurd hv (sated_argument env i).ne_exhausted
    cases hc : i.command with
    | ask =>
      simp only [performUnary, hc, ask_goto] at hcommand
      rw [← hc] at hcommand
      exact starves_of_ask hc hv (error_of_bind_goto hcommand)
    | createTurtles =>
      simp only [performUnary, hc, createTurtles_goto] at hcommand
      rw [← hc] at hcommand
      exact starves_of_createTurtles hc hv (error_of_bind_goto hcommand)
    | withLocalRandomness => simp [hc, Command.isUnary, Command.arity] at hunary
    | carefully => simp [hc, Command.isUnary, Command.arity] at hunary
    | _ =>
      have steers := steers_performUnary env run (by simp [hc] : i.command ≠ .ask) (by simp [hc]) v
      exact absurd hcommand (sated_of_steers steers).ne_exhausted
  | false =>
    cases hknown : i.known with
    | some v =>
      -- a command that takes no single argument fails at once if it is given one
      rw [carryOut, hknown] at hcarry
      simp only [performUnary_of_multiple hunary] at hcarry
      cases hcarry
    | none =>
      rw [carryOut_of_known hknown] at hcarry
      cases hc : i.command with
      | withLocalRandomness =>
        simp only [perform, hc] at hcarry
        exact starves_of_withLocalRandomness hknown hc
          (error_of_bind_goto (withLocalRandomness_goto ▸ hcarry))
      | carefully =>
        simp only [perform, hc] at hcarry
        exact starves_of_carefully hknown hc (error_of_bind_goto (carefully_goto ▸ hcarry))
      | ask => simp [hc, Command.isUnary, Command.arity] at hunary
      | createTurtles => simp [hc, Command.isUnary, Command.arity] at hunary
      | _ => exact absurd hcarry (sated_perform hunary (by rw [hc]; rfl))

-- ════════════════════════════════════════════════════════════════════════
-- Agents that begin
-- ════════════════════════════════════════════════════════════════════════

/-- In `k` an agent of a nested job is about to begin its block at `entry`, in the call of `m`. -/
structure BeginsIn (entry : Nat) (m k : Machine) : Prop where
  frames : TopLike m.context.frames.frames k.context.frames.frames
  room : SameRoom m k
  place : k.context.ip = entry

/-- The agent begins in the call of every machine that the job may have started from. -/
theorem BeginsIn.of_topLike (h : BeginsIn entry m₁ k)
    (frames : TopLike m.context.frames.frames m₁.context.frames.frames) (room : SameRoom m m₁) :
    BeginsIn entry m k :=
  ⟨frames.trans h.frames, h.room.trans room, h.place⟩

theorem Visits.begins (framed : Keeps Framed run) (h : Visits run entry stream agents m k) :
    BeginsIn entry m k := by
  induction h with
  | here _ => exact ⟨.refl _, rfl, rfl⟩
  | skip _ _ ih => exact ih
  | @next m m₁ k a rest _ hagent _ ih =>
    obtain ⟨frames, _, room⟩ := frames_leaveAgent (framed (enterAgent a entry stream m))
    have hback : leaveAgent m (final (run (enterAgent a entry stream m))) = m₁ := by
      have hfinal := congrArg final hagent
      rwa [runAgent_eq, within, final_settle] at hfinal
    rw [hback] at frames room
    exact ih.of_topLike frames room

theorem Opens.begins (framed : Keeps Framed run) (h : Opens env run s entry stream m k) :
    BeginsIn entry m k := by
  obtain ⟨_, hdraw, hvisits⟩ := h
  cases hdraw
  exact (hvisits.begins framed).of_topLike (.refl _) rfl

/-- A construct that runs nested jobs names the start of its block. -/
theorem Drives.names_next (h : Drives env i m s stream m₁) : i.Names i.next := by
  cases h with
  | ask command => exact .next (by rw [command]; rfl)
  | createTurtles command => exact .next (by rw [command]; rfl)
  | withLocalRandomness command => exact .next (by rw [command]; rfl)
  | carefully command => exact .next (by rw [command]; rfl)

/-- An instruction runs out of fuel in the run of an agent of its nested job. -/
theorem begins_of_exhausted (framed : Keeps Framed run) (h : Exhausted (execute env run i m)) :
    ∃ k, i.Names i.next ∧ BeginsIn i.next m k ∧ Exhausted (run k) := by
  obtain ⟨s, stream, m₁, m₂, hdrives, hblock⟩ := starves_of_exhausted h
  rcases opens_of_error hblock with ⟨hfault, _⟩ | ⟨k, k', hopens, hk⟩
  · cases hfault
  · have room := sameRoom_effects.toQuiet.drives (fun _ => rfl) hdrives
    exact ⟨k, hdrives.names_next, (hopens.begins framed).of_topLike hdrives.frames room,
      exhausted_iff.2 ⟨k', hk⟩⟩

end Swarm.Exec
