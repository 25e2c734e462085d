import Swarm.Proofs.Exec.Driving

/-!
# Where an instruction leaves its agent

An instruction that succeeds ends the agent's block, moves within the running call to a place that
it names, enters a call, or leaves one. Nested jobs make no difference: they hand the frames back as
they were but for the locals on top, so the construct around them is a move within the call as well.

## Main definitions

* `Exec.Moves`: the ways in which an instruction succeeds

## Main results

* `Exec.moves_of_execute`: an instruction succeeds in one of these ways
* `Exec.sameRoom_effects`: every effect leaves the bound on calls as it is
-/

namespace Swarm

/-- A construct that runs nested jobs names the place after it. -/
theorem Instruction.names_offset_of_exclusive {i : Instruction}
    (exclusive : i.command.isExclusive = true) : i.Names i.offset := by
  refine .offset ?_
  unfold hasOffset
  cases hc : i.command <;>
    first
    | rfl
    | (rw [hc] at exclusive; cases exclusive)

namespace Exec

variable {α : Type} {env : Environment} {run : Exec Unit} {i : Instruction} {m m₁ m' : Machine}
  {s : AgentSet} {stream : StreamRef}

/-- Where an instruction that succeeds leaves the agent that carries it out. -/
inductive Moves (i : Instruction) (m m' : Machine) : Prop where
  /-- The agent's block is over. -/
  | ends : m'.context.finished = true → Moves i m m'
  /-- The agent goes on in the same call. -/
  | jumps : TopLike m.context.frames.frames m'.context.frames.frames → i.Names m'.context.ip →
    Moves i m m'
  /-- A call is entered, which is going to return to the next instruction. -/
  | calls : TopLike m.context.frames.frames m'.context.frames.below →
    m'.context.frames.top.returnIp = i.next → i.Names i.next → m'.context.ip = 0 →
    m'.context.frames.depth ≤ m'.context.frames.maxDepth → Moves i m m'
  /-- A call is left. -/
  | returns {f : Frame} : m.context.frames.frames = f :: m'.context.frames.frames →
    m'.context.ip = f.returnIp → Moves i m m'

/-- The bound on calls is the same. -/
def SameRoom (m m' : Machine) : Prop :=
  m'.context.frames.maxDepth = m.context.frames.maxDepth

theorem sameRoom_effects : Effects SameRoom where
  refl _ := rfl
  trans h₁ h₂ := h₂.trans h₁
  registers _ _ _ _ _ := rfl
  assign _ := rfl
  push hp := (CallStack.frames_of_push hp).2.1
  pop _ hp := (CallStack.frames_of_pop hp).2
  draw _ _ := rfl
  write _ := rfl
  print _ _ := rfl
  relax m nodes links springs := by
    obtain ⟨w, s, notices, hm⟩ := final_relax nodes links springs m
    rw [hm]
    exact rfl
  remove _ := rfl
  spawn _ _ := rfl
  agent {m m'} _ _ _ h :=
    (CallStack.frames_unwindTo m'.context.frames m.context.frames.depth_pos).2.trans h
  nested h := h
  copy h := h
  read _ := rfl

-- ════════════════════════════════════════════════════════════════════════
-- Moves within a call
-- ════════════════════════════════════════════════════════════════════════

theorem Blind.frames_of_ok {x : Exec α} {a : α} (blind : Blind x) (h : x m = .ok a m') :
    TopLike m.context.frames.frames m'.context.frames.frames := by
  have hsteady := blind.steady m
  rw [h] at hsteady
  exact hsteady.frames

/-- The agent goes on in the same call, at a place that the instruction names. -/
structure GoesOn (i : Instruction) (m m' : Machine) : Prop where
  frames : TopLike m.context.frames.frames m'.context.frames.frames
  place : i.Names m'.context.ip

theorem goesOn_of_goto {x : Exec α} {target : α → Nat} (blind : Blind x)
    (names : ∀ a, i.Names (target a)) (h : (x >>= fun a => goto (target a)) m = .ok () m') :
    GoesOn i m m' := by
  obtain ⟨a, m₁, hx, hgoto⟩ := bind_eq_ok h
  have hframes := blind.frames_of_ok hx
  cases hgoto
  exact ⟨hframes, names a⟩

/-- A command that moves on stays in the call. -/
theorem goesOn_of_steers {x : Exec Unit} (steers : Steers i x) (h : x m = .ok () m') :
    GoesOn i m m' := by
  cases steers with
  | moves blind _ names => exact goesOn_of_goto blind names h
  | refuses _ => cases h

theorem GoesOn.moves (h : GoesOn i m m') : Moves i m m' :=
  .jumps h.frames h.place

-- ════════════════════════════════════════════════════════════════════════
-- Calls, returns and ends
-- ════════════════════════════════════════════════════════════════════════

/-- A call is entered only if there is room for its frame. -/
theorem depth_le_of_call {index : Nat} (h : call env i index m = .ok () m') :
    m'.context.frames.depth ≤ m'.context.frames.maxDepth := by
  obtain ⟨q, _, h⟩ := ofExcept_bind_eq_ok h
  obtain ⟨frame, m₁, _, h⟩ := bind_eq_ok h
  rw [context_bind] at h
  obtain ⟨frames, hpush, h⟩ := ofExcept_bind_eq_ok h
  cases h
  obtain ⟨_, hmax, hroom⟩ := CallStack.frames_of_push hpush
  show frames.depth ≤ frames.maxDepth
  rw [CallStack.depth_of_push hpush, hmax]
  exact hroom

theorem moves_of_call {name : String} {index : Nat} (hc : i.command = .call name index)
    (h : call env i index m = .ok () m') : Moves i m m' := by
  obtain ⟨_, returnIp, below, _, _, ip⟩ := Tree.entered_of_call h
  exact .calls below returnIp (.next (by rw [hc]; rfl)) ip (depth_le_of_call h)

theorem moves_of_leave (h : leave m = .ok () m') : Moves i m m' := by
  rw [leave, context_bind] at h
  split at h
  · cases h
    exact .ends rfl
  · obtain ⟨⟨f, frames⟩, hpop, h⟩ := ofExcept_bind_eq_ok h
    cases h
    exact .returns (CallStack.frames_of_pop hpop).1 rfl

/-- A command that takes no single argument and runs no nested job. -/
theorem moves_of_perform (multiple : i.command.isUnary = false)
    (quiet : i.command.isExclusive = false) (h : perform env run i m = .ok () m') :
    Moves i m m' := by
  rw [perform, if_neg (by simp [multiple])] at h
  cases hc : i.command with
  | withLocalRandomness => simp [hc, Command.isExclusive] at quiet
  | carefully => simp [hc, Command.isExclusive] at quiet
  | call name index =>
    simp only [hc] at h
    exact moves_of_call hc h
  | stop =>
    simp only [hc] at h
    exact moves_of_leave h
  | ret =>
    simp only [hc] at h
    exact moves_of_leave h
  | die =>
    simp only [hc] at h
    exact .ends (Tree.finished_of_die h)
  | layoutSpring =>
    simp only [hc] at h
    rw [layoutSpring_goto] at h
    exact (goesOn_of_goto (Tree.blind_layoutSpring env _ _) (fun _ => .next (by rw [hc]; rfl))
      h).moves
  | goto =>
    simp only [hc] at h
    exact (goesOn_of_steers (steers_goto hc) h).moves
  | repeatCheck slot =>
    simp only [hc] at h
    exact (goesOn_of_steers (steers_countDown hc) h).moves
  | done =>
    simp only [hc] at h
    cases h
    exact .ends rfl
  | _ =>
    simp only [hc] at h
    cases h

-- ════════════════════════════════════════════════════════════════════════
-- Constructs that run nested jobs
-- ════════════════════════════════════════════════════════════════════════

/-- An instruction comes to its nested job in the call that it was carried out in. -/
theorem Drives.frames (h : Drives env i m s stream m₁) :
    TopLike m.context.frames.frames m₁.context.frames.frames := by
  cases h with
  | ask _ hv _ _ => exact (blind_argument env i).frames_of_ok hv
  | createTurtles _ hv _ _ hspawn =>
    exact ((blind_argument env i).frames_of_ok hv).trans ((blind_spawn _).frames_of_ok hspawn)
  | withLocalRandomness => exact .refl _
  | carefully => exact .refl _

theorem Concludes.goesOn {r : Ending Unit} (exclusive : i.command.isExclusive = true)
    (h : Concludes i m r m')
    (frames : TopLike m.context.frames.frames (final r).context.frames.frames) : GoesOn i m m' := by
  cases h with
  | ended => exact ⟨frames, Instruction.names_offset_of_exclusive exclusive⟩
  | copied => exact ⟨frames, Instruction.names_offset_of_exclusive exclusive⟩
  | caught command _ =>
    exact ⟨frames, .alternate (by simp [Instruction.hasAlternate, command])⟩

/-- An instruction that succeeds ends the agent's block, moves within the call, enters a call or
leaves one. -/
theorem moves_of_execute (framed : Keeps Framed run) (seated : Keeps SameSeat run)
    (h : execute env run i m = .ok () m') : Moves i m m' := by
  cases exclusive : i.command.isExclusive with
  | true =>
    obtain ⟨s, stream, m₁, hdrives, hconcludes⟩ := drives_of_execute exclusive h
    have hback := handsBack_runExclusive framed seated env s i.next stream m₁
    exact (hconcludes.goesOn exclusive (hdrives.frames.trans hback.frames)).moves
  | false =>
    rw [execute_eq_carryOut] at h
    have hcarry := mapFault_eq_ok h
    cases hunary : i.command.isUnary with
    | true =>
      rw [carryOut_of_unary hunary] at hcarry
      obtain ⟨v, m₁, hv, hcommand⟩ := bind_eq_ok hcarry
      have ask : i.command ≠ .ask := fun hc => by simp [hc, Command.isExclusive] at exclusive
      have create : i.command ≠ .createTurtles := fun hc => by
        simp [hc, Command.isExclusive] at exclusive
      obtain ⟨frames, place⟩ := goesOn_of_steers (steers_performUnary env run ask create v) hcommand
      exact .jumps (((blind_argument env i).frames_of_ok hv).trans frames) place
    | false =>
      rw [carryOut_of_known (known_of_multiple hunary hcarry)] at hcarry
      exact moves_of_perform hunary exclusive hcarry

end Exec

end Swarm
