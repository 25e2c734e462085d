import Swarm.Proofs.Exec.Exhaustion
import Swarm.Proofs.Streams.Isolation

/-!
# How deep a context is

An agent of a nested job starts on the frames of the context around it, so the bound on the frames
of one agent is a bound on the calls of all contexts around it as well. Nested jobs are counted
apart, up by one before each of them and down by one after it. Both counts are checked before
anything is put up: a call or a nested job that goes too deep leaves what was there before it.

## Main definitions

* `CallStack.Bounded`: a stack within its bound
* `Exec.Confined`: a context inside of enclosures, within the limits
* `Exec.Calls`: an instruction comes to its call
* `Exec.Drew`, `Exec.Unentered`: what is left by instructions that come to a call or a nested job

## Main results

* `Exec.staysBounded_effects`: every effect leaves a stack within its bound
* `Exec.Within.confined`: every context that a turn comes to is confined
* `Exec.Calls.execute_of_full`, `Exec.Calls.execute_of_room`: calls at the bound and below it
* `Exec.Drives.execute_of_deep`: nested jobs at the limit
-/

namespace Swarm

-- ════════════════════════════════════════════════════════════════════════
-- Stacks within their bound
-- ════════════════════════════════════════════════════════════════════════

namespace CallStack

/-- A stack with a bound on its frames, and within it. The frame that it began with is there
whatever the bound. -/
structure Bounded (bound : Nat) (s : CallStack) : Prop where
  maxDepth : s.maxDepth = bound
  depth : s.depth ≤ max 1 bound

variable {bound : Nat} {s t : CallStack} {f : Frame}

theorem bounded_ofFrame (bound : Nat) (f : Frame) : (ofFrame bound f).Bounded bound :=
  ⟨rfl, Nat.le_max_left 1 bound⟩

theorem Bounded.push (h : s.Bounded bound) (hp : s.push f = .ok t) : t.Bounded bound := by
  obtain ⟨_, hmax, hroom⟩ := frames_of_push hp
  refine ⟨hmax.trans h.maxDepth, ?_⟩
  rw [depth_of_push hp]
  rw [h.maxDepth] at hroom
  omega

theorem Bounded.pop (h : s.Bounded bound) (hp : s.pop = .ok (f, t)) : t.Bounded bound := by
  refine ⟨(frames_of_pop hp).2.trans h.maxDepth, ?_⟩
  have hdepth := depth_of_pop hp
  have := h.depth
  omega

/-- Unwinding to one frame at least leaves no more frames than there were. -/
theorem Bounded.unwindTo (h : s.Bounded bound) {n : Nat} (hn : 0 < n) :
    (s.unwindTo n).Bounded bound := by
  obtain ⟨hframes, hmax⟩ := frames_unwindTo s hn
  refine ⟨hmax.trans h.maxDepth, ?_⟩
  have hlength := congrArg List.length hframes
  rw [base, List.length_drop, length_frames, length_frames] at hlength
  have := h.depth
  omega

/-- A stack at its bound has no room for another frame. -/
theorem push_of_full (h : s.Bounded bound) (full : bound ≤ s.depth) (f : Frame) :
    s.push f = .error (.ofCause (.callDepth bound)) := by
  rw [push, h.maxDepth, if_pos full]

theorem push_of_room (h : s.Bounded bound) (room : s.depth < bound) (f : Frame) :
    ∃ t, s.push f = .ok t := by
  rw [push, h.maxDepth, if_neg (by omega)]
  exact ⟨_, rfl⟩

end CallStack

namespace Exec

variable {env : Environment} {run : Exec Unit} {i : Instruction} {m m₁ m' k : Machine}
  {s : AgentSet} {r : StreamRef} {bound fuel : Nat}

/-- A stack that is within its bound stays within it. -/
def StaysBounded (m m' : Machine) : Prop :=
  ∀ bound, m.context.frames.Bounded bound → m'.context.frames.Bounded bound

/-- Every effect leaves a stack within its bound. -/
theorem staysBounded_effects : Effects StaysBounded where
  refl _ _ h := h
  trans h₁ h₂ bound h := h₂ bound (h₁ bound h)
  registers _ _ _ _ _ _ h := h
  assign _ _ h := ⟨h.maxDepth, h.depth⟩
  push hp _ h := h.push hp
  pop _ hp _ h := h.pop hp
  draw _ _ _ h := h
  write _ _ h := h
  print _ _ _ h := h
  relax m nodes links springs _ h := by
    obtain ⟨w, s, notices, hm⟩ := final_relax nodes links springs m
    rw [hm]
    exact h
  remove _ _ h := h
  spawn _ _ _ h := h
  -- the agent starts on the frames around it, and what it leaves of them is unwound
  agent {m _} _ _ _ hrun bound h := (hrun bound h).unwindTo m.context.frames.depth_pos
  nested h := h
  copy h := h
  read _ _ h := h

-- ════════════════════════════════════════════════════════════════════════
-- Contexts inside of enclosures
-- ════════════════════════════════════════════════════════════════════════

/-- The depth at which a context inside of enclosures starts on its block: as deep as the context
around it, or on the one frame of its job. -/
def startDepth : List Enclosure → Nat
  | [] => 1
  | x :: _ => x.machine.context.frames.depth

/-- A context inside of enclosures is within the bound on its frames and within the limit of nested
jobs, and stands on the frames of the context around it. -/
structure Confined (env : Environment) (bound : Nat) (path : List Enclosure) (m : Machine) :
    Prop where
  bounded : m.context.frames.Bounded bound
  base_pos : 0 < m.context.baseDepth
  base_le : m.context.baseDepth ≤ m.context.frames.depth
  base_eq : m.context.baseDepth = startDepth path
  inherited : ∀ x outer, path = x :: outer →
    TopLike x.machine.context.frames.frames (m.context.frames.base m.context.baseDepth)
  nesting_eq : m.nesting = path.length
  nesting_le : m.nesting ≤ env.limits.nesting

variable {path : List Enclosure} {x : Enclosure}

/-- Fetching leaves a context confined. -/
theorem Confined.fetch (h : Confined env bound path m) (hfetch : fetch env m = .ok i m') :
    Confined env bound path m' := by
  obtain ⟨rfl, _, _⟩ := fetch_eq_ok hfetch
  exact ⟨h.bounded, h.base_pos, h.base_le, h.base_eq, h.inherited, h.nesting_eq, h.nesting_le⟩

/-- An instruction that succeeds leaves its context confined. -/
theorem Confined.execute (h : Confined env bound path m)
    (hexecute : execute env (toCompletion env fuel) i m = .ok () m') :
    Confined env bound path m' := by
  obtain ⟨hbase, _, hle, htop⟩ := framed_effects.of_execute hexecute h.base_le
  have hnesting := (sameSeat_effects.of_execute hexecute).nesting
  refine ⟨staysBounded_effects.of_execute hexecute bound h.bounded, hbase.symm ▸ h.base_pos,
    hbase.symm ▸ hle, hbase.trans h.base_eq, fun x outer hpath => ?_,
    hnesting.trans h.nesting_eq, hnesting.symm ▸ h.nesting_le⟩
  rw [hbase]
  exact (h.inherited x outer hpath).trans htop

theorem Confined.proceeds {stops : Instruction → Bool} {left : Nat}
    (h : Confined env bound path m) (hgoes : Proceeds env stops fuel m left m') :
    Confined env bound path m' := by
  induction hgoes with
  | refl => exact h
  | step _ hfetch hexecute _ _ ih => exact ih ((h.fetch hfetch).execute hexecute)

/-- What comes before a nested job is not counted as one. -/
theorem Drives.nesting (h : Drives env i m s r m₁) : m₁.nesting = m.nesting := by
  cases h with
  | ask _ hv => exact (sameSeat_effects.toQuiet.of_argument hv).nesting
  | createTurtles _ hv _ _ hspawn =>
    cases hspawn
    exact (sameSeat_effects.toQuiet.of_argument hv).nesting
  | withLocalRandomness => rfl
  | carefully => rfl

section Runs

variable (framed : Keeps Framed run) (seated : Keeps SameSeat run)
include framed seated

theorem Visits.nesting {entry : Nat} {agents : List AgentRef}
    (h : Visits run entry r agents m k) : k.nesting = m.nesting := by
  induction h with
  | here => rfl
  | skip _ _ ih => exact ih
  | @next m _ _ a _ _ hagent _ ih =>
    have hback := handsBack_runAgent framed seated entry r a m
    rw [hagent] at hback
    exact ih.trans hback.nesting

/-- An agent of a nested job runs inside of one job more, which the limit allows. -/
theorem Opens.nesting {entry : Nat} (h : Opens env run s entry r m k) :
    k.nesting = m.nesting + 1 ∧ m.nesting < env.limits.nesting := by
  obtain ⟨below, hdraw, hvisits⟩ := h
  have hnesting := hvisits.nesting framed seated
  cases hdraw
  exact ⟨hnesting, below⟩

end Runs

/-- An agent that is let run by an instruction of a confined context is confined, one job deeper. -/
theorem Confined.launches (h : Confined env bound path x.machine)
    (hlaunches : Launches env (toCompletion env fuel) x.instruction x.machine k) :
    Confined env bound (x :: path) k := by
  have framed := framed_effects.toCompletion env fuel
  obtain ⟨s, r, m₁, hdrives, hopens⟩ := hlaunches.drives
  have room := sameRoom_effects.toQuiet.drives (fun _ => rfl) hdrives
  have hbegins := (hopens.begins framed).of_topLike hdrives.frames room
  have hdepth : k.context.frames.depth = x.machine.context.frames.depth := by
    have hlength := hbegins.frames.length_eq
    rwa [CallStack.length_frames, CallStack.length_frames] at hlength
  have hbase : k.context.baseDepth = k.context.frames.depth := by
    obtain ⟨_, _, _, _, rfl⟩ := hlaunches.enters
    rfl
  obtain ⟨hnesting, below⟩ := hopens.nesting framed (sameSeat_effects.toCompletion env fuel)
  rw [hdrives.nesting] at hnesting below
  refine ⟨⟨hbegins.room.trans h.bounded.maxDepth, hdepth.symm ▸ h.bounded.depth⟩,
    hbase.symm ▸ k.context.frames.depth_pos, Nat.le_of_eq hbase, hbase.trans hdepth, ?_,
    hnesting.trans (congrArg (· + 1) h.nesting_eq), hnesting.symm ▸ below⟩
  rintro _ _ ⟨⟩
  rw [hbase, CallStack.base_depth]
  exact hbegins.frames

/-- Every context that a turn comes to is confined, if the turn starts in such a context. -/
theorem Within.confined {start : Machine} {left : Nat} (h : Within env fuel start path left m)
    (hstart : Confined env bound [] start) : Confined env bound path m := by
  induction h with
  | turn hgoes => exact hstart.proceeds hgoes
  | nested _ hfetch hlaunches hgoes ih =>
    exact ((ih.fetch hfetch).launches hlaunches).proceeds hgoes

-- ════════════════════════════════════════════════════════════════════════
-- Arguments
-- ════════════════════════════════════════════════════════════════════════

/-- Arguments were evaluated: the agent's own stream may have moved, and the register of the last
value was set. -/
structure Drew (m m' : Machine) : Prop where
  eq : m' = { m with
    streams := m'.streams
    context := { m.context with lastReported := m'.context.lastReported } }
  streams : Streams.OnlyAt m.context.stream m.streams m'.streams

theorem Drew.refl (m : Machine) : Drew m m :=
  ⟨rfl, .refl _ _⟩

theorem Drew.frames (h : Drew m m') : m'.context.frames = m.context.frames := by
  rw [h.eq]

theorem Drew.stream (h : Drew m m') : m'.context.stream = m.context.stream := by
  rw [h.eq]

theorem Drew.trans (h : Drew m m') (h' : Drew m' k) : Drew m k := by
  refine ⟨?_, h.streams.trans (h.stream ▸ h'.streams)⟩
  rw [h'.eq, h.eq]

theorem drew_of_evaluate {e : Expr} {v : Value} (h : evaluate env e m = .ok v m') : Drew m m' := by
  rw [evaluate_apply] at h
  cases hr : e.report (m.view env) (m.streams.get m.context.stream) with
  | ok w t =>
    rw [hr] at h
    cases h
    exact ⟨rfl, Streams.onlyAt_set _ _ _⟩
  | error f t =>
    rw [hr] at h
    cases h

theorem drew_of_argument {v : Value} (h : argument env i m = .ok v m') : Drew m m' := by
  unfold argument evaluateAt at h
  cases hknown : i.known with
  | some w =>
    simp only [hknown] at h
    cases h
    exact .refl _
  | none =>
    simp only [hknown] at h
    cases hargs : i.args[0]? with
    | some e =>
      simp only [hargs] at h
      exact drew_of_evaluate h
    | none =>
      simp only [hargs] at h
      cases h

theorem drew_of_fillInputs {args : List Expr} {slot : Nat} {frame filled : Frame}
    (h : fillInputs env slot args frame m = .ok filled m') : Drew m m' := by
  induction args generalizing slot frame m with
  | nil =>
    cases h
    exact .refl _
  | cons e rest ih =>
    obtain ⟨v, m₁, hv, h⟩ := bind_eq_ok h
    obtain ⟨frame, _, h⟩ := ofExcept_bind_eq_ok h
    exact (drew_of_evaluate hv).trans (ih h)

-- ════════════════════════════════════════════════════════════════════════
-- Calls at the bound
-- ════════════════════════════════════════════════════════════════════════

/-- An instruction that is carried out from `m` comes to its call with a frame that holds the
inputs. -/
inductive Calls (env : Environment) (i : Instruction) (m : Machine) :
    Frame → Machine → Prop where
  | intro {m₁ : Machine} {name : String} {index : Nat} {q : Procedure} {frame : Frame} :
    i.command = .call name index → i.known = none → env.program.procedure index = .ok q →
    fillInputs env 0 i.args (.fresh index q.locals i.next) m = .ok frame m₁ →
    Calls env i m frame m₁

variable {frame : Frame}

theorem Calls.drew (h : Calls env i m frame m₁) : Drew m m₁ := by
  obtain ⟨_, _, _, hfill⟩ := h
  exact drew_of_fillInputs hfill

/-- What is left to do once the inputs are there. -/
theorem Calls.perform_eq (h : Calls env i m frame m₁) :
    perform env run i m = (ofExcept (m₁.context.frames.push frame) >>= fun frames =>
      modifyContext fun c => { c with frames := frames, ip := 0 }) m₁ := by
  obtain ⟨command, _, hq, hfill⟩ := h
  rw [perform, if_neg (by simp [command, Command.isUnary, Command.arity])]
  simp only [command]
  rw [call, hq, ofExcept_ok, pure_bind, bind_of_ok hfill, context_bind]

theorem Calls.known (h : Calls env i m frame m₁) : i.known = none := by
  obtain ⟨_, known, _, _⟩ := h
  exact known

/-- A call at the bound fails, and leaves the machine as it was once the inputs were there. -/
theorem Calls.execute_of_full (h : Calls env i m frame m₁) (hb : m.context.frames.Bounded bound)
    (full : bound ≤ m.context.frames.depth) (run : Exec Unit) :
    execute env run i m = .error (.fault (.ofCause (.callDepth bound))) m₁ := by
  rw [execute_of_known h.known]
  refine located_of_closed rfl ?_
  rw [h.perform_eq, h.drew.frames, CallStack.push_of_full hb full]
  rfl

/-- Below the bound a call puts its frame on top of the others. -/
theorem Calls.execute_of_room (h : Calls env i m frame m₁) (hb : m.context.frames.Bounded bound)
    (room : m.context.frames.depth < bound) :
    ∃ m', execute env run i m = .ok () m'
      ∧ m'.context.frames.frames = frame :: m.context.frames.frames := by
  obtain ⟨t, ht⟩ := CallStack.push_of_room hb room frame
  rw [execute_of_known h.known, Tree.located, mapFault, h.perform_eq, h.drew.frames, ht]
  exact ⟨_, rfl, (CallStack.frames_of_push ht).1⟩

-- ════════════════════════════════════════════════════════════════════════
-- Nested jobs at the limit
-- ════════════════════════════════════════════════════════════════════════

/-- An instruction that comes to its nested job at the limit fails, over whatever set the job is,
and leaves the machine as it was before the job. -/
theorem Drives.execute_of_deep (h : Drives env i m s r m₁)
    (deep : env.limits.nesting ≤ m.nesting) (run : Exec Unit) :
    execute env run i m =
      .error (.fault (.ofCause (.nesting env.limits.nesting))) (abandoned i m m₁) := by
  refine h.execute_of_error ?_ rfl fun _ => by rintro ⟨⟩
  rw [runExclusive_eq, h.nesting, if_pos deep]
  rfl

theorem leaveCopy_enterCopy (m : Machine) : leaveCopy m (enterCopy m) = m := by
  rw [leaveCopy, enterCopy, Streams.addCopy, Streams.truncate_eq_of_onlyAt_add (.refl _ _)]

/-- What an instruction leaves of the machine if it comes to its nested job and no agent is let run:
arguments may have been drawn, and `create-turtles` has given birth. -/
structure Unentered (i : Instruction) (m m' : Machine) : Prop where
  context : m'.context = { m.context with lastReported := m'.context.lastReported }
  nesting : m'.nesting = m.nesting
  notices : m'.notices = m.notices
  streams : Streams.OnlyAt m.context.stream m.streams m'.streams
  world : i.command ≠ .createTurtles → m'.world = m.world
  births : i.command = .createTurtles →
    ∃ count r, m'.world = (m.world.createTurtles count r).2.1
  untouched : i.command.isUnary = false → m' = m

theorem Drew.unentered (h : Drew m m') (unary : i.command.isUnary = true)
    (other : i.command ≠ .createTurtles) : Unentered i m m' where
  context := by rw [h.eq]
  nesting := by rw [h.eq]
  notices := by rw [h.eq]
  streams := h.streams
  world _ := by rw [h.eq]
  births hc := absurd hc other
  untouched multiple := by simp [unary] at multiple

theorem unentered_refl (other : i.command ≠ .createTurtles) : Unentered i m m :=
  ⟨rfl, rfl, rfl, .refl _ _, fun _ => rfl, fun hc => absurd hc other, fun _ => rfl⟩

/-- A nested job that is refused leaves nothing but draws and births. -/
theorem Drives.unentered (h : Drives env i m s r m₁) : Unentered i m (abandoned i m m₁) := by
  cases h with
  | ask command hv =>
    rw [abandoned_of_ne (by simp [command])]
    exact (drew_of_argument hv).unentered (by rw [command]; rfl) (by simp [command])
  | @createTurtles m₂ _ _ count _ command hv _ _ hspawn =>
    rw [abandoned_of_ne (by simp [command])]
    have hdrew := drew_of_argument hv
    have hworld : m₂.world = m.world := by rw [hdrew.eq]
    cases hspawn
    refine ⟨by rw [hdrew.eq], by rw [hdrew.eq], by rw [hdrew.eq], ?_,
      fun hc => absurd command hc, fun _ => ⟨count, m₂.streams.get m₂.context.stream, ?_⟩,
      fun multiple => by simp [command, Command.isUnary, Command.arity] at multiple⟩
    · exact hdrew.streams.trans (hdrew.stream ▸ Streams.onlyAt_set _ _ _)
    · rw [← hworld]
      rfl
  | withLocalRandomness command =>
    rw [abandoned, if_pos command, leaveCopy_enterCopy]
    exact unentered_refl (by simp [command])
  | carefully command =>
    rw [abandoned_of_ne (by simp [command])]
    exact unentered_refl (by simp [command])

end Exec

end Swarm
