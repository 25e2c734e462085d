import Swarm.Proofs.Exec.Effects

/-!
# What a run leaves of the frames

An agent that runs a block may assign the locals of the frame it starts in, and may call and
return above it. It leaves the frames below as they are, and never returns past the frame it
started in. A nested job therefore hands the frames back as they were, but for the locals of the
frame on top.

## Main definitions

* `CallStack.base`: the lowest frames of a stack
* `TopLike`: frames that are equal but for the locals of the one on top
* `Exec.Framed`: what a run leaves of the frames
* `Exec.SameSeat`: the same agent runs, in the same place
* `HaltFlag.Precedes`: a flag that was read and not touched

## Main results

* `Exec.framed_effects`: every effect leaves the frames below the base as they are
* `Exec.frames_leaveAgent`: the frames that come back from a nested run
* `Exec.sameSeat_effects`: every effect leaves the running agent in its place
* `Exec.precedes_effects`: no effect touches the halt flag
-/

namespace Swarm

/-- Two frames that are equal but for the values of their locals. -/
structure Frame.Like (f g : Frame) : Prop where
  procedure : g.procedure = f.procedure
  returnIp : g.returnIp = f.returnIp
  size : g.locals.size = f.locals.size

theorem Frame.Like.refl (f : Frame) : f.Like f :=
  ⟨rfl, rfl, rfl⟩

theorem Frame.Like.trans {f g h : Frame} (h₁ : f.Like g) (h₂ : g.Like h) : f.Like h :=
  ⟨h₂.procedure.trans h₁.procedure, h₂.returnIp.trans h₁.returnIp, h₂.size.trans h₁.size⟩

/-- Frames that are equal but for the locals of the one on top. -/
def TopLike : List Frame → List Frame → Prop
  | f :: below, g :: below' => f.Like g ∧ below' = below
  | [], [] => True
  | _, _ => False

namespace TopLike

theorem refl (fs : List Frame) : TopLike fs fs := by
  cases fs with
  | nil => trivial
  | cons f below => exact ⟨.refl f, rfl⟩

theorem trans {fs gs hs : List Frame} (h₁ : TopLike fs gs) (h₂ : TopLike gs hs) :
    TopLike fs hs := by
  cases fs <;> cases gs <;> cases hs <;> simp_all [TopLike]
  exact h₁.1.trans h₂.1

theorem length_eq {fs gs : List Frame} (h : TopLike fs gs) : gs.length = fs.length := by
  cases fs <;> cases gs <;> simp_all [TopLike]

theorem drop {fs gs : List Frame} (h : TopLike fs gs) (n : Nat) :
    TopLike (fs.drop n) (gs.drop n) := by
  cases n with
  | zero => exact h
  | succ n =>
    cases fs <;> cases gs <;> simp_all [TopLike]
    exact refl _

end TopLike

namespace CallStack

/-- The lowest `n` frames, the highest of them first. -/
def base (s : CallStack) (n : Nat) : List Frame :=
  s.frames.drop (s.depth - n)

theorem base_depth (s : CallStack) : s.base s.depth = s.frames := by
  simp [base]

theorem depth_of_push {s t : CallStack} {f : Frame} (h : s.push f = .ok t) :
    t.depth = s.depth + 1 := by
  have hlen := congrArg List.length (frames_of_push h).1
  simpa [length_frames] using hlen

theorem base_of_push {s t : CallStack} {f : Frame} {n : Nat} (h : s.push f = .ok t)
    (hn : n ≤ s.depth) : t.base n = s.base n := by
  rw [base, base, (frames_of_push h).1, depth_of_push h, Nat.succ_sub hn]
  rfl

theorem depth_of_pop {s t : CallStack} {f : Frame} (h : s.pop = .ok (f, t)) :
    s.depth = t.depth + 1 := by
  have hlen := congrArg List.length (frames_of_pop h).1
  simpa [length_frames] using hlen

theorem base_of_pop {s t : CallStack} {f : Frame} {n : Nat} (h : s.pop = .ok (f, t))
    (hn : n < s.depth) : t.base n = s.base n := by
  have hdepth := depth_of_pop h
  rw [base, base, (frames_of_pop h).1, hdepth, Nat.succ_sub (by omega)]
  rfl

/-- A stack of several frames can be left. -/
theorem pop_of_one_lt {s : CallStack} (h : 1 < s.depth) : ∃ f t, s.pop = .ok (f, t) := by
  obtain ⟨top, below, maxDepth, depth, hd⟩ := s
  cases below with
  | nil =>
    simp only [List.length_nil] at hd h
    omega
  | cons next rest => exact ⟨_, _, rfl⟩

theorem base_setTop (s : CallStack) {f : Frame} (h : s.top.Like f) (n : Nat) :
    TopLike (s.base n) ((s.setTop f).base n) := by
  have hframes : TopLike s.frames (s.setTop f).frames := ⟨h, rfl⟩
  exact hframes.drop (s.depth - n)

/-- Unwinding gives the lowest frames. -/
theorem frames_unwindTo (s : CallStack) {n : Nat} (hn : 0 < n) :
    (s.unwindTo n).frames = s.base n ∧ (s.unwindTo n).maxDepth = s.maxDepth := by
  have hlt : s.depth - n < s.depth := by
    have := s.depth_pos
    omega
  exact frames_dropFrames (s.depth - n) s hlt

end CallStack

namespace Exec

/-- A run returns to no frame below its base, and leaves those below as they are. -/
def Framed (m m' : Machine) : Prop :=
  m.context.baseDepth ≤ m.context.frames.depth →
    m'.context.baseDepth = m.context.baseDepth
      ∧ m'.context.frames.maxDepth = m.context.frames.maxDepth
      ∧ m.context.baseDepth ≤ m'.context.frames.depth
      ∧ TopLike (m.context.frames.base m.context.baseDepth)
        (m'.context.frames.base m.context.baseDepth)

theorem Framed.of_context_eq {m m' : Machine}
    (frames : m'.context.frames = m.context.frames)
    (baseDepth : m'.context.baseDepth = m.context.baseDepth) : Framed m m' := by
  intro h
  rw [frames, baseDepth]
  exact ⟨rfl, rfl, h, .refl _⟩

/-- The frames that come back from an agent's run are those from before it, but for the locals of
the one on top. -/
theorem frames_leaveAgent {m m' : Machine} {a : AgentRef} {entry : Nat} {stream : StreamRef}
    (h : Framed (enterAgent a entry stream m) m') :
    TopLike m.context.frames.frames (leaveAgent m m').context.frames.frames
      ∧ (leaveAgent m m').context.frames.depth = m.context.frames.depth
      ∧ (leaveAgent m m').context.frames.maxDepth = m.context.frames.maxDepth := by
  obtain ⟨_, hmax, _, hbase⟩ := h (Nat.le_refl _)
  obtain ⟨hframes, hunwound⟩ :=
    CallStack.frames_unwindTo m'.context.frames m.context.frames.depth_pos
  have htop : TopLike m.context.frames.frames (leaveAgent m m').context.frames.frames := by
    show TopLike _ (m'.context.frames.unwindTo m.context.frames.depth).frames
    rw [hframes, ← CallStack.base_depth m.context.frames]
    exact hbase
  refine ⟨htop, ?_, hunwound.trans hmax⟩
  have hlen := htop.length_eq
  rwa [CallStack.length_frames, CallStack.length_frames] at hlen

/-- Every effect leaves the frames below the base as they are. -/
theorem framed_effects : Effects Framed where
  refl m := .of_context_eq rfl rfl
  trans h₁ h₂ h := by
    obtain ⟨hbase₁, hmax₁, hle₁, htop₁⟩ := h₁ h
    obtain ⟨hbase₂, hmax₂, hle₂, htop₂⟩ := h₂ (hbase₁.symm ▸ hle₁)
    rw [hbase₁] at hbase₂ hle₂ htop₂
    exact ⟨hbase₂, hmax₂.trans hmax₁, hle₂, htop₁.trans htop₂⟩
  registers m _ _ _ _ := .of_context_eq rfl rfl
  read _ := .of_context_eq rfl rfl
  assign {m} slot v f hf h := by
    obtain ⟨hprocedure, hreturn, hsize, _⟩ := Frame.eq_of_set hf
    exact ⟨rfl, rfl, h, m.context.frames.base_setTop ⟨hprocedure, hreturn, hsize⟩ _⟩
  push {m} f frames hp h := by
    refine ⟨rfl, (CallStack.frames_of_push hp).2.1, ?_, ?_⟩
    · show m.context.baseDepth ≤ frames.depth
      rw [CallStack.depth_of_push hp]
      omega
    · show TopLike _ (frames.base _)
      rw [CallStack.base_of_push hp h]
      exact .refl _
  pop {m} f frames hbase hp _ := by
    have hlt : m.context.baseDepth < m.context.frames.depth := by
      simpa [Context.atBase] using hbase
    have hdepth := CallStack.depth_of_pop hp
    refine ⟨rfl, (CallStack.frames_of_pop hp).2, ?_, ?_⟩
    · show m.context.baseDepth ≤ frames.depth
      omega
    · show TopLike _ (frames.base _)
      rw [CallStack.base_of_pop hp hlt]
      exact .refl _
  draw _ _ := .of_context_eq rfl rfl
  write _ := .of_context_eq rfl rfl
  print _ _ := .of_context_eq rfl rfl
  relax m nodes links springs := by
    obtain ⟨w, s, notices, hm⟩ := final_relax nodes links springs m
    rw [hm]
    exact .of_context_eq rfl rfl
  remove _ := .of_context_eq rfl rfl
  spawn _ _ := .of_context_eq rfl rfl
  agent {m m'} a entry _ hrun h := by
    obtain ⟨htop, hdepth, hmax⟩ := frames_leaveAgent hrun
    refine ⟨rfl, hmax, hdepth.symm ▸ h, ?_⟩
    rw [CallStack.base, CallStack.base, hdepth]
    exact htop.drop _
  nested h := h
  copy h := h

/-- The same agent runs, with the same stream and as many nested jobs around it. -/
structure SameSeat (m m' : Machine) : Prop where
  agent : m'.context.agent = m.context.agent
  stream : m'.context.stream = m.context.stream
  nesting : m'.nesting = m.nesting

/-- Every effect leaves the running agent in its place. -/
theorem sameSeat_effects : Effects SameSeat where
  refl _ := ⟨rfl, rfl, rfl⟩
  trans h₁ h₂ := ⟨h₂.agent.trans h₁.agent, h₂.stream.trans h₁.stream, h₂.nesting.trans h₁.nesting⟩
  registers _ _ _ _ _ := ⟨rfl, rfl, rfl⟩
  read _ := ⟨rfl, rfl, rfl⟩
  assign _ := ⟨rfl, rfl, rfl⟩
  push _ := ⟨rfl, rfl, rfl⟩
  pop _ _ := ⟨rfl, rfl, rfl⟩
  draw _ _ := ⟨rfl, rfl, rfl⟩
  write _ := ⟨rfl, rfl, rfl⟩
  print _ _ := ⟨rfl, rfl, rfl⟩
  relax m nodes links springs := by
    obtain ⟨w, s, notices, hm⟩ := final_relax nodes links springs m
    rw [hm]
    exact ⟨rfl, rfl, rfl⟩
  remove _ := ⟨rfl, rfl, rfl⟩
  spawn _ _ := ⟨rfl, rfl, rfl⟩
  agent _ h := ⟨rfl, rfl, h.nesting⟩
  nested {m m'} h := by
    have hnesting : m'.nesting = m.nesting + 1 := h.nesting
    refine ⟨h.agent, h.stream, ?_⟩
    show m'.nesting - 1 = m.nesting
    omega
  copy h := ⟨h.agent, rfl, h.nesting⟩

end Exec

/-- What becomes of a flag by readings alone. -/
structure HaltFlag.Precedes (h h' : HaltFlag) : Prop where
  upcoming : h'.upcoming <:+ h.upcoming
  thereafter : h'.thereafter = h.thereafter

namespace HaltFlag

theorem Precedes.refl (h : HaltFlag) : h.Precedes h :=
  ⟨List.suffix_rfl, rfl⟩

theorem Precedes.trans {h₁ h₂ h₃ : HaltFlag} (first : h₁.Precedes h₂) (second : h₂.Precedes h₃) :
    h₁.Precedes h₃ :=
  ⟨second.upcoming.trans first.upcoming, second.thereafter.trans first.thereafter⟩

theorem Precedes.of_eq {h h' : HaltFlag} (same : h' = h) : h.Precedes h' :=
  same ▸ .refl h

theorem precedes_later (h : HaltFlag) : h.Precedes h.later :=
  ⟨List.tail_suffix _, rfl⟩

/-- Readings do not change a flag that nobody touches. -/
theorem Precedes.eq_of_upcoming_nil {h h' : HaltFlag} (precedes : h.Precedes h')
    (untouched : h.upcoming = []) : h' = h := by
  obtain ⟨upcoming, thereafter⟩ := h
  obtain ⟨upcoming', thereafter'⟩ := h'
  obtain ⟨hupcoming, hthereafter⟩ := precedes
  simp only at untouched hupcoming hthereafter
  subst untouched hthereafter
  rw [List.suffix_nil.1 hupcoming]

theorem eq_steady_of_upcoming_nil {h : HaltFlag} (untouched : h.upcoming = []) :
    h = steady h.isRaised := by
  obtain ⟨upcoming, thereafter⟩ := h
  simp only at untouched
  subst untouched
  rfl

end HaltFlag

/-- Every effect leaves the halt flag to those who may touch it. -/
theorem Exec.precedes_effects : Effects fun m m' => m.halt.Precedes m'.halt where
  refl m := .refl m.halt
  trans h₁ h₂ := h₁.trans h₂
  registers m _ _ _ _ := .refl m.halt
  read m := m.halt.precedes_later
  assign {m} _ _ _ _ := .refl m.halt
  push {m} _ _ _ := .refl m.halt
  pop {m} _ _ _ _ := .refl m.halt
  draw m _ := .refl m.halt
  write {m} _ _ _ _ _ := .refl m.halt
  print m _ := .refl m.halt
  relax m nodes links springs := by
    obtain ⟨w, s, notices, hm⟩ := final_relax nodes links springs m
    rw [hm]
    exact .refl m.halt
  remove {m} _ := .refl m.halt
  spawn m _ := .refl m.halt
  agent _ h := h
  nested h := h
  copy h := h

end Swarm
