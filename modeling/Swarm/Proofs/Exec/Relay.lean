import Swarm.Proofs.Exec.Enclosure

/-!
# Locals handed from agent to agent

The agents of a nested job run their block in the frames of the enclosing context, one agent after
another. Each of them starts with the frames that the one before it left, cut to the depth at which
the job began; the enclosing context gets those of the last one. Nothing depends on how an agent's
run ended: one that failed, or died, inside of a call leaves the locals it had written.

## Main definitions

* `Exec.starts`, `Exec.startsExclusive`: the machines in which agents start, in order
* `Exec.PassesOn`: frames handed from run to run
* `Exec.GivesBack`: what a nested job leaves of the frames

## Main results

* `Exec.mem_startsExclusive`: the agents that start are those that the nested job opens
* `Exec.runExclusive_gives_back`: a nested job changes nothing of the frames but the locals of the
  one on top, and those are the ones that its last agent left
-/

namespace Swarm.Exec

variable {env : Environment} {run : Exec Unit} {entry : Nat} {stream : StreamRef}

-- ════════════════════════════════════════════════════════════════════════
-- The agents that start
-- ════════════════════════════════════════════════════════════════════════

/-- The machines in which the agents of a list start their runs. Those that died before their turn
do not start, and after a run that failed no other agent does. -/
def starts (run : Exec Unit) (entry : Nat) (stream : StreamRef) :
    List AgentRef → Machine → List Machine
  | [], _ => []
  | a :: rest, m =>
    if m.world.isAlive a then
      enterAgent a entry stream m ::
        match runAgent run entry stream a m with
        | .ok _ m' => starts run entry stream rest m'
        | .error _ _ => []
    else starts run entry stream rest m

/-- The machines in which the agents of a nested job start their runs. -/
def startsExclusive (env : Environment) (run : Exec Unit) (s : AgentSet) (entry : Nat)
    (stream : StreamRef) (m : Machine) : List Machine :=
  if env.limits.nesting ≤ m.nesting then []
  else
    match drawFrom stream (Draw.ofStream s.visitOrder) m with
    | .ok order m' => starts run entry stream order (enterNested m')
    | .error _ _ => []

theorem starts_of_alive {a : AgentRef} {m : Machine} (alive : m.world.isAlive a = true)
    (rest : List AgentRef) :
    starts run entry stream (a :: rest) m =
      enterAgent a entry stream m ::
        match runAgent run entry stream a m with
        | .ok _ m' => starts run entry stream rest m'
        | .error _ _ => [] := by
  rw [starts, if_pos alive]

theorem starts_of_dead {a : AgentRef} {m : Machine} (dead : m.world.isAlive a = false)
    (rest : List AgentRef) :
    starts run entry stream (a :: rest) m = starts run entry stream rest m := by
  rw [starts, dead]
  rfl

theorem mem_starts (agents : List AgentRef) (m k : Machine) :
    k ∈ starts run entry stream agents m ↔ Visits run entry stream agents m k := by
  constructor
  · induction agents generalizing m with
    | nil => simp [starts]
    | cons a rest ih =>
      intro hk
      cases alive : m.world.isAlive a with
      | false =>
        rw [starts_of_dead alive] at hk
        exact .skip alive (ih m hk)
      | true =>
        rw [starts_of_alive alive] at hk
        rcases List.mem_cons.mp hk with rfl | hrest
        · exact .here alive
        · cases hr : runAgent run entry stream a m with
          | ok _ m₁ =>
            rw [hr] at hrest
            exact .next alive hr (ih m₁ hrest)
          | error e m₁ =>
            rw [hr] at hrest
            cases hrest
  · intro h
    induction h with
    | here alive =>
      rw [starts_of_alive alive]
      exact List.mem_cons_self
    | skip dead _ ih =>
      rw [starts_of_dead dead]
      exact ih
    | next alive hr _ ih =>
      rw [starts_of_alive alive, hr]
      exact List.mem_cons_of_mem _ ih

theorem mem_startsExclusive (s : AgentSet) (m k : Machine) :
    k ∈ startsExclusive env run s entry stream m ↔ Opens env run s entry stream m k := by
  rw [startsExclusive]
  constructor
  · intro hk
    split at hk
    · cases hk
    · next shallow =>
      split at hk
      · next order m₁ hdraw => exact ⟨by omega, hdraw, (mem_starts order _ k).mp hk⟩
      · cases hk
  · rintro ⟨shallow, hdraw, hvisits⟩
    rw [if_neg (by omega), hdraw]
    exact (mem_starts _ _ k).mpr hvisits

-- ════════════════════════════════════════════════════════════════════════
-- Frames handed on
-- ════════════════════════════════════════════════════════════════════════

/-- Frames are handed from run to run: each starts with those that the one before it left, cut to
the lowest `n`. -/
def PassesOn (run : Exec Unit) (n : Nat) : List Frame → List Machine → List Frame → Prop
  | frames, [], last => last = frames
  | frames, k :: rest, last =>
    k.context.frames.frames = frames
      ∧ PassesOn run n ((final (run k)).context.frames.base n) rest last

/-- What a nested job, whose agents started their runs in `ks`, leaves of the frames. -/
structure GivesBack (run : Exec Unit) (ks : List Machine) (m m' : Machine) : Prop where
  depth : m'.context.frames.depth = m.context.frames.depth
  maxDepth : m'.context.frames.maxDepth = m.context.frames.maxDepth
  below : m'.context.frames.below = m.context.frames.below
  top : m.context.frames.top.Like m'.context.frames.top
  nesting : m'.nesting = m.nesting
  /-- The frames are those that the last agent left, the first agent having started from those of
  the enclosing context, and every other from those that the agent before it left. -/
  handed : PassesOn run m.context.frames.depth m.context.frames.frames ks m'.context.frames.frames

/-- The frames that come back from an agent's run are the lowest of those it left. -/
theorem frames_leaveAgent_eq_base (m m' : Machine) :
    (leaveAgent m m').context.frames.frames
      = m'.context.frames.base m.context.frames.depth :=
  (CallStack.frames_unwindTo m'.context.frames m.context.frames.depth_pos).1

/-- Agents hand their frames on, and none of them changes the bound on calls. -/
theorem passesOn_runAgents (framed : Keeps Framed run) (agents : List AgentRef) (m : Machine) :
    PassesOn run m.context.frames.depth m.context.frames.frames
        (starts run entry stream agents m)
        (final (runAgents run entry stream agents m)).context.frames.frames
      ∧ (final (runAgents run entry stream agents m)).context.frames.maxDepth
        = m.context.frames.maxDepth := by
  induction agents generalizing m with
  | nil => exact ⟨rfl, rfl⟩
  | cons a rest ih =>
    cases alive : m.world.isAlive a with
    | false =>
      rw [starts_of_dead alive, runAgents_cons, if_neg (by simp [alive])]
      exact ih m
    | true =>
      obtain ⟨_, hdepth, hmax⟩ := frames_leaveAgent (framed (enterAgent a entry stream m))
      have hback : runAgent run entry stream a m =
          settle (leaveAgent m) (run (enterAgent a entry stream m)) := by
        rw [runAgent_eq, within]
      rw [starts_of_alive alive, runAgents_cons, if_pos alive, bind_apply, hback]
      -- the run goes on only if the agent's run succeeded, but the frames come back either way
      cases hrun : run (enterAgent a entry stream m) with
      | ok _ k =>
        rw [hrun] at hdepth hmax
        obtain ⟨hrest, hmaxRest⟩ := ih (leaveAgent m k)
        rw [show (leaveAgent m k).context.frames.depth = m.context.frames.depth from hdepth,
          frames_leaveAgent_eq_base] at hrest
        refine ⟨⟨rfl, ?_⟩, hmaxRest.trans hmax⟩
        rw [hrun]
        exact hrest
      | error e k =>
        rw [hrun] at hmax
        refine ⟨⟨rfl, ?_⟩, hmax⟩
        rw [hrun]
        exact frames_leaveAgent_eq_base m k

/-- What a nested job changes of the machine is in the runs of its agents. -/
theorem passesOn_runExclusive (framed : Keeps Framed run) (env : Environment) (s : AgentSet)
    (entry : Nat) (stream : StreamRef) (m : Machine) :
    PassesOn run m.context.frames.depth m.context.frames.frames
        (startsExclusive env run s entry stream m)
        (final (runExclusive env run s entry stream m)).context.frames.frames
      ∧ (final (runExclusive env run s entry stream m)).context.frames.maxDepth
        = m.context.frames.maxDepth := by
  rw [runExclusive_eq, startsExclusive]
  split
  · exact ⟨rfl, rfl⟩
  · simp only [bind_apply, drawFrom, Draw.ofStream]
    rw [within, final_settle]
    exact passesOn_runAgents framed (s.visitOrder (m.streams.get stream)).1
      (enterNested { m with
        streams := m.streams.set stream (s.visitOrder (m.streams.get stream)).2 })

/-- A nested job gives the frames of the enclosing context back as they were, however it ends, but
for the locals of the one on top. Those go from agent to agent. -/
theorem runExclusive_gives_back (env : Environment) (fuel : Nat) (s : AgentSet) (entry : Nat)
    (stream : StreamRef) (m : Machine) :
    GivesBack (toCompletion env fuel)
        (startsExclusive env (toCompletion env fuel) s entry stream m) m
        (final (runExclusive env (toCompletion env fuel) s entry stream m))
      ∧ ∀ k, k ∈ startsExclusive env (toCompletion env fuel) s entry stream m ↔
        Opens env (toCompletion env fuel) s entry stream m k := by
  have framed := framed_effects.toCompletion env fuel
  have hback := handsBack_runExclusive framed (sameSeat_effects.toCompletion env fuel) env s entry
    stream m
  obtain ⟨hhanded, hmax⟩ := passesOn_runExclusive framed env s entry stream m
  obtain ⟨htop, hbelow⟩ := hback.frames
  have hdepth := hback.frames.length_eq
  rw [CallStack.length_frames, CallStack.length_frames] at hdepth
  exact ⟨⟨hdepth, hmax, hbelow, htop, hback.nesting, hhanded⟩, mem_startsExclusive s m⟩

end Swarm.Exec
