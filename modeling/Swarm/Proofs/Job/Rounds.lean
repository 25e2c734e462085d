import Mathlib.Data.List.ReduceOption
import Swarm.Proofs.Engine.Failure
import Swarm.Proofs.Exec.Frames
import Swarm.Proofs.Job.Effects

/-!
# Rounds of a job

A job visits its agents round after round, one round in each step. Agents of the job are told apart
by their place in the first order of visit, since one agent may stand in it more than once. The
roster of a job gives, for each place, the cursor of the agent there, or nothing once the agent has
left the job. A round goes through the places in order: an agent that is still on the roster, and
alive when its turn comes, takes one turn; all other places are passed over.

## Main definitions

* `Job.Roster`: what is left of a job, place by place
* `Job.Visit`: what happens at one place of a round
* `Job.Round`: a round, with the moments between its visits
* `Job.afterCalls`: the job after a number of steps, each by an engine in any state
* `Job.Lives`: the rosters of a job over a sequence of steps

## Main results

* `Job.round_of_turns`: the turns of a step are a round
* `Job.exists_lives`: a sequence of steps has rosters
* `Job.rounds_lose_no_agent`: no agent is lost, visited twice in a round, or visited again after it
  left
-/

namespace Swarm

/-- A set is visited in some order of its members, and in its own order if it is ordered. -/
theorem AgentSet.visitOrder_perm (s : AgentSet) (r : Random.Stream) :
    (s.visitOrder r).1.Perm s.agents ∧ (s.ordered = true → (s.visitOrder r).1 = s.agents) := by
  rw [visitOrder]
  split
  · next h =>
    refine ⟨Random.Stream.shuffle_perm s.agents r, fun ho => ?_⟩
    simp [ho] at h
  · exact ⟨.refl _, fun _ => rfl⟩

namespace Job

/-- For each place in the order of visit, the cursor of the agent there, or nothing if the agent has
left the job. -/
abbrev Roster := List (Option Cursor)

/-- What happens at one place of a round, between two moments. -/
inductive Visit (env : Environment) (fuel : Nat) (stream : StreamRef) :
    Option Cursor → Simulation → Option Cursor → Simulation → Prop where
  /-- Nobody is there any more. -/
  | gone (sim : Simulation) : Visit env fuel stream none sim none sim
  /-- The agent is dead, and leaves the job without a turn. -/
  | dead {c : Cursor} {sim : Simulation} : sim.world.isAlive c.agent = false →
    Visit env fuel stream (some c) sim none sim
  /-- The agent takes a turn, and leaves the job if the turn ends its block. Otherwise it will go on
  where the turn ended. -/
  | turn {c : Cursor} {sim sim' : Simulation} {after : Context} :
    sim.world.isAlive c.agent = true → turn env fuel stream c sim = (.ok after, sim') →
    Visit env fuel stream (some c) sim (if after.finished then none else some after.toCursor) sim'

/-- A round: the places are visited in order, each once. The moment of a place is the simulation
when its turn comes, and the moment after the last place is the end of the round. -/
structure Round (env : Environment) (fuel : Nat) (stream : StreamRef) (moment : Nat → Simulation)
    (roster roster' : Roster) : Prop where
  length_eq : roster'.length = roster.length
  visit : ∀ place before after, roster[place]? = some before → roster'[place]? = some after →
    Visit env fuel stream before (moment place) after (moment (place + 1))

section Turns

variable {env : Environment} {fuel : Nat} {stream : StreamRef} {c : Cursor} {sim sim' : Simulation}

theorem agent_of_turn {after : Context} (h : turn env fuel stream c sim = (.ok after, sim')) :
    after.agent = c.agent := by
  have hrun := Exec.sameSeat_effects.untilSwitch env fuel (seat stream c sim)
  cases hr : Exec.untilSwitch env fuel (seat stream c sim) with
  | ok _ m =>
    rw [hr] at hrun
    rw [turn_of_ok hr] at h
    cases h
    exact hrun.agent
  | error e m =>
    rw [turn_of_error hr] at h
    cases h

/-- An agent on the roster was on it before, at the same place. -/
theorem Visit.agent {before after : Option Cursor} (h : Visit env fuel stream before sim after sim')
    {c' : Cursor} (hafter : after = some c') : ∃ c, before = some c ∧ c'.agent = c.agent := by
  cases h with
  | gone => cases hafter
  | dead _ => cases hafter
  | @turn c _ _ ended _ hturn =>
    refine ⟨c, rfl, ?_⟩
    split at hafter
    · cases hafter
    · cases hafter
      exact agent_of_turn hturn

/-- The moments of a round that starts with a place. -/
def moments (first : Simulation) (rest : Nat → Simulation) : Nat → Simulation
  | 0 => first
  | place + 1 => rest place

theorem Round.nil (moment : Nat → Simulation) : Round env fuel stream moment [] [] :=
  ⟨rfl, fun _ _ _ h => by simp at h⟩

theorem Round.cons {before after : Option Cursor} {rest rest' : Roster} {moment : Nat → Simulation}
    (first : Visit env fuel stream before sim after (moment 0))
    (h : Round env fuel stream moment rest rest') :
    Round env fuel stream (moments sim moment) (before :: rest) (after :: rest') := by
  refine ⟨by simp [h.length_eq], fun place x y hx hy => ?_⟩
  cases place with
  | zero =>
    cases hx
    cases hy
    exact first
  | succ place => exact h.visit place x y hx hy

/-- The turns of a step are a round over any roster whose cursors they are. -/
theorem round_of_turns (roster : Roster) :
    ∀ {sim sim' : Simulation} {pending : List Cursor},
      turns env fuel stream roster.reduceOption sim = (.ok pending, sim') →
      ∃ moment roster', moment 0 = sim ∧ moment roster.length = sim'
        ∧ Round env fuel stream moment roster roster' ∧ pending = roster'.reduceOption := by
  induction roster with
  | nil =>
    intro sim sim' pending h
    cases h
    exact ⟨fun _ => sim, [], rfl, rfl, .nil _, rfl⟩
  | cons place rest ih =>
    intro sim sim' pending h
    cases place with
    | none =>
      rw [List.reduceOption_cons_of_none] at h
      obtain ⟨moment, rest', rfl, hlast, hround, hpending⟩ := ih h
      exact ⟨moments (moment 0) moment, none :: rest', rfl, hlast, hround.cons (.gone _),
        by rw [List.reduceOption_cons_of_none, hpending]⟩
    | some c =>
      rw [List.reduceOption_cons_of_some, turns] at h
      split at h
      · next alive =>
        rcases hturn : turn env fuel stream c sim with ⟨e | after, sim₁⟩
        · rw [hturn] at h
          cases h
        rw [hturn] at h
        dsimp only at h
        rcases hturns : turns env fuel stream rest.reduceOption sim₁ with ⟨e | left, sim₂⟩
        · rw [hturns] at h
          cases h
        rw [hturns] at h
        cases h
        obtain ⟨moment, rest', rfl, hlast, hround, rfl⟩ := ih hturns
        refine ⟨moments sim moment, _, rfl, hlast, hround.cons (.turn alive hturn), ?_⟩
        split
        · rw [List.reduceOption_cons_of_none]
        · rw [List.reduceOption_cons_of_some]
      · next dead =>
        obtain ⟨moment, rest', rfl, hlast, hround, hpending⟩ := ih h
        refine ⟨moments (moment 0) moment, none :: rest', rfl, hlast,
          hround.cons (.dead (by simpa using dead)), ?_⟩
        rw [List.reduceOption_cons_of_none, hpending]

end Turns

-- ════════════════════════════════════════════════════════════════════════
-- Sequences of steps
-- ════════════════════════════════════════════════════════════════════════

/-- The job after a number of steps. Each step is given its fuel and the engine that takes it, so
that anything may happen to the world, and to all else, between two steps. -/
def afterCalls (calls : Nat → Nat × Engine) (job : Job) : Nat → Job
  | 0 => job
  | k + 1 => ((calls k).2.stepWith (calls k).1 (afterCalls calls job k)).2.1

/-- What a step of a sequence gives. -/
def call (calls : Nat → Nat × Engine) (job : Job) (k : Nat) : Outcome × Job × Engine :=
  (calls k).2.stepWith (calls k).1 (afterCalls calls job k)

/-- The step answered that work is left, or that none is. -/
def Answered (o : Outcome) : Prop :=
  o = .continuing ∨ o = .finished

/-- What becomes of the roster of a job in one step by an engine. -/
structure Advance (e : Engine) (fuel : Nat) (job : Job) (roster roster' : Roster) : Prop where
  length_eq : roster'.length = roster.length
  /-- The agents with work left after the step are those on the roster, in order. -/
  cursors : (e.stepWith fuel job).2.1.cursors = some roster'.reduceOption
  /-- Who is on the roster after the step was on it before, at the same place. -/
  agent : ∀ (place : Nat) (c' : Cursor), roster'[place]? = some (some c') →
    ∃ c, roster[place]? = some (some c) ∧ c'.agent = c.agent
  /-- A step that gives an answer makes one round, and does nothing else. -/
  round : Answered (e.stepWith fuel job).1 → ∃ moment : Nat → Simulation,
    job.takeUp e.environment e.backstage = (.ok roster.reduceOption, moment 0)
      ∧ Round e.environment fuel job.stream moment roster roster'
      ∧ (e.stepWith fuel job).2.2 = e.conclude (moment roster.length)
  /-- The answer is that no work is left exactly if nobody is on the roster. -/
  finished : Answered (e.stepWith fuel job).1 →
    ((e.stepWith fuel job).1 = .finished ↔ roster'.reduceOption = [])

/-- The rosters of a job before each step of a sequence. -/
structure Lives (calls : Nat → Nat × Engine) (job : Job) (order : List Cursor)
    (roster : Nat → Roster) : Prop where
  /-- At first everybody in the order of visit is on the roster. -/
  first : roster 0 = order.map some
  advance : ∀ k, Advance (calls k).2 (calls k).1 (afterCalls calls job k) (roster k) (roster (k + 1))

theorem Round.agent {env : Environment} {fuel : Nat} {stream : StreamRef}
    {moment : Nat → Simulation} {roster roster' : Roster}
    (h : Round env fuel stream moment roster roster') {place : Nat} {c' : Cursor}
    (hc' : roster'[place]? = some (some c')) :
    ∃ c, roster[place]? = some (some c) ∧ c'.agent = c.agent := by
  have hlt : place < roster.length := by
    rw [← h.length_eq]
    exact (List.getElem?_eq_some_iff.1 hc').1
  have hbefore : roster[place]? = some roster[place] := List.getElem?_eq_getElem hlt
  obtain ⟨c, hc, hagent⟩ := (h.visit place _ _ hbefore hc').agent rfl
  exact ⟨c, hbefore.trans (congrArg some hc), hagent⟩

theorem not_answered_of_error (stop : Stop) : ¬ Answered (Engine.outcome (.error stop)) := by
  cases stop with
  | fault f =>
    rw [Engine.outcome]
    split <;> simp [Answered]
  | exhausted => simp [Answered, Engine.outcome]

/-- A step that ends with a round. -/
theorem advance_of_turns {e : Engine} {fuel : Nat} {job : Job} {roster : Roster}
    {pending : List Cursor} {sim sim' : Simulation} {after : Outcome × Job × Engine}
    (step : e.stepWith fuel job = after)
    (takeUp : job.takeUp e.environment e.backstage = (.ok roster.reduceOption, sim))
    (turns : turns e.environment fuel job.stream roster.reduceOption sim = (.ok pending, sim'))
    (outcome : after.1 = Engine.outcome (.ok pending.isEmpty))
    (cursors : after.2.1.cursors = some pending) (engine : after.2.2 = e.conclude sim') :
    ∃ roster', Advance e fuel job roster roster' := by
  obtain ⟨moment, roster', rfl, rfl, hround, rfl⟩ := round_of_turns roster turns
  refine ⟨roster', hround.length_eq, ?_, fun _ _ => hround.agent, fun _ => ?_, fun _ => ?_⟩
  · rw [step, cursors]
  · exact ⟨moment, takeUp, hround, by rw [step, engine]⟩
  · rw [step, outcome]
    cases roster'.reduceOption with
    | nil => simp [Engine.outcome]
    | cons c rest => simp [Engine.outcome]

/-- Every step of a job that has started or can start advances the roster of its cursors. -/
theorem exists_advance (e : Engine) (fuel : Nat) (job : Job) {roster : Roster} {sim : Simulation}
    (htake : job.takeUp e.environment e.backstage = (.ok roster.reduceOption, sim)) :
    ∃ roster', Advance e fuel job roster roster' := by
  have hends := Engine.ends_stepWith e fuel job
  generalize hstep : e.stepWith fuel job = after at hends
  cases hends with
  | idle hf =>
    -- nobody is on the roster, so that a round passes over all places
    have hcursors := isFinished_iff.1 hf
    rw [takeUp, hcursors] at htake
    have hempty : [] = roster.reduceOption := Except.ok.inj (Prod.mk.inj htake).1
    have hnobody : job.takeUp e.environment e.backstage = (.ok roster.reduceOption, e.backstage) := by
      rw [takeUp, hcursors, hempty]
    have hnothing : turns e.environment fuel job.stream roster.reduceOption e.backstage =
        (.ok [], e.backstage) := by
      rw [← hempty]
      rfl
    exact advance_of_turns hstep hnobody hnothing rfl hcursors (Engine.conclude_backstage e).symm
  | unstarted hs => exact absurd (startable_of_takeUp htake) hs
  | failed hf ht hturns =>
    -- all work is dropped, and there is no answer
    have hfailure : ¬ Answered (e.stepWith fuel job).1 := by
      rw [hstep]
      exact not_answered_of_error _
    refine ⟨.replicate roster.length none, by simp, ?_, fun place c' hc' => ?_,
      fun h => absurd h hfailure, fun h => absurd h hfailure⟩
    · rw [hstep, List.reduceOption_replicate_none]
    · simp [List.getElem?_replicate] at hc'
  | taken hf ht hturns =>
    rw [htake] at ht
    cases ht
    exact advance_of_turns hstep htake hturns rfl rfl rfl

/-- A job that has started or can start has rosters over every sequence of steps. -/
theorem exists_lives (calls : Nat → Nat × Engine) (job : Job) {order : List Cursor}
    {sim : Simulation}
    (htake : job.takeUp (calls 0).2.environment (calls 0).2.backstage = (.ok order, sim)) :
    ∃ roster, Lives calls job order roster := by
  -- what the cursors of the job are before a step
  let Holds (k : Nat) (roster : Roster) : Prop := ∃ sim,
    (afterCalls calls job k).takeUp (calls k).2.environment (calls k).2.backstage
      = (.ok roster.reduceOption, sim)
  have hnext : ∀ k roster, ∃ roster', Holds k roster →
      Advance (calls k).2 (calls k).1 (afterCalls calls job k) roster roster' := by
    intro k roster
    by_cases h : Holds k roster
    · obtain ⟨sim, hk⟩ := h
      obtain ⟨roster', hadvance⟩ := exists_advance (calls k).2 (calls k).1 _ hk
      exact ⟨roster', fun _ => hadvance⟩
    · exact ⟨[], fun hk => absurd hk h⟩
  choose next hnext using hnext
  let roster : Nat → Roster := fun k => Nat.rec (order.map some) next k
  have hholds : ∀ k, Holds k (roster k) := by
    intro k
    induction k with
    | zero =>
      refine ⟨sim, htake.trans ?_⟩
      show _ = (Except.ok (order.map some).reduceOption, sim)
      simp [List.reduceOption]
    | succ k ih =>
      have hcursors := (hnext k (roster k) ih).cursors
      refine ⟨(calls (k + 1)).2.backstage, ?_⟩
      rw [takeUp]
      rw [show (afterCalls calls job (k + 1)).cursors = some (roster (k + 1)).reduceOption
        from hcursors]
  exact ⟨roster, rfl, fun k => hnext k (roster k) (hholds k)⟩

namespace Lives

variable {calls : Nat → Nat × Engine} {job : Job} {order : List Cursor} {roster : Nat → Roster}

theorem length_eq (h : Lives calls job order roster) (k : Nat) :
    (roster k).length = order.length := by
  induction k with
  | zero => simp [h.first]
  | succ k ih => exact (h.advance k).length_eq.trans ih

/-- Who has left never comes back. -/
theorem gone (h : Lives calls job order roster) {place k : Nat}
    (hgone : (roster k)[place]? = some none) :
    ∀ later, k ≤ later → (roster later)[place]? = some none := by
  intro later hle
  induction hle with
  | refl => exact hgone
  | @step later _ ih =>
    have hlt : place < (roster (later + 1)).length := by
      rw [h.length_eq, ← h.length_eq later]
      exact (List.getElem?_eq_some_iff.1 ih).1
    rw [List.getElem?_eq_getElem hlt]
    cases hplace : (roster (later + 1))[place] with
    | none => rfl
    | some c =>
      have hc : (roster (later + 1))[place]? = some (some c) := by
        rw [List.getElem?_eq_getElem hlt, hplace]
      obtain ⟨c', hc', _⟩ := (h.advance later).agent place c hc
      rw [ih] at hc'
      cases hc'

/-- Every agent on a roster is the one that stood at its place in the order of visit. -/
theorem agent (h : Lives calls job order roster) {place : Nat} :
    ∀ (k : Nat) (c : Cursor), (roster k)[place]? = some (some c) →
      (order.map Cursor.agent)[place]? = some c.agent := by
  intro k
  induction k with
  | zero =>
    intro c hc
    rw [h.first] at hc
    simp only [List.getElem?_map, Option.map_eq_some_iff] at hc ⊢
    obtain ⟨c', hc', hsome⟩ := hc
    cases hsome
    exact ⟨c, hc', rfl⟩
  | succ k ih =>
    intro c hc
    obtain ⟨c', hc', hagent⟩ := (h.advance k).agent place c hc
    rw [hagent]
    exact ih c' hc'

end Lives

/-- Once a step has answered that no work is left, all later ones do, and change nothing. -/
theorem call_of_finished {calls : Nat → Nat × Engine} {job : Job} {k : Nat}
    (h : (call calls job k).1 = .finished) :
    ∀ later, k < later →
      call calls job later = (.finished, afterCalls calls job (k + 1), (calls later).2) := by
  rw [call] at h
  have hsettled : Engine.Settled (afterCalls calls job (k + 1)) := by
    by_cases hs : (afterCalls calls job k).Startable (calls k).2.program
    · exact (Engine.settled_stepWith hs).2 (by simp [h])
    · rw [Engine.stepWith_of_not_startable hs] at h
      cases h
  have hstays : ∀ later, k < later → afterCalls calls job later = afterCalls calls job (k + 1) := by
    intro later hlt
    induction hlt with
    | refl => rfl
    | step _ ih => rw [afterCalls, ih, hsettled.2.2]
  intro later hlt
  rw [call, hstays later hlt, hsettled.2.2]

/-- A job that starts gives a cursor to each of its agents, in some order of the set, and in the
set's own order if the set is ordered. A job that has started has the cursors it has. -/
theorem order_of_takeUp {env : Environment} {job : Job} {sim sim' : Simulation}
    {order : List Cursor} (h : job.takeUp env sim = (.ok order, sim')) :
    (job.cursors = none → (order.map Cursor.agent).Perm job.agents.agents
        ∧ (job.agents.ordered = true → order.map Cursor.agent = job.agents.agents))
      ∧ ∀ cursors, job.cursors = some cursors → order = cursors := by
  obtain hheld | ⟨hfresh, q, _, rfl⟩ := takeUp_eq_ok h
  · exact ⟨by simp [hheld], fun _ hs => Option.some.inj (hheld.symm.trans hs)⟩
  · refine ⟨fun _ => ?_, by simp [hfresh]⟩
    have hvisit := job.agents.visitOrder_perm (sim.streams.get job.stream)
    simpa [Function.comp_def] using hvisit

/-- Take any job and any sequence of its steps, with the world in any state at each of them. A job
that cannot start is left as it is. Any other has an order of visit: a permutation of the members of
its set, or the set's own list if that is ordered; and rosters that say, step by step, what becomes
of the agents in this order. Each step that gives an answer visits the places of the roster in
order and each place once, as `Round` says, and leaves on the roster just the agents whose turn did
not end their block. Who has left the roster never comes back. A step answers that the job is
finished exactly if nobody is left, and from then on no step does anything. -/
theorem rounds_lose_no_agent (calls : Nat → Nat × Engine) (job : Job) :
    (¬ job.Startable (calls 0).2.program → call calls job 0 =
        (.defect (.ofDefect (.noProcedure job.procedure)), job, (calls 0).2))
      ∧ (job.Startable (calls 0).2.program →
        ∃ (order : List Cursor) (sim : Simulation) (roster : Nat → Roster),
        job.takeUp (calls 0).2.environment (calls 0).2.backstage = (.ok order, sim)
          ∧ (job.cursors = none → (order.map Cursor.agent).Perm job.agents.agents
            ∧ (job.agents.ordered = true → order.map Cursor.agent = job.agents.agents))
          ∧ (∀ cursors, job.cursors = some cursors → order = cursors)
          ∧ Lives calls job order roster
          ∧ (∀ (k place : Nat) (c : Cursor), (roster k)[place]? = some (some c) →
            (order.map Cursor.agent)[place]? = some c.agent)
          ∧ (∀ k place : Nat, (roster k)[place]? = some none →
            ∀ later, k ≤ later → (roster later)[place]? = some none)
          ∧ ∀ k, (call calls job k).1 = .finished → ∀ later, k < later →
            call calls job later =
              (.finished, afterCalls calls job (k + 1), (calls later).2)) := by
  refine ⟨fun h => Engine.stepWith_of_not_startable h _, fun h => ?_⟩
  rcases takeUp_cases (calls 0).2.environment job (calls 0).2.backstage with
    ⟨hs, _⟩ | ⟨_, order, sim, htake⟩
  · exact absurd h hs
  obtain ⟨hnew, hold⟩ := order_of_takeUp htake
  obtain ⟨roster, hlives⟩ := exists_lives calls job htake
  exact ⟨order, sim, roster, htake, hnew, hold, hlives, fun k _ c => hlives.agent k c,
    fun _ _ => hlives.gone, fun _ => call_of_finished⟩

/-- An engine on a bare world whose program paints a patch twice. -/
def painter : Engine :=
  .ofProgram (World.build .default) (.ofSeed 0)
    (ProgramDef.layout ⟨[.ofBody "go"
      [⟨.setVariable .patch 3, [.constant (.number 15)], [], .zero⟩,
        ⟨.setVariable .patch 3, [.constant (.number 25)], [], .zero⟩]]⟩)

/-- Two patches paint themselves, in their order. -/
theorem rounds_lose_no_agent_painter :
    let job := Job.ofAgents ⟨.patch, [.patch 0, .patch 1], true⟩ 0 0 Streams.main
    let calls := fun _ : Nat => (3, painter)
    job.Startable painter.program ∧ ∃ order sim roster,
      job.takeUp painter.environment painter.backstage = (.ok order, sim)
        ∧ order.map Cursor.agent = [.patch 0, .patch 1] ∧ Lives calls job order roster := by
  intro job calls
  have startable : job.Startable painter.program := by decide
  obtain ⟨order, sim, roster, htake, hnew, _, hlives, _⟩ :=
    (rounds_lose_no_agent calls job).2 startable
  exact ⟨startable, order, sim, roster, htake, (hnew rfl).2 rfl, hlives⟩

end Job

end Swarm
