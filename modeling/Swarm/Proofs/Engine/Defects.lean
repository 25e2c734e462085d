import Swarm.Proofs.Engine.Failure
import Swarm.Proofs.Exec.Sound
import Swarm.Proofs.Job.Effects

/-!
# No defect surfaces

A session is an engine together with jobs that were made on it, stepped in any order. In every
session of an assembled program on the world of a description, no step ends in a defect, but for
names that assembly was told to let through unresolved.

## Main definitions

* `Job.Sound`: a job that a sound program can go on with
* `Engine.Session`: the engines and jobs that a sequence of operations leads to

## Main results

* `Job.sound_step`: a step keeps jobs and simulations sound
* `Engine.Session.sound`: sessions are sound
* `Engine.stepWith_defect_free`: no step of a session ends in a defect
-/

namespace Swarm

variable {forgiving : Bool} {slots : AgentKind → Nat}

/-- How a job may end, or what it may give, on a sound simulation. -/
def Tolerates {α : Type} (forgiving : Bool) (slots : AgentKind → Nat) (A : α → Prop) :
    Except Stop α × Simulation → Prop
  | (.ok a, sim) => A a ∧ sim.Sound slots
  | (.error (.fault f), sim) => f.Tolerable forgiving ∧ sim.Sound slots
  | (.error .exhausted, sim) => sim.Sound slots

/-- A job that a sound program can go on with. -/
structure Job.Sound (program : Program) (job : Job) : Prop where
  start : ∃ q, program.procedures[job.procedure]? = some q ∧ job.entry < q.code.size
  cursors : ∀ cursors, job.cursors = some cursors → ∀ c ∈ cursors, c.Sound program

namespace Job

variable {env : Environment}

theorem answers_iff_tolerates {α : Type} {A : α → Prop} {r : Except Stop α × Simulation} :
    Answers A (fun e => ∀ f, e = .fault f → f.Tolerable forgiving) (fun sim => sim.Sound slots) r
      ↔ Tolerates forgiving slots A r := by
  rcases r with ⟨(f | _) | a, sim⟩
  · exact ⟨fun h => ⟨h.reason _ _ rfl f rfl, h.simulation⟩,
      fun h => ⟨nofun, by rintro _ _ ⟨⟩ _ ⟨⟩; exact h.1, h.2⟩⟩
  · exact ⟨fun h => h.simulation, fun h => ⟨nofun, by rintro _ _ ⟨⟩ _ ⟨⟩, h⟩⟩
  · exact ⟨fun h => ⟨h.value _ _ rfl, h.simulation⟩,
      fun h => ⟨by rintro _ _ ⟨⟩; exact h.1, nofun, h.2⟩⟩

theorem tolerates_turn (hp : env.program.Sound forgiving slots) (fuel : Nat) (stream : StreamRef)
    {c : Cursor} (hc : c.Sound env.program) {sim : Simulation} (hs : sim.Sound slots) :
    Tolerates forgiving slots (fun after => after.toCursor.Sound env.program)
      (turn env fuel stream c sim) := by
  have hrun := Exec.safe_untilSwitch hp fuel
    { sim with nesting := 0, context := .resume c stream } ⟨hs, hc⟩
  rw [turn]
  rcases hr : Exec.untilSwitch env fuel { sim with nesting := 0, context := .resume c stream } with
    ⟨_, m⟩ | ⟨⟨f⟩ | _, m⟩ <;> rw [hr] at hrun
  · exact ⟨hrun.cursor, hrun.simulation⟩
  · exact ⟨hrun.1, hrun.2.simulation⟩
  · exact hrun.simulation

theorem tolerates_turns (hp : env.program.Sound forgiving slots) (fuel : Nat)
    (stream : StreamRef) (cursors : List Cursor) (hc : ∀ c ∈ cursors, c.Sound env.program)
    {sim : Simulation} (hs : sim.Sound slots) :
    Tolerates forgiving slots (fun pending => ∀ c ∈ pending, c.Sound env.program)
      (turns env fuel stream cursors sim) :=
  answers_iff_tolerates.1 (answers_turns cursors (fun c hmem _ hs =>
    answers_iff_tolerates.2 (tolerates_turn hp fuel stream (hc c hmem) hs)) hs)

/-- A job that starts gives every agent a frame of its procedure. -/
theorem tolerates_takeUp {job : Job} (hj : job.Sound env.program) {sim : Simulation}
    (hs : sim.Sound slots) :
    ∃ cursors sim', job.takeUp env sim = (.ok cursors, sim')
      ∧ (∀ c ∈ cursors, c.Sound env.program) ∧ sim'.Sound slots := by
  obtain ⟨q, hq, hentry⟩ := hj.start
  rw [takeUp]
  split
  · next cursors hcursors => exact ⟨cursors, sim, rfl, hj.cursors cursors hcursors, hs⟩
  · have hprocedure : env.program.procedure job.procedure = .ok q := by
      rw [Program.procedure, hq]
    rw [start]
    rw [hprocedure]
    refine ⟨_, _, rfl, fun c hc => ?_, hs.world, hs.slots⟩
    obtain ⟨a, _, rfl⟩ := List.mem_map.1 hc
    exact ⟨Frame.sound_fresh hq 0, Nat.one_pos, Nat.le_refl _, q, hq, hentry⟩

/-- A step keeps the job and the simulation sound, and fails tolerably if it fails. -/
theorem sound_step (hp : env.program.Sound forgiving slots) (fuel : Nat) {job : Job}
    (hj : job.Sound env.program) {sim : Simulation} (hs : sim.Sound slots) :
    (job.step env fuel sim).2.1.Sound env.program ∧ (job.step env fuel sim).2.2.Sound slots
      ∧ ∀ f, (job.step env fuel sim).1 = .error (.fault f) → f.Tolerable forgiving := by
  obtain ⟨cursors, sim', htake, hcursors, hs'⟩ := tolerates_takeUp hj hs
  have hturns := tolerates_turns hp fuel job.stream cursors hcursors hs'
  rw [step]
  rw [htake]
  dsimp only
  rcases hts : turns env fuel job.stream cursors sim' with ⟨⟨⟨f⟩ | _⟩ | pending, sim''⟩ <;>
    rw [hts] at hturns
  · refine ⟨⟨hj.start, fun cs hcs c hc => ?_⟩, hturns.2, fun g hg => ?_⟩
    · cases hcs
      cases hc
    · cases hg
      exact hturns.1
  · refine ⟨⟨hj.start, fun cs hcs c hc => ?_⟩, hturns, fun g hg => by cases hg⟩
    cases hcs
    cases hc
  · refine ⟨⟨hj.start, fun cs hcs c hc => ?_⟩, hturns.2, fun g hg => by cases hg⟩
    cases hcs
    exact hturns.1 c hc

end Job

theorem Program.lookup_eq_ok {program : Program} {name : String} {index : Nat} {q : Procedure}
    (h : program.lookup name = .ok (index, q)) : program.procedures[index]? = some q := by
  rw [lookup] at h
  split at h
  · split at h
    · next hq =>
      cases h
      exact hq
    · cases h
  · cases h

namespace Engine

/-- The engines and jobs that a sequence of operations leads to: jobs are made, stepped in any
order and any number of times, and limits, the halt flag and the observers may be changed at any
time. -/
inductive Session (first : Engine) : Engine → List Job → Prop where
  | start : Session first first []
  | adjust {e : Engine} {jobs : List Job} (limits : Limits) (halt : HaltFlag) (muted : Bool) :
    Session first e jobs →
    Session first { e.setHalt halt with limits := limits, muted := muted } jobs
  | job {e : Engine} {jobs : List Job} {name : String} {agents : AgentSet} {job : Job} :
    Session first e jobs → e.job name agents = .ok job → Session first e (job :: jobs)
  | step {e : Engine} {before after : List Job} {job : Job} (fuel : Nat) :
    Session first e (before ++ job :: after) →
    Session first (e.stepWith fuel job).2.2 (before ++ (e.stepWith fuel job).2.1 :: after)

/-- An engine whose program and simulation are sound. -/
structure Sound (forgiving : Bool) (slots : AgentKind → Nat) (e : Engine) : Prop where
  program : e.program.Sound forgiving slots
  simulation : e.simulation.Sound slots

theorem sound_job {e : Engine} (h : e.Sound forgiving slots) {name : String} {agents : AgentSet}
    {job : Job} (hjob : e.job name agents = .ok job) : job.Sound e.program := by
  obtain ⟨⟨index, q⟩, hlookup, hjob⟩ := Except.bind_eq_ok hjob
  dsimp only at hjob
  split at hjob
  · cases hjob
  cases hjob
  have hq := Program.lookup_eq_ok hlookup
  exact ⟨⟨q, hq, (h.program.inside hq).1⟩, fun cs hcs => by cases hcs⟩

/-- A step keeps the engine and its job sound, and ends in a defect only where a name was let
through. -/
theorem sound_stepWith (fuel : Nat) {e : Engine} (h : e.Sound forgiving slots) {job : Job}
    (hj : job.Sound e.program) :
    (e.stepWith fuel job).2.2.Sound forgiving slots
      ∧ (e.stepWith fuel job).2.2.program = e.program
      ∧ (e.stepWith fuel job).2.1.Sound e.program
      ∧ ((e.stepWith fuel job).1 = .finished ∨ ∃ answer, (e.stepWith fuel job).1 = outcome answer
        ∧ ∀ f, answer = .error (.fault f) → f.Tolerable forgiving) := by
  obtain ⟨sim, program, limits, muted⟩ := e
  rw [stepWith]
  by_cases finished : job.isFinished
  · rw [if_pos finished]
    exact ⟨h, rfl, hj, .inl rfl⟩
  rw [if_neg finished]
  have hstep {sim : Simulation} (hs : sim.Sound slots) :=
    @Job.sound_step forgiving slots ⟨program, limits⟩ h.program fuel job hj sim hs
  cases muted with
  | false =>
    obtain ⟨hjob, hsim, hanswer⟩ := hstep h.simulation
    exact ⟨⟨h.program, hsim⟩, rfl, hjob, .inr ⟨_, rfl, hanswer⟩⟩
  | true =>
    have hquiet : Simulation.Sound slots { sim with notices := #[] } :=
      ⟨h.simulation.world, h.simulation.slots⟩
    obtain ⟨hjob, hsim, hanswer⟩ := hstep hquiet
    exact ⟨⟨h.program, hsim.world, hsim.slots⟩, rfl, hjob, .inr ⟨_, rfl, hanswer⟩⟩

/-- Everything in a session is sound if the session starts with a sound engine. -/
theorem Session.sound {first e : Engine} {jobs : List Job} (session : Session first e jobs)
    (h : first.Sound forgiving slots) :
    e.Sound forgiving slots ∧ ∀ job ∈ jobs, job.Sound e.program := by
  induction session with
  | start => exact ⟨h, by simp⟩
  | adjust limits halt muted _ ih =>
    exact ⟨⟨ih.1.program, ih.1.simulation.world, ih.1.simulation.slots⟩, ih.2⟩
  | job _ hjob ih =>
    refine ⟨ih.1, fun j hj => ?_⟩
    rcases List.mem_cons.1 hj with rfl | hj
    · exact sound_job ih.1 hjob
    · exact ih.2 j hj
  | @step e before after job fuel _ ih =>
    obtain ⟨he, hprogram, hjob, _⟩ := sound_stepWith fuel ih.1 (ih.2 job (by simp))
    refine ⟨he, fun j hj => ?_⟩
    rw [hprogram]
    simp only [List.mem_append, List.mem_cons] at hj
    rcases hj with hj | rfl | hj
    · exact ih.2 j (by simp [hj])
    · exact hjob
    · exact ih.2 j (by simp [hj])

/-- On the world of a description, with well-kinded initial values, run any assembled program with
well-kinded constants: make jobs and step them in any order, under any limits. No step ends in a
defect, and no fault that ends a step is one. The exception is a name that stands for nothing,
where assembly was told to let such names through. -/
theorem stepWith_defect_free {spec : WorldSpec} {w : World} {main : Random.Stream}
    {d : ProgramDef} {forgiving : Bool} {program : Program}
    (built : World.ofSpec spec = .ok (w, main))
    (initials : ∀ x ∈ spec.declared, x.initial.wellKinded = true)
    (assembled : d.assemble w forgiving = .ok program)
    (constants : ∀ v ∈ d.constants, v.wellKinded = true)
    {e : Engine} {jobs : List Job} (session : Session (.ofProgram w main program) e jobs)
    {job : Job} (member : job ∈ jobs) (fuel : Nat) (f : Fault) :
    ((e.stepWith fuel job).1 = .failed f → f.kind ≠ .internalConsistency)
      ∧ ((e.stepWith fuel job).1 = .defect f →
        forgiving = true ∧ ∃ (name : String) (position : Position),
          f = .ofDefect (.unresolved name position.text)) := by
  have hfirst : (Engine.ofProgram w main program).Sound forgiving
      fun kind => (w.table kind).size :=
    ⟨ProgramDef.sound_of_assemble assembled constants,
      World.sound_ofSpec built initials, fun _ => rfl⟩
  obtain ⟨he, hjobs⟩ := session.sound hfirst
  obtain ⟨_, _, _, hend | ⟨answer, hend, htolerable⟩⟩ := sound_stepWith fuel he (hjobs job member)
  · rw [hend]
    exact ⟨nofun, nofun⟩
  · rw [hend]
    refine ⟨fun h hkind => ?_, fun h => ?_⟩
    · obtain ⟨_, recoverable⟩ := outcome_eq_failed_iff.1 h
      rw [Fault.isFatal_iff.2 hkind] at recoverable
      cases recoverable
    · obtain ⟨hanswer, fatal⟩ := outcome_eq_defect_iff.1 h
      exact htolerable f hanswer (Fault.isFatal_iff.1 fatal)

/-- A program that creates turtles, lets each of them set its color, and calls itself. -/
def hatchery : ProgramDef where
  procedures :=
    [.ofBody "go"
      [⟨.createTurtles, [.constant (.number 2)],
        [[⟨.setVariable .turtle colorSlot, [.constant (.number 15)], [], .zero⟩]], .zero⟩,
      ⟨.call "go" 0, [], [], .zero⟩]]

theorem job_hatchery (e : Engine) (h : e.program = hatchery.layout) (agents : AgentSet) :
    e.job "go" agents = .ok (.ofAgents agents 0 0 Streams.main) := by
  have hfind : hatchery.layout.procedures.findIdx? (fun q => Text.eqFolding q.name "go")
      = some 0 := by
    rw [ProgramDef.layout, List.findIdx?_toArray]
    decide
  have hlookup : ∃ q, e.program.lookup "go" = .ok (0, q) ∧ q.inputs = 0 := by
    rw [h, Program.lookup, hfind]
    exact ⟨_, rfl, rfl⟩
  obtain ⟨q, hq, hinputs⟩ := hlookup
  rw [job, hq]
  show (if 0 < q.inputs then _ else _ : Except Fault Job) = _
  rw [if_neg (by omega)]
  rfl

/-- The observer runs the program; its second step is no defect either. -/
theorem stepWith_defect_free_hatchery :
    let first := ofProgram (World.build .default) (.ofSeed 0) hatchery.layout
    let job := Job.ofAgents (.ofAgent .observer) 0 0 Streams.main
    Session first (first.stepWith 10 job).2.2 [(first.stepWith 10 job).2.1]
      ∧ ∀ f, ((first.stepWith 10 job).2.2.stepWith 10 (first.stepWith 10 job).2.1).1
        ≠ .defect f := by
  intro first job
  have built : World.ofSpec .default = .ok (World.build .default, .ofSeed 0) := rfl
  have assembled : hatchery.assemble (World.build .default) false = .ok hatchery.layout := rfl
  have session : Session first (first.stepWith 10 job).2.2 [(first.stepWith 10 job).2.1] :=
    @Session.step first first [] [] job 10 (.job .start (job_hatchery first rfl _))
  have member : (first.stepWith 10 job).2.1 ∈ [(first.stepWith 10 job).2.1] :=
    List.mem_singleton_self _
  refine ⟨session, fun f h => ?_⟩
  have hfree := stepWith_defect_free built (by simp [WorldSpec.declared, WorldSpec.default])
    assembled (by decide) session member 10 f
  exact absurd (hfree.2 h).1 (by decide)

end Engine

end Swarm
