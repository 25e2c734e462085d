import Swarm.Cli.Console
import Swarm.Proofs.Program.Acceptance
import Swarm.Proofs.Provenance.Runs
import Swarm.Proofs.World.Description

/-!
# Exit codes

The code that an action exits with is chosen from the class of a fault alone. Loading a model,
assembling it and looking up a procedure fail with classes that no run fails with, so the code tells
whether there was a run. Building the world is different: a link that joins missing turtles is
reported in the class of faults about agents, as it would be in a run. Such a model makes every
action exit with the code of a failed run, although there was none; for all others the code tells
faults of the input from failed runs, and both from defects.

## Main definitions

* `FaultKind.isInput`: the classes of faults in the input
* `Cli.Holds`, `Cli.Prepares`, `Cli.Invocation.Starts`: a file holds a model, there is an engine for
  it, a run comes to a job
* `Cli.Invocation.TellsApart`: the code tells what happened

## Main results

* `Cli.exitCode_of_isInput`, `Cli.exitCode_of_run`: the codes of faults
* `Cli.Invocation.exit_of_unjoined`: the code if a link joins missing turtles
* `Cli.Invocation.tellsApart_iff_joins`: the code tells what happened unless a link does so
-/

namespace Swarm

-- ════════════════════════════════════════════════════════════════════════
-- Classes of faults
-- ════════════════════════════════════════════════════════════════════════

/-- The classes of faults in the input. -/
def FaultKind.isInput : FaultKind → Bool
  | configInvalid => true
  | invalidArgument => true
  | assemblyFailed => true
  | procedureNotFound => true
  | fileNotFound => true
  | permissionDenied => true
  | ioFailed => true
  | parseFailed => true
  | serializationFailed => true
  | _ => false

/-- No expression and no instruction raises a fault of these classes. -/
theorem Fault.Own.isInput_eq_false {f : Fault} (h : f.Own) : f.kind.isInput = false := by
  obtain ⟨c, hc, rfl⟩ := h
  cases c <;> first | rfl | cases hc

theorem View.isInput_bind {f : Fault} (v : View) (primitive : String) (position : Position)
    (h : f.kind.isInput = false) : (v.bind primitive position f).kind.isInput = false := by
  unfold Fault.kind at h ⊢
  rcases v.cause_bind primitive position f with hcause | hcause <;> rw [hcause]
  · exact h
  · rfl

/-- No run fails with a fault of these classes. -/
theorem lasting_not_isInput : Fault.Lasting fun f => f.kind.isInput = false where
  own _ h := h.isInput_eq_false
  fetch f h := by rcases h with h | h <;> rw [h] <;> rfl
  recorded v primitive position _ h := v.isInput_bind primitive position h
  stepLimit _ := rfl

namespace Cli

open Swarm.Random (Stream)

variable {f : Fault}

/-- Input faults are no defects, and have a code of their own. -/
theorem exitCode_of_isInput (h : f.kind.isInput = true) : exitCode f = exitInput := by
  unfold exitCode Fault.isFatal
  cases hk : f.kind <;> rw [hk] at h <;> first | rfl | cases h

/-- Faults of runs have two codes, one of which says that they are defects. -/
theorem exitCode_of_run (h : f.kind.isInput = false) :
    exitCode f = if f.isFatal then exitDefect else exitRuntime := by
  unfold exitCode Fault.isFatal
  cases hk : f.kind <;> rw [hk] at h <;> first | rfl | cases h

-- ════════════════════════════════════════════════════════════════════════
-- The stages of an action
-- ════════════════════════════════════════════════════════════════════════

/-- The check fails with input faults only. -/
abbrev BlamesInput {α : Type} (x : Except Fault α) : Prop :=
  Except.FailsWith (fun f => f.kind.isInput = true) x

/-- What became of reading a file: its text, or a fault. -/
def reading (file : Except (FileTrouble × String) String) : Except Fault String :=
  file.mapError fun p => .ofCause (.file p.1 p.2)

/-- The file can be read and holds a model. -/
def Holds (file : Except (FileTrouble × String) String) (model : Model) : Prop :=
  ∃ text, file = .ok text ∧ Model.ofText? text = some model

/-- The model has a world and its program is accepted there. The engine is as it was assembled. -/
inductive Prepares (model : Model) (settings : RunSettings) (forgiving : Bool) : Engine → Prop where
  | intro {w : World} {main : Stream} {program : Program} :
    buildWorld model settings = .ok (w, main) →
    model.program.assemble w forgiving = .ok program →
    Prepares model settings forgiving (.ofProgram w main program)

/-- A run comes to a job: there is an engine, which is given a limit of steps, and the procedure
exists and has no inputs. -/
inductive Invocation.Starts (inv : Invocation) (model : Model) : Engine → Job → Prop where
  | intro {settings : RunSettings} {e e' : Engine} {job : Job} :
    settings = model.run.overriddenBy inv.settings →
    Prepares model settings inv.forgiving e →
    e' = { e with
      limits := { e.limits with steps := settings.maxSteps.getD Limits.default.steps } } →
    e'.job (settings.procedure.getD defaultProcedure)
      ((settings.audience.getD .observer).agents e'.world) = .ok job →
    Starts inv model e' job

theorem Holds.unique {file : Except (FileTrouble × String) String} {model model' : Model}
    (h : Holds file model) (h' : Holds file model') : model' = model := by
  obtain ⟨text, rfl, hmodel⟩ := h
  obtain ⟨_, ⟨⟩, hmodel'⟩ := h'
  exact Option.some.inj (hmodel'.symm.trans hmodel)

section Stages

variable {file : Except (FileTrouble × String) String} {model : Model} {settings : RunSettings}
  {forgiving : Bool} {e : Engine} {job : Job} {inv : Invocation}

theorem blamesInput_reading (file : Except (FileTrouble × String) String) :
    BlamesInput (reading file) := by
  rcases file with ⟨trouble, message⟩ | text
  · apply Except.failsWith_error
    cases trouble <;> rfl
  · exact Except.failsWith_ok text

theorem blamesInput_loadModel (path text : String) : BlamesInput (loadModel path text) := by
  rw [loadModel]
  split
  · exact Except.failsWith_ok _
  · exact Except.failsWith_error rfl

theorem blamesInput_load (path : String) (file : Except (FileTrouble × String) String) :
    BlamesInput ((reading file).bind (loadModel path)) :=
  (blamesInput_reading file).bind (blamesInput_loadModel path)

theorem load_eq_ok_iff {path : String} :
    (reading file).bind (loadModel path) = .ok model ↔ Holds file model := by
  rcases file with p | text
  · simp [reading, Holds, Except.mapError, Except.bind]
  · simp only [reading, Holds, Except.mapError, Except.bind, loadModel, Except.ok.injEq,
      exists_eq_left']
    cases Model.ofText? text <;> simp

theorem assembleModel_eq_ok_iff :
    assembleModel model settings forgiving = .ok e ↔ Prepares model settings forgiving e := by
  constructor
  · intro h
    obtain ⟨⟨w, main⟩, hworld, h⟩ := Except.bind_eq_ok h
    obtain ⟨program, hprogram, h⟩ := Except.bind_eq_ok h
    cases h
    exact .intro hworld hprogram
  · rintro ⟨hworld, hprogram⟩
    rw [assembleModel, hworld]
    show (model.program.assemble _ forgiving >>= _) = _
    rw [hprogram]
    rfl

/-- Assembly refuses with input faults only, since what it has laid out always passes
verification. -/
theorem blamesInput_assemble (d : ProgramDef) (w : World) (forgiving : Bool) :
    BlamesInput (d.assemble w forgiving) := by
  rw [d.assemble_eq_check]
  cases hc : d.check w forgiving with
  | ok _ => exact Except.failsWith_ok _
  | error f =>
    apply Except.failsWith_error
    rcases (d.refuses_check w forgiving f hc).kind with hkind | hkind <;> rw [hkind] <;> rfl

theorem blamesInput_assembleModel (joined : model.world.HasPatches → model.world.JoinsTurtles) :
    BlamesInput (assembleModel model settings forgiving) := by
  have hworld : BlamesInput (buildWorld model settings) := by
    have hbuilt := World.built_ofSpec
      { model.world with seed := settings.seed.getD model.world.seed }
    rw [buildWorld]
    generalize World.ofSpec _ = answer at hbuilt ⊢
    cases hbuilt with
    | empty _ => exact Except.failsWith_error rfl
    | unjoined patches unjoined _ => exact absurd (joined patches) unjoined
    | world _ _ => exact Except.failsWith_ok _
  exact hworld.bind fun p => (blamesInput_assemble _ p.1 forgiving).bind fun _ =>
    Except.failsWith_ok _

/-- A link that joins missing turtles is reported as a fault about an agent. -/
theorem assembleModel_of_unjoined (patches : model.world.HasPatches)
    (unjoined : ¬ model.world.JoinsTurtles) (settings : RunSettings) (forgiving : Bool) :
    ∃ missing, assembleModel model settings forgiving =
      .error (.ofCause (.cannotLink (.turtle missing))) := by
  have hbuilt := World.built_ofSpec
    { model.world with seed := settings.seed.getD model.world.seed }
  rw [assembleModel, buildWorld]
  generalize World.ofSpec _ = answer at hbuilt ⊢
  cases hbuilt with
  | empty empty => exact absurd patches empty
  | @unjoined missing _ _ _ => exact ⟨missing, rfl⟩
  | world _ joined => exact absurd joined unjoined

theorem not_prepares_of_unjoined (patches : model.world.HasPatches)
    (unjoined : ¬ model.world.JoinsTurtles) : ¬ Prepares model settings forgiving e := by
  intro prepares
  obtain ⟨missing, h⟩ := assembleModel_of_unjoined patches unjoined settings forgiving
  rw [assembleModel_eq_ok_iff.2 prepares] at h
  cases h

theorem blamesInput_job (e : Engine) (procedure : String) (agents : AgentSet) :
    BlamesInput (e.job procedure agents) := by
  have hlookup : BlamesInput (e.program.lookup procedure) := by
    rw [Program.lookup]
    split
    · split
      · exact Except.failsWith_ok _
      · exact Except.failsWith_error rfl
    · exact Except.failsWith_error rfl
  apply hlookup.bind
  rintro ⟨index, q⟩
  dsimp only
  split
  · exact Except.failsWith_error rfl
  · exact Except.failsWith_ok _

theorem runModel_eq_ok_iff {report : RunReport} :
    runModel model (model.run.overriddenBy inv.settings) inv.forgiving = .ok report ↔
      ∃ e job, inv.Starts model e job
        ∧ report = ⟨(e.run job).1, (e.run job).2.1, (e.run job).2.2⟩ := by
  constructor
  · intro h
    obtain ⟨e, he, h⟩ := Except.bind_eq_ok h
    obtain ⟨job, hjob, h⟩ := Except.bind_eq_ok h
    cases h
    exact ⟨_, job, .intro rfl (assembleModel_eq_ok_iff.1 he) rfl hjob, rfl⟩
  · rintro ⟨_, job, ⟨rfl, he, rfl, hjob⟩, rfl⟩
    rw [runModel, assembleModel_eq_ok_iff.2 he]
    show (Engine.job _ _ _ >>= _) = _
    rw [hjob]
    rfl

theorem blamesInput_runModel (joined : model.world.HasPatches → model.world.JoinsTurtles) :
    BlamesInput (runModel model settings forgiving) :=
  (blamesInput_assembleModel joined).bind fun _ => (blamesInput_job _ _ _).bind fun _ =>
    Except.failsWith_ok _

theorem runModel_of_unjoined (patches : model.world.HasPatches)
    (unjoined : ¬ model.world.JoinsTurtles) (settings : RunSettings) (forgiving : Bool) :
    ∃ missing, runModel model settings forgiving =
      .error (.ofCause (.cannotLink (.turtle missing))) := by
  obtain ⟨missing, h⟩ := assembleModel_of_unjoined patches unjoined settings forgiving
  exact ⟨missing, by rw [runModel, h]; rfl⟩

end Stages

-- ════════════════════════════════════════════════════════════════════════
-- What the code tells
-- ════════════════════════════════════════════════════════════════════════

namespace Invocation

variable {inv : Invocation} {file : Except (FileTrouble × String) String} {model : Model}
  {e : Engine} {job : Job}

/-- The code that an action exits with. -/
def exit (inv : Invocation) (file : Except (FileTrouble × String) String) : Nat :=
  (inv.perform (reading file)).exit

theorem exit_of_holds (h : Holds file model) : inv.exit file = (inv.onModel model).exit := by
  rw [exit, perform, load_eq_ok_iff.2 h]

theorem exit_of_not_holds (h : ∀ model, ¬ Holds file model) : inv.exit file = exitInput := by
  rw [exit, perform]
  cases hload : (reading file).bind (loadModel inv.path) with
  | ok model => exact absurd (load_eq_ok_iff.1 hload) (h model)
  | error f => exact exitCode_of_isInput (blamesInput_load _ _ f hload)

/-- What `dump` and `check` exit with. -/
theorem exit_onModel_of_dry (dry : inv.action ≠ .run) :
    (inv.onModel model).exit =
      match assembleModel model model.run inv.forgiving with
      | .ok _ => exitSuccess
      | .error f => exitCode f := by
  rw [onModel]
  cases haction : inv.action with
  | run => exact absurd haction dry
  | dump => cases assembleModel model model.run inv.forgiving <;> rfl
  | check => cases assembleModel model model.run inv.forgiving <;> rfl

/-- What `run` exits with. -/
theorem exit_onModel_of_run (run : inv.action = .run) :
    (inv.onModel model).exit =
      match runModel model (model.run.overriddenBy inv.settings) inv.forgiving with
      | .ok report => (report.console inv.quiet).exit
      | .error f => exitCode f := by
  rw [onModel, run]
  cases runModel model (model.run.overriddenBy inv.settings) inv.forgiving <;> rfl

/-- The code of a run tells how it ended. -/
theorem exit_of_outcome (run : inv.action = .run) (holds : Holds file model)
    (starts : inv.Starts model e job) :
    inv.exit file =
      match (e.run job).1 with
      | .finished => exitSuccess
      | .defect _ => exitDefect
      | _ => exitRuntime := by
  rw [exit_of_holds holds, exit_onModel_of_run run, runModel_eq_ok_iff.2 ⟨e, job, starts, rfl⟩]
  have hfaulty : (e.run job).1.Faulty fun f => f.kind.isInput = false :=
    Engine.faulty_runSteps lasting_not_isInput _ _ e job
  dsimp only [RunReport.console]
  cases ho : (e.run job).1 with
  | failed f =>
    rw [ho] at hfaulty
    exact (exitCode_of_run hfaulty.1).trans (if_neg (by simp [hfaulty.2]))
  | defect f =>
    rw [ho] at hfaulty
    exact (exitCode_of_run hfaulty.1).trans (if_pos hfaulty.2)
  | _ => rfl

/-- If the links at the start join missing turtles, then every action exits like a failed run. -/
theorem exit_of_unjoined (inv : Invocation) (holds : Holds file model)
    (patches : model.world.HasPatches) (unjoined : ¬ model.world.JoinsTurtles) :
    inv.exit file = exitRuntime := by
  rw [exit_of_holds holds]
  by_cases run : inv.action = .run
  · obtain ⟨missing, h⟩ := runModel_of_unjoined patches unjoined
      (model.run.overriddenBy inv.settings) inv.forgiving
    rw [exit_onModel_of_run run, h]
    rfl
  · obtain ⟨missing, h⟩ := assembleModel_of_unjoined patches unjoined model.run inv.forgiving
    rw [exit_onModel_of_dry run, h]
    rfl

section Joined

variable (joins : ∀ model, Holds file model → model.world.HasPatches → model.world.JoinsTurtles)
include joins

/-- Without an engine, `dump` and `check` blame the input. -/
theorem exit_of_not_prepares (dry : inv.action ≠ .run)
    (hnone : ¬ ∃ model e, Holds file model ∧ Prepares model model.run inv.forgiving e) :
    inv.exit file = exitInput := by
  by_cases hmodel : ∃ model, Holds file model
  · obtain ⟨model, holds⟩ := hmodel
    rw [exit_of_holds holds, exit_onModel_of_dry dry]
    cases ha : assembleModel model model.run inv.forgiving with
    | ok e => exact absurd ⟨model, e, holds, assembleModel_eq_ok_iff.1 ha⟩ hnone
    | error f => exact exitCode_of_isInput (blamesInput_assembleModel (joins model holds) f ha)
  · exact exit_of_not_holds fun model holds => hmodel ⟨model, holds⟩

/-- Without a job, `run` blames the input. -/
theorem exit_of_not_starts (run : inv.action = .run)
    (hnone : ¬ ∃ model e job, Holds file model ∧ inv.Starts model e job) :
    inv.exit file = exitInput := by
  by_cases hmodel : ∃ model, Holds file model
  · obtain ⟨model, holds⟩ := hmodel
    rw [exit_of_holds holds, exit_onModel_of_run run]
    cases hr : runModel model (model.run.overriddenBy inv.settings) inv.forgiving with
    | ok report =>
      obtain ⟨e, job, starts, _⟩ := runModel_eq_ok_iff.1 hr
      exact absurd ⟨model, e, job, holds, starts⟩ hnone
    | error f => exact exitCode_of_isInput (blamesInput_runModel (joins model holds) f hr)
  · exact exit_of_not_holds fun model holds => hmodel ⟨model, holds⟩

end Joined

/-- The exit code tells whether the input was at fault, whether a run failed, and whether there is a
defect. -/
structure TellsApart (inv : Invocation) (file : Except (FileTrouble × String) String) : Prop where
  /-- If nothing is run, then the code says whether there is an engine for the model. -/
  accepted : inv.action ≠ .run → ∀ model e, Holds file model →
    Prepares model model.run inv.forgiving e → inv.exit file = exitSuccess
  rejected : inv.action ≠ .run →
    (¬ ∃ model e, Holds file model ∧ Prepares model model.run inv.forgiving e) →
      inv.exit file = exitInput
  /-- A run blames the input exactly if it did not come to a job. -/
  unstarted : inv.action = .run →
    (inv.exit file = exitInput ↔ ¬ ∃ model e job, Holds file model ∧ inv.Starts model e job)
  /-- A run that came to a job, and ends, has a code for each way in which it can end. -/
  ended : inv.action = .run → ∀ model e job, Holds file model → inv.Starts model e job →
    (e.run job).1 ≠ .exhausted →
      (inv.exit file = exitRuntime ↔ ∃ f, (e.run job).1 = .failed f)
        ∧ (inv.exit file = exitDefect ↔ ∃ f, (e.run job).1 = .defect f)
        ∧ (inv.exit file = exitSuccess ↔ (e.run job).1 = .finished)

/-- The code tells what happened exactly if no link at the start joins a missing turtle. -/
theorem tellsApart_iff_joins (inv : Invocation) (file : Except (FileTrouble × String) String) :
    inv.TellsApart file ↔
      ∀ model, Holds file model → model.world.HasPatches → model.world.JoinsTurtles := by
  constructor
  · intro tells model holds patches
    by_contra unjoined
    have hexit := inv.exit_of_unjoined holds patches unjoined
    -- there is no engine for the model, and no field leaves room for the code of a failed run
    by_cases run : inv.action = .run
    · rw [(tells.unstarted run).2] at hexit
      · cases hexit
      · rintro ⟨_, _, _, holds', starts⟩
        obtain ⟨_, prepares, _, _⟩ := starts
        obtain rfl := holds.unique holds'
        exact not_prepares_of_unjoined patches unjoined prepares
    · rw [tells.rejected run] at hexit
      · cases hexit
      · rintro ⟨_, _, holds', prepares⟩
        obtain rfl := holds.unique holds'
        exact not_prepares_of_unjoined patches unjoined prepares
  · intro joins
    refine ⟨?accepted, exit_of_not_prepares joins, ?unstarted, ?ended⟩
    case accepted =>
      intro dry model e holds prepares
      rw [exit_of_holds holds, exit_onModel_of_dry dry, assembleModel_eq_ok_iff.2 prepares]
    case unstarted =>
      refine fun run => ⟨?_, exit_of_not_starts joins run⟩
      rintro hexit ⟨model, e, job, holds, starts⟩
      rw [exit_of_outcome run holds starts] at hexit
      split at hexit <;> cases hexit
    case ended =>
      intro run model e job holds starts hends
      have hstopped : (e.run job).1 ≠ .continuing := (Engine.settled_runSteps _ _ e job).1
      rw [exit_of_outcome run holds starts]
      cases ho : (e.run job).1 with
      | continuing => exact absurd ho hstopped
      | exhausted => exact absurd ho hends
      | finished | failed | defect => simp [exitSuccess, exitRuntime, exitDefect]

/-- A model with a procedure that does nothing and one that prints what is not there. -/
def stroll : String :=
  "\x7b\"procedures\":[\x7b\"name\":\"go\",\"body\":[]\x7d,\x7b\"name\":\"stray\",\"body\":"
    ++ "[\x7b\"prim\":\"print\",\"args\":"
    ++ "[\x7b\"prim\":\"unknown_identifier\",\"name\":\"herd\"\x7d]\x7d]\x7d]\x7d"

example :
    let run (procedure : String) (maxSteps : Nat) : Nat :=
      exit ⟨.run, "model.json", ⟨none, procedure, none, maxSteps⟩, true, false⟩ (.ok stroll)
    run "go" 1 = exitSuccess ∧ run "go" 0 = exitRuntime ∧ run "halt" 1 = exitInput
      ∧ run "stray" 1 = exitDefect := by
  decide +kernel

/-- A model whose only link joins turtles that it does not have. -/
def adrift : String :=
  "\x7b\"world\":\x7b\"links\":[[0,1]]\x7d,\"procedures\":[]\x7d"

/-- Nothing is run, and yet `check` exits with the code of a failed run. -/
theorem not_tellsApart_adrift :
    let inv : Invocation := ⟨.check, "model.json", .none, false, false⟩
    inv.exit (.ok adrift) = exitRuntime ∧ ¬ inv.TellsApart (.ok adrift) := by
  intro inv
  have hmodel : (Model.ofText? adrift).any
      (fun m => m.world.HasPatches ∧ ¬ m.world.JoinsTurtles) = true := by decide +kernel
  obtain ⟨model, hread, hworld⟩ := Option.any_eq_true _ _ |>.1 hmodel
  obtain ⟨patches, unjoined⟩ := of_decide_eq_true hworld
  have holds : Holds (.ok adrift) model := ⟨adrift, rfl, hread⟩
  have hexit : inv.exit (.ok adrift) = exitRuntime := inv.exit_of_unjoined holds patches unjoined
  refine ⟨hexit, fun tells => ?_⟩
  have hrejected : inv.exit (.ok adrift) = exitInput := by
    refine tells.rejected nofun ?_
    rintro ⟨_, _, holds', prepares⟩
    obtain rfl := holds.unique holds'
    exact not_prepares_of_unjoined patches unjoined prepares
  rw [hexit] at hrejected
  cases hrejected

end Invocation

end Cli

end Swarm
