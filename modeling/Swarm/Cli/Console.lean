import Swarm.Cli.Arguments
import Swarm.Engine
import Swarm.Json.Printer
import Swarm.Program.Listing

/-!
# Actions on models

What the command line prints, and the code it exits with. The code tells faults of the input from
faults of a run, and both from defects.

## Main definitions

* `Console`: printed texts and exit code
* `loadModel`, `buildWorld`, `assembleModel`, `runModel`: the stages of an action
* `Invocation.perform`: the whole action
-/

namespace Swarm.Cli

open Swarm.Random (Stream)

/-- What an action leaves behind. -/
structure Console where
  exit : Nat
  stdout : String
  stderr : String
deriving Repr, DecidableEq

/-- The code of a finished action. -/
def exitSuccess : Nat := 0

/-- The code of a run that failed. -/
def exitRuntime : Nat := 1

/-- The code of a fault in the input. -/
def exitInput : Nat := 2

/-- The code of a defect. -/
def exitDefect : Nat := 70

/-- The exit code of a fault. -/
def exitCode (f : Fault) : Nat :=
  if f.isFatal then exitDefect
  else
    match f.kind with
    | .assemblyFailed => exitInput
    | .procedureNotFound => exitInput
    | .parseFailed => exitInput
    | .serializationFailed => exitInput
    | .configInvalid => exitInput
    | .invalidArgument => exitInput
    | .fileNotFound => exitInput
    | .permissionDenied => exitInput
    | .ioFailed => exitInput
    | _ => exitRuntime

/-- The text of a fault, with its site if it has one. -/
def faultText (f : Fault) : String :=
  "Error: " ++ f.summary ++ "\n" ++
    match Site.ofFault? f with
    | some site => "  at " ++ site.text ++ "\n"
    | none => ""

/-- Exit with a fault after `printed`. -/
def Console.ofFault (printed : String) (f : Fault) : Console :=
  ⟨exitCode f, printed, faultText f⟩

/-- The model in the text of a file. -/
def loadModel (path : String) (text : String) : Except Fault Model :=
  match Model.ofText? text with
  | some model => .ok model
  | none => .error (.ofCause (.unreadable (path ++ ": not a model document")))

/-- The world of a model, with another seed if the settings have one. -/
def buildWorld (model : Model) (settings : RunSettings) : Except Fault (World × Stream) :=
  World.ofSpec { model.world with seed := settings.seed.getD model.world.seed }

/-- An engine for a model. -/
def assembleModel (model : Model) (settings : RunSettings) (forgiving : Bool) :
    Except Fault Engine := do
  let (w, main) ← buildWorld model settings
  let program ← model.program.assemble w forgiving
  return .ofProgram w main program

/-- The procedure that is run unless settings say otherwise. -/
def defaultProcedure : String := "go"

/-- The printed lines among notices. -/
def printedLines (notices : Array Notice) : List String :=
  notices.toList.filterMap fun
    | .output text => some text
    | .changed .. => none

/-- How a run ended, with the job and the engine after it. -/
structure RunReport where
  outcome : Outcome
  job : Job
  engine : Engine

/-- Run a model. A fault is one that arose before there was a job. -/
def runModel (model : Model) (settings : RunSettings) (forgiving : Bool) :
    Except Fault RunReport := do
  let e ← assembleModel model settings forgiving
  let steps := settings.maxSteps.getD Limits.default.steps
  let e := { e with limits := { e.limits with steps := steps } }
  let agents := (settings.audience.getD .observer).agents e.world
  let job ← e.job (settings.procedure.getD defaultProcedure) agents
  let (outcome, job, e) := e.run job
  return ⟨outcome, job, e⟩

/-- Lines, each ended. -/
def unlines (lines : List String) : String :=
  String.join (lines.map fun line => line ++ "\n")

/-- The summary of a finished run. -/
def completion (steps outputs changes : Nat) (snapshot : Json) : String :=
  s!"\n=== RUN COMPLETE ({steps} steps, {outputs} outputs, {changes} changes) ===\n\n"
    ++ snapshot.pretty ++ "\n"

/-- The headline of a failed run. -/
def failure (steps : Nat) : String :=
  s!"\n=== RUN FAILED after {steps} steps ===\n\n"

/-- What a run prints. -/
def RunReport.console (r : RunReport) (quiet : Bool) : Console :=
  let notices := r.engine.simulation.notices
  let lines := printedLines notices
  let printed := unlines lines
  match r.outcome with
  | .defect f => .ofFault printed f
  | .failed f =>
    let headline := if quiet then "" else failure r.job.steps
    ⟨exitCode f, printed, headline ++ faultText f⟩
  | .continuing => ⟨exitRuntime, printed, ""⟩
  | .exhausted => ⟨exitRuntime, printed, ""⟩
  | .finished =>
    let changes := notices.size - lines.length
    let snapshot := r.engine.world.snapshot
    let summary := if quiet then "" else completion r.job.steps lines.length changes snapshot
    ⟨exitSuccess, printed ++ summary, ""⟩

/-- Number of instructions of a program. -/
def instructionCount (p : Program) : Nat :=
  p.procedures.foldl (fun n q => n + q.code.size) 0

/-- The line that says that a model is valid. -/
def verdict (path : String) (p : Program) : String :=
  let procedures := p.procedures.size
  let instructions := instructionCount p
  s!"{path}: ok ({procedures} procedures, {instructions} instructions)\n"

/-- Carry out an action on a model. -/
def Invocation.onModel (inv : Invocation) (model : Model) : Console :=
  match inv.action with
  | .run =>
    match runModel model (model.run.overriddenBy inv.settings) inv.forgiving with
    | .error f => .ofFault "" f
    | .ok report => report.console inv.quiet
  | .dump =>
    match assembleModel model model.run inv.forgiving with
    | .error f => .ofFault "" f
    | .ok e => ⟨exitSuccess, e.program.listing e.world.variableName, ""⟩
  | .check =>
    match assembleModel model model.run inv.forgiving with
    | .error f => .ofFault "" f
    | .ok e => ⟨exitSuccess, if inv.quiet then "" else verdict inv.path e.program, ""⟩

/-- Carry out an action, given the text of the model file or why it could not be read. -/
def Invocation.perform (inv : Invocation) (file : Except Fault String) : Console :=
  match file.bind (loadModel inv.path) with
  | .error f => .ofFault "" f
  | .ok model => inv.onModel model

/-- What is printed for a command line that cannot be read. -/
def usage : String :=
  "usage: [-q] [-v] (run | dump | check) MODEL [options]\n"

/-- What a command line that cannot be read leaves behind. -/
def Console.ofUsage : Console := ⟨exitInput, "", usage⟩

/-- A file that does not exist. -/
def missingFile : Fault :=
  .ofCause (.file .missing "No such file or directory (os error 2)")

end Swarm.Cli
