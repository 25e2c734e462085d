import Swarm.Document.Source
import Swarm.Document.World
import Swarm.Json.Parser

/-!
# Documents: models

A model document holds the description of a world, the procedures of a program and, optionally,
how the model is to be run.

## Main definitions

* `Audience`: which agents run a procedure
* `RunSettings`: how a model is to be run
* `Model`, `Model.ofText?`
-/

namespace Swarm

/-- The agents that run a procedure. -/
inductive Audience where
  | observer
  | turtles
  | patches
  | links
deriving Repr, DecidableEq

namespace Audience

/-- The audience with a name. -/
def ofName? : String → Option Audience
  | "observer" => some .observer
  | "turtles" => some .turtles
  | "patches" => some .patches
  | "links" => some .links
  | _ => none

/-- The agents of an audience that live now. -/
def agents (w : World) : Audience → AgentSet
  | .observer => .ofAgent .observer
  | .turtles => w.agents .turtle
  | .patches => w.agents .patch
  | .links => w.agents .link

end Audience

/-- How a model is to be run. -/
structure RunSettings where
  seed : Option Nat
  procedure : Option String
  audience : Option Audience
  maxSteps : Option Nat
deriving Repr, DecidableEq

namespace RunSettings

/-- Settings that say nothing. -/
def none : RunSettings := ⟨.none, .none, .none, .none⟩

/-- Settings overridden by others that say something. -/
def overriddenBy (s t : RunSettings) : RunSettings where
  seed := t.seed <|> s.seed
  procedure := t.procedure <|> s.procedure
  audience := t.audience <|> s.audience
  maxSteps := t.maxSteps <|> s.maxSteps

/-- Read settings. A null is the same as a missing field. -/
def ofJson? (json : Json) : Option RunSettings := do
  let entries ← json.fields? ["seed", "procedure", "agents", "max_steps"]
  let seed ← entries.getD? "seed" (Json.nullable? Json.nat?) .none
  let procedure ← entries.getD? "procedure" (Json.nullable? Json.string?) .none
  let audience ← entries.getD? "agents" (Json.nullable? (Json.nameOf? Json.isNull Audience.ofName?)) .none
  let maxSteps ← entries.getD? "max_steps" (Json.nullable? Json.nat?) .none
  return ⟨seed, procedure, audience, maxSteps⟩

end RunSettings

/-- A model document. -/
structure Model where
  world : WorldSpec
  program : ProgramDef
  run : RunSettings

namespace Model

/-- The keys whose values may have parts that are passed over. All else in a model document has to
be readable, whether it is used or not. -/
def lenientKeys : List String := ["world", "run"]

/-- Read a model. -/
def ofJson? : Json → Option Model
  | .object entries => do
    guard (entries.all fun e => lenientKeys.contains e.1 || e.2.isReadable)
    let world ← Entries.getD? entries "world" WorldSpec.ofJson? .default
    let run ← Entries.getD? entries "run" RunSettings.ofJson? .none
    let program ← ProgramDef.ofEntries? entries
    return ⟨world, program, run⟩
  | _ => none

/-- Read a model from a text. -/
def ofText? (text : String) : Option Model :=
  (Json.parse? text).bind ofJson?

end Model

end Swarm
