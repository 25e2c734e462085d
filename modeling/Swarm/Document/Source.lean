import Swarm.Document.Value
import Swarm.Source.Tree

/-!
# Documents: source programs

How programs are written in documents, and how they are read back. Expressions and statements are
objects that hold the primitive's own fields next to `args`, `blocks` and `position`; arguments
and blocks are left out when there are none.

## Main definitions

* `Command.tags`, `Reporter.tags`: the names of primitives in documents
* `ProgramDef.toJson`, `ProgramDef.ofJson?`, and the same for the parts of a program

## Design notes

Reading recurses on the tree itself. All entries of an object are read as arguments and as blocks
before the ones named so are picked, which keeps the recursion structural; each node is read once
in each role.
-/

namespace Swarm

/-- A position as a record. -/
def Position.toJson (p : Position) : Json :=
  .object [("line", .natural p.line), ("column", .natural p.column)]

/-- Read a position. -/
def Position.ofJson? (json : Json) : Option Position := do
  let entries ← json.fields? ["line", "column"]
  let line ← (← entries.get? "line").nat32?
  let column ← (← entries.get? "column").nat32?
  return ⟨line, column⟩

namespace Command

/-- The tags of commands, in the order of their numbers. -/
def tags : List String :=
  ["set_observer_variable", "set_turtle_variable", "set_patch_variable", "set_link_variable",
    "let", "set_local", "ask", "with_local_randomness", "create_turtles", "carefully", "if",
    "if_else", "repeat", "while", "call", "stop", "die", "print", "layout_spring", "goto",
    "repeat_check", "done", "return"]

/-- The tag of a command. -/
def tag : Command → String
  | setVariable .observer _ => "set_observer_variable"
  | setVariable .turtle _ => "set_turtle_variable"
  | setVariable .patch _ => "set_patch_variable"
  | setVariable .link _ => "set_link_variable"
  | letLocal _ => "let"
  | setLocal _ => "set_local"
  | ask => "ask"
  | withLocalRandomness => "with_local_randomness"
  | createTurtles => "create_turtles"
  | carefully => "carefully"
  | ifThen => "if"
  | ifElse => "if_else"
  | repeatTimes _ => "repeat"
  | whileTrue => "while"
  | call .. => "call"
  | stop => "stop"
  | die => "die"
  | print => "print"
  | layoutSpring => "layout_spring"
  | goto => "goto"
  | repeatCheck _ => "repeat_check"
  | done => "done"
  | ret => "return"

/-- The fields of a command besides its tag. The resolved index of a call is not written. -/
def params : Command → Entries Json
  | setVariable _ slot => [("vn", .natural slot)]
  | letLocal slot => [("slot", .natural slot)]
  | setLocal slot => [("slot", .natural slot)]
  | repeatTimes slot => [("slot", .natural slot)]
  | repeatCheck slot => [("slot", .natural slot)]
  | call procedure _ => [("procedure", .string procedure)]
  | _ => []

/-- The fields of a command. -/
def toEntries (c : Command) : Entries Json :=
  ("prim", .string c.tag) :: c.params

/-- A command as a record. -/
def toJson (c : Command) : Json :=
  .object c.toEntries

/-- Read a command from its tag and a reading of its fields by their keys. -/
def ofTag? (tag : String) (fields? : List String → Option (Entries Json)) : Option Command :=
  let setter (kind : AgentKind) : Option Command := do
    return .setVariable kind (← (← (← fields? ["vn"]).get? "vn").nat?)
  let slot (make : Nat → Command) : Option Command := do
    return make (← (← (← fields? ["slot"]).get? "slot").nat?)
  let bare (c : Command) : Option Command := (fields? []).map fun _ => c
  match tag with
  | "set_observer_variable" => setter .observer
  | "set_turtle_variable" => setter .turtle
  | "set_patch_variable" => setter .patch
  | "set_link_variable" => setter .link
  | "let" => slot .letLocal
  | "set_local" => slot .setLocal
  | "ask" => bare .ask
  | "with_local_randomness" => bare .withLocalRandomness
  | "create_turtles" => bare .createTurtles
  | "carefully" => bare .carefully
  | "if" => bare .ifThen
  | "if_else" => bare .ifElse
  | "repeat" => slot .repeatTimes
  | "while" => bare .whileTrue
  | "call" => do
    return .call (← (← (← fields? ["procedure"]).get? "procedure").string?) 0
  | "stop" => bare .stop
  | "die" => bare .die
  | "print" => bare .print
  | "layout_spring" => bare .layoutSpring
  | "goto" => bare .goto
  | "repeat_check" => slot .repeatCheck
  | "done" => bare .done
  | "return" => bare .ret
  | _ => none

/-- Read a command that stands on its own. -/
def ofJson? (json : Json) : Option Command := do
  let t ← json.tagged? "prim"
  match t with
  | .object tag _ => ofTag? (← tag.string?) t.fields?
  | .array tag _ => ofTag? (← tag.string?) t.fields?

end Command

namespace Reporter

/-- The tags of reporters, in the order of their numbers. -/
def tags : List String :=
  ["constant", "observer_variable", "turtle_variable", "patch_variable", "link_variable", "local",
    "self", "turtles", "patches", "links", "count", "random", "random_float", "one_of", "plus",
    "minus", "mult", "div", "lt", "gt", "equal", "not", "and", "or", "error_message",
    "unknown_identifier"]

/-- The tag of a reporter. -/
def tag : Reporter → String
  | constant _ => "constant"
  | getVariable .observer _ => "observer_variable"
  | getVariable .turtle _ => "turtle_variable"
  | getVariable .patch _ => "patch_variable"
  | getVariable .link _ => "link_variable"
  | getLocal _ => "local"
  | self => "self"
  | turtles => "turtles"
  | patches => "patches"
  | links => "links"
  | count => "count"
  | random => "random"
  | randomFloat => "random_float"
  | oneOf => "one_of"
  | plus => "plus"
  | minus => "minus"
  | mult => "mult"
  | div => "div"
  | lt => "lt"
  | gt => "gt"
  | equal => "equal"
  | not => "not"
  | and => "and"
  | or => "or"
  | errorMessage => "error_message"
  | unknown _ => "unknown_identifier"

/-- The fields of a reporter besides its tag. -/
def params : Reporter → Entries Json
  | constant value => [("value", value.toJson)]
  | getVariable _ slot => [("vn", .natural slot)]
  | getLocal slot => [("slot", .natural slot)]
  | unknown name => [("name", .string name)]
  | _ => []

/-- The fields of a reporter. -/
def toEntries (r : Reporter) : Entries Json :=
  ("prim", .string r.tag) :: r.params

/-- A reporter as a record. -/
def toJson (r : Reporter) : Json :=
  .object r.toEntries

/-- Read a reporter from its tag and a reading of its fields by their keys. -/
def ofTag? (tag : String) (fields? : List String → Option (Entries Json)) : Option Reporter :=
  let getter (kind : AgentKind) : Option Reporter := do
    return .getVariable kind (← (← (← fields? ["vn"]).get? "vn").nat?)
  let bare (r : Reporter) : Option Reporter := (fields? []).map fun _ => r
  match tag with
  | "constant" => do
    return .constant (← Value.ofJson? (← (← fields? ["value"]).get? "value"))
  | "observer_variable" => getter .observer
  | "turtle_variable" => getter .turtle
  | "patch_variable" => getter .patch
  | "link_variable" => getter .link
  | "local" => do
    return .getLocal (← (← (← fields? ["slot"]).get? "slot").nat?)
  | "self" => bare .self
  | "turtles" => bare .turtles
  | "patches" => bare .patches
  | "links" => bare .links
  | "count" => bare .count
  | "random" => bare .random
  | "random_float" => bare .randomFloat
  | "one_of" => bare .oneOf
  | "plus" => bare .plus
  | "minus" => bare .minus
  | "mult" => bare .mult
  | "div" => bare .div
  | "lt" => bare .lt
  | "gt" => bare .gt
  | "equal" => bare .equal
  | "not" => bare .not
  | "and" => bare .and
  | "or" => bare .or
  | "error_message" => bare .errorMessage
  | "unknown_identifier" => do
    return .unknown (← (← (← fields? ["name"]).get? "name").string?)
  | _ => none

/-- Read a reporter that stands on its own. -/
def ofJson? (json : Json) : Option Reporter := do
  let t ← json.tagged? "prim"
  match t with
  | .object tag _ => ofTag? (← tag.string?) t.fields?
  | .array tag _ => ofTag? (← tag.string?) t.fields?

end Reporter

/-- The primitive tag of an expression or statement: a name, or its number in the list of
tags. -/
def primitiveTag? (tags : List String) (entries : Entries Json) : Option String := do
  match ← entries.get? "prim" with
  | .string s => some s
  | json => tags[← json.nat?]?

mutual

/-- An expression as a record. -/
def Expr.toJson : Expr → Json
  | ⟨reporter, args, position⟩ =>
    .object (reporter.toEntries
      ++ (if args.isEmpty then [] else [("args", .array (Expr.listToJson args))])
      ++ [("position", position.toJson)])

/-- Expressions as records. -/
def Expr.listToJson : List Expr → List Json
  | [] => []
  | e :: rest => e.toJson :: Expr.listToJson rest

end

mutual

/-- Read an expression. -/
def Expr.ofJson? : Json → Option Expr
  | .object entries => do
    let args := Expr.listsOfEntries entries
    let tag ← primitiveTag? Reporter.tags entries
    let reporter ← Reporter.ofTag? tag fun _ => some entries
    let args ← args.getD? "args" id []
    let position ← Entries.getD? entries "position" Position.ofJson? .zero
    return ⟨reporter, args, position⟩
  | _ => none

/-- Read every entry as a list of expressions. -/
def Expr.listsOfEntries : Entries Json → Entries (Option (List Expr))
  | [] => []
  | (key, json) :: rest => (key, Expr.listOfJson? json) :: Expr.listsOfEntries rest

/-- Read an array of expressions. -/
def Expr.listOfJson? : Json → Option (List Expr)
  | .array items => Expr.itemsOfJson? items
  | _ => none

/-- Read expressions. -/
def Expr.itemsOfJson? : List Json → Option (List Expr)
  | [] => some []
  | json :: rest =>
    match Expr.ofJson? json, Expr.itemsOfJson? rest with
    | some e, some rest => some (e :: rest)
    | _, _ => none

end

mutual

/-- A statement as a record. -/
def Statement.toJson : Statement → Json
  | ⟨command, args, blocks, position⟩ =>
    .object (command.toEntries
      ++ (if args.isEmpty then [] else [("args", .array (args.map Expr.toJson))])
      ++ (if blocks.isEmpty then [] else [("blocks", .array (Statement.blocksToJson blocks))])
      ++ [("position", position.toJson)])

/-- Statements as records. -/
def Statement.listToJson : List Statement → List Json
  | [] => []
  | s :: rest => s.toJson :: Statement.listToJson rest

/-- Blocks as arrays of records. -/
def Statement.blocksToJson : List (List Statement) → List Json
  | [] => []
  | b :: rest => .array (Statement.listToJson b) :: Statement.blocksToJson rest

end

mutual

/-- Read a statement. -/
def Statement.ofJson? : Json → Option Statement
  | .object entries => do
    let blocks := Statement.blocksOfEntries entries
    let tag ← primitiveTag? Command.tags entries
    let command ← Command.ofTag? tag fun _ => some entries
    let args ← Entries.getD? entries "args" Expr.listOfJson? []
    let blocks ← blocks.getD? "blocks" id []
    let position ← Entries.getD? entries "position" Position.ofJson? .zero
    return ⟨command, args, blocks, position⟩
  | _ => none

/-- Read every entry as a list of blocks. -/
def Statement.blocksOfEntries : Entries Json → Entries (Option (List (List Statement)))
  | [] => []
  | (key, json) :: rest => (key, Statement.blocksOfJson? json) :: Statement.blocksOfEntries rest

/-- Read an array of blocks. -/
def Statement.blocksOfJson? : Json → Option (List (List Statement))
  | .array items => Statement.blockItemsOfJson? items
  | _ => none

/-- Read blocks. -/
def Statement.blockItemsOfJson? : List Json → Option (List (List Statement))
  | [] => some []
  | json :: rest =>
    match Statement.blockOfJson? json, Statement.blockItemsOfJson? rest with
    | some b, some rest => some (b :: rest)
    | _, _ => none

/-- Read a block. -/
def Statement.blockOfJson? : Json → Option (List Statement)
  | .array items => Statement.itemsOfJson? items
  | _ => none

/-- Read statements. -/
def Statement.itemsOfJson? : List Json → Option (List Statement)
  | [] => some []
  | json :: rest =>
    match Statement.ofJson? json, Statement.itemsOfJson? rest with
    | some s, some rest => some (s :: rest)
    | _, _ => none

end

/-- A procedure as a record. -/
def ProcedureDef.toJson (p : ProcedureDef) : Json :=
  .object [("name", .string p.name), ("inputs", .natural p.inputs), ("locals", .natural p.locals),
    ("body", .array (p.body.map Statement.toJson))]

/-- Read a procedure. -/
def ProcedureDef.ofJson? (json : Json) : Option ProcedureDef := do
  let entries ← json.fields? ["name", "inputs", "locals", "body"]
  let name ← (← entries.get? "name").string?
  let inputs ← entries.getD? "inputs" Json.nat? 0
  let locals ← entries.getD? "locals" Json.nat? 0
  let body ← (← entries.get? "body").listOf? Statement.ofJson?
  return ⟨name, inputs, locals, body⟩

/-- A program as a record. -/
def ProgramDef.toJson (p : ProgramDef) : Json :=
  .object [("procedures", .array (p.procedures.map ProcedureDef.toJson))]

/-- Read a program from its fields. -/
def ProgramDef.ofEntries? (entries : Entries Json) : Option ProgramDef := do
  return ⟨← (← entries.get? "procedures").listOf? ProcedureDef.ofJson?⟩

/-- Read a program. -/
def ProgramDef.ofJson? (json : Json) : Option ProgramDef := do
  ProgramDef.ofEntries? (← json.fields? ["procedures"])

end Swarm
