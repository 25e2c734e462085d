import Swarm.Document.Value
import Swarm.World.Spec

/-!
# Documents: worlds

How domains, variables and world descriptions are written and read, and the snapshot of a world.

## Main definitions

* `WorldSpec.toJson`, `WorldSpec.ofJson?`, and the same for domains and variables
* `World.snapshot`: every live agent with its variables by name
-/

namespace Swarm

namespace Domain

/-- A domain as a record. -/
def toJson : Domain → Json
  | any => .object [("type", .string "any")]
  | number => .object [("type", .string "number")]
  | range low high =>
    .object [("type", .string "range"), ("min", numberToJson low), ("max", numberToJson high)]
  | boolean => .object [("type", .string "boolean")]
  | color => .object [("type", .string "color")]
  | agent kind => .object [("type", .string "agent"), ("kind", kind.toJson)]

/-- Read a domain. -/
def ofJson? (json : Json) : Option Domain := do
  let t ← json.tagged? "type"
  let tag ← match t with
    | .object tag _ => tag.string?
    | .array tag _ => tag.string?
  let bare (d : Domain) : Option Domain := (t.fields? []).map fun _ => d
  match tag with
  | "any" => bare .any
  | "number" => bare .number
  | "range" =>
    let entries ← t.fields? ["min", "max"]
    return .range (← (← entries.get? "min").float?) (← (← entries.get? "max").float?)
  | "boolean" => bare .boolean
  | "color" => bare .color
  | "agent" =>
    let entries ← t.fields? ["kind"]
    return .agent (← Json.nameOf? Json.isVoid AgentKind.ofName? (← entries.get? "kind"))
  | _ => none

end Domain

namespace Variable

/-- A variable as a record. -/
def toJson (v : Variable) : Json :=
  .object [("name", .string v.name), ("domain", v.domain.toJson), ("initial", v.initial.toJson)]

/-- Read a variable. It takes any value, and starts as nobody, unless it says otherwise. -/
def ofJson? (json : Json) : Option Variable := do
  let entries ← json.fields? ["name", "domain", "initial"]
  let name ← (← entries.get? "name").string?
  let domain ← entries.getD? "domain" (Json.entire? Domain.ofJson?) .any
  let initial ← entries.getD? "initial" (Json.entire? Value.ofJson?) .nobody
  return ⟨name, domain, initial⟩

end Variable

namespace WorldSpec

/-- The keys of a description in order. -/
def keys : List String :=
  ["globals", "turtles_own", "patches_own", "links_own", "width", "height", "turtles", "links",
    "seed"]

/-- A description as a record. -/
def toJson (spec : WorldSpec) : Json :=
  let declared (vs : List Variable) : Json := .array (vs.map Variable.toJson)
  .object [("globals", declared spec.globals), ("turtles_own", declared spec.turtlesOwn),
    ("patches_own", declared spec.patchesOwn), ("links_own", declared spec.linksOwn),
    ("width", .natural spec.width), ("height", .natural spec.height),
    ("turtles", .natural spec.turtles),
    ("links", .array (spec.links.map fun (a, b) => .array [.natural a, .natural b])),
    ("seed", .natural spec.seed)]

/-- Read a description. -/
def ofJson? (json : Json) : Option WorldSpec := do
  let entries ← json.fields? keys
  let declared (key : String) : Option (List Variable) :=
    entries.getD? key (Json.listOf? Variable.ofJson?) []
  let globals ← declared "globals"
  let turtlesOwn ← declared "turtles_own"
  let patchesOwn ← declared "patches_own"
  let linksOwn ← declared "links_own"
  let width ← entries.getD? "width" Json.nat? defaultExtent
  let height ← entries.getD? "height" Json.nat? defaultExtent
  let turtles ← entries.getD? "turtles" Json.nat? 0
  let links ← entries.getD? "links" (Json.listOf? (Json.pairOf? Json.nat? Json.nat?)) []
  let seed ← entries.getD? "seed" Json.nat? 0
  return ⟨globals, turtlesOwn, patchesOwn, linksOwn, width, height, turtles, links, seed⟩

end WorldSpec

namespace World

/-- An agent's variables by name. -/
def row (table : Array Variable) (r : Record) : Json :=
  .object ((table.toList.zip r.values.toList).map fun (v, value) => (v.name, value.toJson))

/-- The rows of the live agents of a kind, by number. -/
def rows (w : World) (kind : AgentKind) : List Json :=
  ((w.records.get kind).toList.filter Record.alive).map (row (w.table kind))

/-- Every live agent with its variables by name, in key order. -/
def snapshot (w : World) : Json :=
  Json.sorted (.object [("globals", ((w.rows .observer).head?).getD .null),
    (AgentKind.plural .turtle, .array (w.rows .turtle)),
    (AgentKind.plural .patch, .array (w.rows .patch)),
    (AgentKind.plural .link, .array (w.rows .link))])

end World

end Swarm
