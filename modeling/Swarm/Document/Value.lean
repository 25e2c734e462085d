import Swarm.Json.Decode
import Swarm.Value

/-!
# Documents: values

How values, agents and agent sets are written in documents, and how they are read back.

A value has no tag: nobody is a null, a list is an array, and an object is an agent if it has a
kind and a number, and otherwise an agent set if it has a kind and agents. An array whose items are
not all values may still be an agent or an agent set, with its fields in order.

## Main definitions

* `Value.toJson`, `Value.ofJson?`, and the same for the parts of a value
-/

namespace Swarm

/-- A kind as a name. -/
def AgentKind.toJson (kind : AgentKind) : Json :=
  .string kind.name

/-- Read a kind. -/
def AgentKind.ofJson? : Json → Option AgentKind :=
  Json.nameOf? Json.isNull AgentKind.ofName?

/-- An agent as a record. -/
def AgentRef.toJson (a : AgentRef) : Json :=
  .object [("kind", a.kind.toJson), ("id", .natural a.id)]

/-- Read an agent from its fields. -/
def AgentRef.ofEntries? (entries : Entries Json) : Option AgentRef := do
  let kind ← AgentKind.ofJson? (← entries.get? "kind")
  let id ← (← entries.get? "id").nat?
  return ⟨kind, id⟩

/-- Read an agent. -/
def AgentRef.ofJson? (json : Json) : Option AgentRef := do
  AgentRef.ofEntries? (← json.fields? ["kind", "id"])

/-- An agent set as a record. -/
def AgentSet.toJson (s : AgentSet) : Json :=
  .object [("kind", s.kind.toJson), ("agents", .array (s.agents.map AgentRef.toJson)),
    ("ordered", .bool s.ordered)]

/-- Read an agent set from its fields. A set is unordered unless it says otherwise. -/
def AgentSet.ofEntries? (entries : Entries Json) : Option AgentSet := do
  let kind ← AgentKind.ofJson? (← entries.get? "kind")
  let agents ← (← entries.get? "agents").listOf? AgentRef.ofJson?
  let ordered ← entries.getD? "ordered" Json.bool? false
  return ⟨kind, agents, ordered⟩

/-- Read an agent set. -/
def AgentSet.ofJson? (json : Json) : Option AgentSet := do
  AgentSet.ofEntries? (← json.fields? ["kind", "agents", "ordered"])

/-- A number; what is no number is written as a null. -/
def numberToJson (x : Float) : Json :=
  if Number.isFinite x then .real x else .null

namespace Value

/-- Read an agent or an agent set. -/
def agentsOfJson? (json : Json) : Option Value :=
  match AgentRef.ofJson? json with
  | some a => some (.agent a)
  | none =>
    match AgentSet.ofJson? json with
    | some s => some (.agentset s)
    | none => none

mutual

/-- A value as a document. -/
def toJson : Value → Json
  | .nobody => .null
  | .boolean b => .bool b
  | .number x => numberToJson x
  | .string s => .string s
  | .list items => .array (listToJson items)
  | .agent a => a.toJson
  | .agentset s => s.toJson

/-- Values as documents. -/
def listToJson : List Value → List Json
  | [] => []
  | item :: rest => toJson item :: listToJson rest

end

mutual

/-- Read a value. -/
def ofJson? : Json → Option Value
  | .null => some .nobody
  | .bool b => some (.boolean b)
  | .whole z => some (.number (Float.ofInt z))
  | .real x => some (.number x)
  | .string s => some (.string s)
  | .array items =>
    match listOfJson? items with
    | some values => some (.list values)
    | none => agentsOfJson? (.array items)
  | .object entries => agentsOfJson? (.object entries)
  | .unreadable => none

/-- Read values. -/
def listOfJson? : List Json → Option (List Value)
  | [] => some []
  | item :: rest =>
    match ofJson? item, listOfJson? rest with
    | some item, some rest => some (item :: rest)
    | _, _ => none

end

end Value

end Swarm
