import Swarm.World.Basic

/-!
# Arguments

The readings of an argument that primitives share. A value of the wrong type is a runtime fault
that names the primitive in upper case.

## Main definitions

* `Argument.number`, `Argument.boolean`, `Argument.agentset`, `Argument.agents`, `Argument.count`
* `Argument.target`: the agent whose variables a primitive addresses
-/

namespace Swarm.Argument

/-- A value of the wrong type. -/
def mismatch {α : Type} (primitive expected : String) (v : Value) : Except Fault α :=
  .error (.ofCause (.typeMismatch (Text.toUpper primitive) expected v))

/-- A number. -/
def number (primitive : String) (v : Value) : Except Fault Float :=
  match v.number? with
  | some x => .ok x
  | none => mismatch primitive "a number" v

/-- A truth value. -/
def boolean (primitive : String) (v : Value) : Except Fault Bool :=
  match v.boolean? with
  | some b => .ok b
  | none => mismatch primitive "TRUE or FALSE" v

/-- An agent set. -/
def agentset (primitive : String) (v : Value) : Except Fault AgentSet :=
  match v.agentset? with
  | some s => .ok s
  | none => mismatch primitive "an agentset" v

/-- An agent set, or an agent as the set of it. -/
def agents (primitive : String) (v : Value) : Except Fault AgentSet :=
  match v with
  | .agentset s => .ok s
  | .agent a => .ok (.ofAgent a)
  | v => mismatch primitive "an agent or agentset" v

/-- A count: a number without its fraction, and zero if it is negative or undefined. -/
def count (primitive : String) (v : Value) : Except Fault Nat := do
  let x ← number primitive v
  return if x > 0 then Number.toNatSaturating Number.wordMax x else 0

/-- The agent whose variables of a kind the running agent addresses. The observer's are within
reach of all, and a turtle reaches the patch it stands on. -/
def target (w : World) (running : AgentRef) (kind : AgentKind) (primitive : String) :
    Except Fault AgentRef :=
  if kind = .observer then .ok .observer
  else if kind = running.kind then .ok running
  else if kind = .patch ∧ running.kind = .turtle then w.patchHere running
  else .error (.ofCause (.wrongAgent primitive running.kind))

end Swarm.Argument
