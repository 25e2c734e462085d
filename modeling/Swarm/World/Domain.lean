import Swarm.Fault.Basic

/-!
# Variable domains

The constraint that a variable places on its values. A domain either gives the value to store,
which it may change, or says how the constraint is violated.

## Main definitions

* `Domain`
* `Domain.stored`: the value to store
* `Variable`: a declared variable
-/

namespace Swarm

/-- A constraint on the values of a variable. -/
inductive Domain where
  | any
  | number
  /-- Finite numbers from `low` to `high`. -/
  | range (low high : Float)
  | boolean
  /-- Numbers, wrapped into `[0, 140)`. -/
  | color
  /-- Agents of a kind, or nobody. -/
  | agent (kind : AgentKind)
deriving Inhabited

/-- Number of colors. -/
def colorCount : Float := 140

/-- Wrap a color into `[0, 140)`. -/
def wrapColor (c : Float) : Float :=
  let wrapped := Number.remainder c colorCount
  if wrapped < 0 then wrapped + colorCount else wrapped

namespace Domain

/-- A violation of the constraint on the variable `name`. -/
def violation (name detail : String) : Fault :=
  .ofCause (.domainViolation name detail)

/-- The value to store in the variable `name` when `v` is written to it. -/
def stored (d : Domain) (name : String) (v : Value) : Except Fault Value :=
  let expected (what : String) : Except Fault Value :=
    .error (violation name ("expected " ++ what ++ " but got " ++ v.typeName))
  match d, v with
  | .any, v => .ok v
  | .number, .number x => .ok (.number x)
  | .range low high, .number x =>
    if !Number.isFinite x then
      .error (violation name (Number.toText x ++ " is not a finite number"))
    else if x < low || x > high then
      .error (violation name (Value.numberText x ++ " is out of range ["
        ++ Number.toText low ++ ", " ++ Number.toText high ++ "]"))
    else .ok (.number x)
  | .boolean, .boolean b => .ok (.boolean b)
  | .color, .number x => .ok (.number (wrapColor x))
  | .agent _, .nobody => .ok .nobody
  | .agent kind, .agent a => if a.kind = kind then .ok (.agent a) else expected ("a " ++ kind.name)
  | .agent kind, _ => expected ("a " ++ kind.name)
  | .boolean, _ => expected "TRUE/FALSE"
  | .number, _ => expected "a number"
  | .range .., _ => expected "a number"
  | .color, _ => expected "a number"

end Domain

/-- A declared variable. -/
structure Variable where
  name : String
  domain : Domain
  initial : Value
deriving Inhabited

/-- A variable that starts at zero. -/
def Variable.ofDomain (name : String) (domain : Domain) : Variable :=
  ⟨name, domain, .zero⟩

/-- Change the initial value. -/
def Variable.withInitial (v : Variable) (initial : Value) : Variable :=
  { v with initial := initial }

end Swarm
