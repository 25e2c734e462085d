import Swarm.Agent
import Swarm.Number.Text

/-!
# Values

What reporters produce and agents store.

## Main definitions

* `Value`
* `Value.beq`: equality as programs see it; a number that is undefined differs from itself
* `Value.text`: the text printed for a value
* `Value.typeName`: the type named in messages
-/

namespace Swarm

/-- A value of the modeling language. -/
inductive Value where
  | nobody
  | boolean (b : Bool)
  | number (x : Float)
  | string (s : String)
  | list (items : List Value)
  | agent (a : AgentRef)
  | agentset (s : AgentSet)
deriving Inhabited

namespace Value

mutual

/-- Equality of values: by structure, with numbers compared as numbers. -/
def beq : Value → Value → Bool
  | .nobody, .nobody => true
  | .boolean a, .boolean b => a == b
  | .number x, .number y => x == y
  | .string s, .string t => s == t
  | .list xs, .list ys => beqList xs ys
  | .agent a, .agent b => a == b
  | .agentset s, .agentset t => s == t
  | _, _ => false

/-- Equality of lists of values. -/
def beqList : List Value → List Value → Bool
  | [], [] => true
  | x :: xs, y :: ys => beq x y && beqList xs ys
  | _, _ => false

end

instance : BEq Value := ⟨beq⟩

/-- Zero, the value of a fresh local. -/
def zero : Value := .number 0

/-- The number, if the value is one. -/
def number? : Value → Option Float
  | .number x => some x
  | _ => none

/-- The truth value, if the value is one. -/
def boolean? : Value → Option Bool
  | .boolean b => some b
  | _ => none

/-- The agent, if the value is one. -/
def agent? : Value → Option AgentRef
  | .agent a => some a
  | _ => none

/-- The agent set, if the value is one. -/
def agentset? : Value → Option AgentSet
  | .agentset s => some s
  | _ => none

/-- Whether the value is nobody. -/
def isNobody : Value → Bool
  | .nobody => true
  | _ => false

/-- The name of the value's type in messages. -/
def typeName : Value → String
  | .nobody => "nobody"
  | .boolean _ => "TRUE/FALSE"
  | .number _ => "number"
  | .string _ => "string"
  | .list _ => "list"
  | .agent _ => "agent"
  | .agentset _ => "agentset"

/-- Whole numbers below this magnitude are written as integers, without the sign of a negative
zero. -/
def integerBound : Float := 1e15

/-- The text of a number in model output. -/
def numberText (x : Float) : String :=
  if Number.isWhole x && x.abs < integerBound then toString ((Number.truncate? x).getD 0)
  else Number.toText x

mutual

/-- The text of a value in model output. -/
def text : Value → String
  | .nobody => "nobody"
  | .boolean b => if b then "true" else "false"
  | .number x => numberText x
  | .string s => s
  | .list items => "[" ++ " ".intercalate (itemTexts items) ++ "]"
  | .agent a => "(" ++ a.text ++ ")"
  | .agentset s => s.text

/-- The texts of list items. -/
def itemTexts : List Value → List String
  | [] => []
  | item :: rest => text item :: itemTexts rest

end

end Value

end Swarm
