import Swarm.Fault.Cause

/-!
# Faults

A fault is a cause together with the trail it picked up on its way: the operation it passed
through last, details as key and value, and the fault that it stems from.

## Main definitions

* `Fault`, `Origin`
* `Fault.ofCause`: a fault without a trail of its own
* `Fault.atOperation`, `Fault.note`, `Fault.stemmingFrom`: additions to the trail
* `Fault.lookup`: the latest detail under a key
* `Fault.summary`: the text on one line
* `Fault.report`: the text over several lines, with the chain of origins
-/

namespace Swarm

mutual

/-- Something that went wrong, with its trail. -/
structure Fault where
  cause : Cause
  operation : String
  context : List (String × String)
  origin : Option Origin

/-- What a fault stems from: another fault, or a failure outside of the simulation. -/
inductive Origin where
  | fault (f : Fault)
  | outside (message : String)

end

namespace Fault

/-- The fault of a cause, with the operation and the details that the cause records. -/
def ofCause (cause : Cause) : Fault where
  cause := cause
  operation := cause.operation
  context := cause.details
  origin :=
    match cause with
    | .file _ message => some (.outside message)
    | _ => none

/-- A fault of a class in words. -/
def stated (kind : FaultKind) (message : String) : Fault :=
  ofCause (.stated kind message)

/-- The fault of a defect. -/
def ofDefect (d : Defect) : Fault :=
  ofCause (.defect d)

/-- The class of a fault. -/
def kind (f : Fault) : FaultKind := f.cause.kind

/-- The wording of a fault. -/
def message (f : Fault) : String := f.cause.message

/-- Whether the fault is a defect. -/
def isFatal (f : Fault) : Bool := f.kind.isFatal

/-- Pass through an operation. The one passed through before is kept as a detail. -/
def atOperation (operation : String) (f : Fault) : Fault :=
  { f with
    operation := operation
    context := if f.operation.isEmpty then f.context else f.context ++ [("called", f.operation)] }

/-- Add a detail. -/
def note (key value : String) (f : Fault) : Fault :=
  { f with context := f.context ++ [(key, value)] }

/-- Record what the fault stems from. -/
def stemmingFrom (f origin : Fault) : Fault :=
  { f with origin := some (.fault origin) }

/-- The latest detail under a key. -/
def lookup (f : Fault) (key : String) : Option String :=
  (f.context.reverse.find? fun d => d.1 == key).map Prod.snd

/-- Class, status and operation. -/
def headline (f : Fault) : String :=
  f.kind.name ++ " (" ++ f.kind.status ++ ") at " ++ f.operation

/-- The text on one line. -/
def summary (f : Fault) : String :=
  let details := ", ".intercalate (f.context.map fun (key, value) => key ++ ": " ++ value)
  f.headline
    ++ (if f.context.isEmpty then "" else ", context \x7b " ++ details ++ " \x7d")
    ++ (if f.message.isEmpty then "" else " => " ++ f.message)

end Fault

/-- The text of an origin on one line. -/
def Origin.summary : Origin → String
  | .fault f => f.summary
  | .outside message => message

mutual

/-- The texts of an origin and of all it stems from, nearest first. -/
def Origin.chain : Origin → List String
  | .fault f => f.summary :: Fault.originChain f
  | .outside message => [message]

/-- The texts of all that a fault stems from, nearest first. -/
def Fault.originChain : Fault → List String
  | ⟨_, _, _, none⟩ => []
  | ⟨_, _, _, some origin⟩ => origin.chain

end

namespace Fault

/-- A text with `first` before its first line and `others` before the other ones. -/
def indented (first others : String) (s : String) : String :=
  match s.splitOn "\n" with
  | [] => ""
  | line :: rest => "\n".intercalate ((first ++ line) :: rest.map fun l => others ++ l)

/-- A number flushed right in five places. -/
def flushRight (n : Nat) : String :=
  let digits := toString n
  String.ofList (List.replicate (5 - digits.length) ' ') ++ digits

/-- The further causes of a chain, numbered if there are several. -/
def furtherCauses (causes : List String) : String :=
  match causes with
  | [] => ""
  | [one] => "\n\nCaused by:\n" ++ indented "    " "    " one
  | several =>
    "\n\nCaused by:" ++ String.join (several.zipIdx.map fun (text, i) =>
      "\n" ++ indented (flushRight i ++ ": ") "       " text)

/-- The text over several lines, with the chain of origins. -/
def report (f : Fault) : String :=
  f.headline ++ "\n"
    ++ (if f.message.isEmpty then "" else "\n    Message: " ++ f.message ++ "\n")
    ++ (if f.context.isEmpty then ""
        else "\n    Context:\n"
          ++ String.join (f.context.map fun (key, value) => "        " ++ key ++ ": " ++ value ++ "\n"))
    ++ (match f.originChain with
        | [] => ""
        | nearest :: further => "\n    Source: " ++ nearest ++ furtherCauses further ++ "\n")

end Fault

end Swarm
