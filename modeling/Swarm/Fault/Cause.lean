import Swarm.Text.Case
import Swarm.Value

/-!
# Causes of faults

Everything that can go wrong, one constructor for each cause, with its class and its wording in
one place each.

## Main definitions

* `FaultKind`: the classes by which faults are handled
* `Refusal`: why a program was refused
* `Defect`: broken promises of program code
* `Cause`: what went wrong
* `Cause.kind`, `Cause.message`, `Cause.operation`, `Cause.details`
-/

namespace Swarm

/-- The classes of faults. -/
inductive FaultKind where
  | unsupported
  | configInvalid
  | invalidArgument
  | agentValidation
  | agentDead
  | runtime
  | halted
  | stepLimitExceeded
  | callDepthExceeded
  | nestingTooDeep
  | assemblyFailed
  | procedureNotFound
  | internalConsistency
  | fileNotFound
  | permissionDenied
  | ioFailed
  | parseFailed
  | serializationFailed
deriving Repr, DecidableEq, Inhabited

namespace FaultKind

/-- The name of a class. -/
def name : FaultKind → String
  | unsupported => "Unsupported"
  | configInvalid => "ConfigInvalid"
  | invalidArgument => "InvalidArgument"
  | agentValidation => "AgentValidation"
  | agentDead => "AgentDead"
  | runtime => "Runtime"
  | halted => "Halted"
  | stepLimitExceeded => "StepLimitExceeded"
  | callDepthExceeded => "CallDepthExceeded"
  | nestingTooDeep => "NestingTooDeep"
  | assemblyFailed => "AssemblyFailed"
  | procedureNotFound => "ProcedureNotFound"
  | internalConsistency => "InternalConsistency"
  | fileNotFound => "FileNotFound"
  | permissionDenied => "PermissionDenied"
  | ioFailed => "IoFailed"
  | parseFailed => "ParseFailed"
  | serializationFailed => "SerializationFailed"

/-- All classes. -/
def all : List FaultKind :=
  [unsupported, configInvalid, invalidArgument, agentValidation, agentDead, runtime, halted,
    stepLimitExceeded, callDepthExceeded, nestingTooDeep, assemblyFailed, procedureNotFound,
    internalConsistency, fileNotFound, permissionDenied, ioFailed, parseFailed,
    serializationFailed]

/-- The class with a given name. -/
def ofName? (s : String) : Option FaultKind :=
  all.find? fun kind => kind.name == s

/-- A defect of the program code itself; nothing inside a run handles it. -/
def isFatal : FaultKind → Bool
  | internalConsistency => true
  | _ => false

/-- Raised by the world about an agent; it becomes a runtime fault where code is run. -/
def isAgentValidation : FaultKind → Bool
  | agentValidation => true
  | agentDead => true
  | _ => false

/-- How far faults of the class may travel. -/
def status (kind : FaultKind) : String :=
  if kind.isFatal then "fatal" else "recoverable"

end FaultKind

/-- Why a file could not be read. -/
inductive FileTrouble where
  | missing
  | forbidden
  | other
deriving Repr, DecidableEq

/-- Why a program was refused. -/
inductive Refusal where
  /-- A second procedure has the same name up to case. -/
  | definedTwice (name : String)
  /-- The inputs of a procedure do not fit its locals. -/
  | tooFewLocals (name : String) (inputs locals : Nat)
  /-- A command that only assembly may produce. -/
  | synthetic (token : String)
  /-- A command with the wrong number of blocks. -/
  | blockCount (token : String) (takes got : Nat)
  /-- A primitive or a procedure with the wrong number of arguments. -/
  | inputCount (called : String) (expects got : Nat)
  /-- A variable that the world's table does not have. -/
  | missingVariable (kind : AgentKind) (slot : Nat)
  /-- A local that the procedure does not have. -/
  | missingLocal (slot declared : Nat)
  /-- A name that stands for nothing. -/
  | undefinedName (name : String)
  /-- Any other reason, in words. -/
  | other (message : String)

/-- The wording of a refusal. -/
def Refusal.message : Refusal → String
  | definedTwice name => s!"procedure {name} is defined twice"
  | tooFewLocals name inputs locals =>
    s!"{name} declares {inputs} inputs but only {locals} local slots"
  | synthetic token => s!"{token} cannot appear in source"
  | blockCount token takes got => s!"{token} takes {takes} blocks but got {got}"
  | inputCount called expects got => s!"{called} expects {expects} inputs but got {got}"
  | missingVariable kind slot =>
    let kind := kind.name
    s!"{kind} variable slot {slot} does not exist"
  | missingLocal slot declared => s!"local slot {slot} exceeds the {declared} declared"
  | undefinedName name => s!"Nothing named {name} has been defined."
  | other message => message

/-- Broken promises of program code, which no run survives. -/
inductive Defect where
  | variableSlot (kind : AgentKind) (slot : Nat)
  | localSlot (slot : Nat)
  | returnedPastBase
  | argumentMissing (index : Nat)
  | argumentCount (token : String) (count : Nat)
  | takesArguments (token : String)
  | notUnaryReporter (token : String)
  | notBinaryReporter (token : String)
  | unresolved (name : String) (position : String)
  | noGenericEntry (token : String)
  | notUnaryCommand (token : String)
  | noProcedure (index : Nat)
  | outsideProcedure (ip : Nat) (procedure : String)
  | noReturn (procedure : String)
  | jumpOutside (procedure : String) (ip target : Nat)
  | missingCallee (procedure : String) (ip index : Nat)

/-- The wording of a defect. -/
def Defect.message : Defect → String
  | variableSlot kind slot =>
    let kind := kind.name
    s!"{kind} variable slot {slot} does not exist"
  | localSlot slot => s!"local slot {slot} does not exist"
  | returnedPastBase => "returned past the base frame"
  | argumentMissing index => s!"argument {index} is missing"
  | argumentCount token count => s!"{token} called with {count} arguments"
  | takesArguments token => s!"{token} takes arguments"
  | notUnaryReporter token => s!"{token} is not a unary reporter"
  | notBinaryReporter token => s!"{token} is not a binary reporter"
  | unresolved name _ => s!"unresolved identifier {name} reached at run time"
  | noGenericEntry token => s!"{token} has no generic entry point"
  | notUnaryCommand token => s!"{token} is not a unary command"
  | noProcedure index => s!"procedure index {index} does not exist"
  | outsideProcedure ip procedure => s!"instruction pointer {ip} is outside {procedure}"
  | noReturn procedure => s!"{procedure} does not end in return"
  | jumpOutside procedure ip target =>
    s!"instruction {ip} in {procedure} jumps to {target}, outside the procedure"
  | missingCallee procedure ip index =>
    s!"instruction {ip} in {procedure} calls missing procedure {index}"

/-- The details recorded with a defect. -/
def Defect.details : Defect → List (String × String)
  | variableSlot _ slot => [("slot", toString slot)]
  | unresolved _ position => [("position", position)]
  | jumpOutside procedure ip _ => [("procedure", procedure), ("ip", toString ip)]
  | _ => []

/-- What went wrong. -/
inductive Cause where
  /-- A value outside the domain of the variable it was written to. -/
  | domainViolation (variableName detail : String)
  /-- A primitive run by the wrong kind of agent. -/
  | wrongAgent (primitive : String) (kind : AgentKind)
  /-- A reference to an agent that never existed. -/
  | noSuchAgent (agent : AgentRef)
  /-- A link end that is no live turtle. -/
  | cannotLink (agent : AgentRef)
  /-- A write to the number of a turtle. -/
  | fixedNumber
  /-- A kill of the observer. -/
  | observerDeath
  /-- A kill of a patch. -/
  | patchDeath
  /-- Access to an agent that died. -/
  | agentDead (agent : String)
  /-- An argument of the wrong type. -/
  | typeMismatch (primitive expected : String) (got : Value)
  | divisionByZero
  /-- A draw from an empty list. -/
  | emptyList
  | halted
  | stepLimit (limit : Nat)
  | callDepth (limit : Nat)
  | nesting (limit : Nat)
  /-- A program that was refused. -/
  | refused (procedure : String) (refusal : Refusal)
  /-- As `refused`, at a position. -/
  | refusedAt (procedure : String) (refusal : Refusal) (position : String)
  | noSuchProcedure (name : String)
  /-- A procedure with inputs run as a job. -/
  | jobWithInputs (name : String) (inputs : Nat)
  /-- A world without patches. -/
  | emptyWorld
  /-- A world that cannot lay out springs. -/
  | noSprings
  | defect (defect : Defect)
  | file (trouble : FileTrouble) (message : String)
  /-- A document that is no model. -/
  | unreadable (message : String)
  /-- Any fault of a class, in words. -/
  | stated (kind : FaultKind) (message : String)

namespace Cause

/-- The class of a cause. -/
def kind : Cause → FaultKind
  | domainViolation .. => .agentValidation
  | wrongAgent .. => .agentValidation
  | noSuchAgent _ => .agentValidation
  | cannotLink _ => .agentValidation
  | fixedNumber => .agentValidation
  | observerDeath => .agentValidation
  | patchDeath => .agentValidation
  | agentDead _ => .agentDead
  | typeMismatch .. => .runtime
  | divisionByZero => .runtime
  | emptyList => .runtime
  | halted => .halted
  | stepLimit _ => .stepLimitExceeded
  | callDepth _ => .callDepthExceeded
  | nesting _ => .nestingTooDeep
  | refused .. => .assemblyFailed
  | refusedAt .. => .assemblyFailed
  | noSuchProcedure _ => .procedureNotFound
  | jobWithInputs .. => .invalidArgument
  | emptyWorld => .configInvalid
  | noSprings => .unsupported
  | defect _ => .internalConsistency
  | file .missing _ => .fileNotFound
  | file .forbidden _ => .permissionDenied
  | file .other _ => .ioFailed
  | unreadable _ => .parseFailed
  | stated kind _ => kind

/-- The wording of a cause. -/
def message : Cause → String
  | domainViolation variableName detail => Text.toUpper variableName ++ ": " ++ detail
  | wrongAgent primitive kind =>
    let kind := kind.name
    s!"{primitive} can't be run by the {kind}"
  | noSuchAgent agent => agent.text ++ " does not exist"
  | cannotLink agent => "cannot link " ++ agent.text
  | fixedNumber => "you can't change a turtle's ID number"
  | observerDeath => "the observer can't die"
  | patchDeath => "patches can't die"
  | agentDead agent => s!"that {agent} is dead"
  | typeMismatch primitive expected got =>
    if got.isNobody then s!"{primitive} expected input to be {expected} but got NOBODY instead."
    else
      let type := got.typeName
      let text := got.text
      s!"{primitive} expected input to be {expected} but got the {type} {text} instead."
  | divisionByZero => "Division by zero."
  | emptyList => "ONE-OF got an empty list as input."
  | halted => "the run was halted"
  | stepLimit limit => s!"job did not finish within {limit} steps"
  | callDepth limit => s!"call depth exceeded max {limit}"
  | nesting limit => s!"nested jobs exceeded max depth {limit}"
  | refused _ refusal => refusal.message
  | refusedAt _ refusal _ => refusal.message
  | noSuchProcedure name => s!"procedure '{name}' not found"
  | jobWithInputs name inputs => s!"{name} takes {inputs} inputs and cannot be run as a job"
  | emptyWorld => "world must have at least one patch"
  | noSprings => "layout-spring is not available in this world"
  | defect d => d.message
  | file _ message => message
  | unreadable message => message
  | stated _ message => message

/-- The operation that raises the cause, where one is recorded. -/
def operation : Cause → String
  | domainViolation .. => "world::set_variable"
  | refused .. => "assembler::assemble"
  | refusedAt .. => "assembler::assemble"
  | defect (.jumpOutside ..) => "assembler::verify"
  | file .. => "io"
  | _ => ""

/-- The details recorded with a cause. -/
def details : Cause → List (String × String)
  | domainViolation variableName _ => [("variable", variableName)]
  | agentDead agent => [("agent", agent)]
  | stepLimit limit => [("max_steps", toString limit)]
  | callDepth limit => [("max_depth", toString limit)]
  | nesting limit => [("max_nesting", toString limit)]
  | refused procedure _ => [("procedure", procedure)]
  | refusedAt procedure _ position => [("procedure", procedure), ("position", position)]
  | noSuchProcedure name => [("procedure", name)]
  | defect d => d.details
  | _ => []

end Cause

end Swarm
