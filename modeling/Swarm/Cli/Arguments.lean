import Swarm.Document.Model

/-!
# Command lines

A command line names an action and a model file. Options may stand before or after the file;
`--quiet` and `--verbose` may also stand before the action. A value that looks like an option has to
be joined to the option it belongs to.

## Main definitions

* `Action`, `Invocation`
* `Invocation.ofArguments?`: reading a command line
-/

namespace Swarm.Cli

/-- What is to be done with a model. -/
inductive Action where
  /-- Run one of its procedures. -/
  | run
  /-- Print its instructions. -/
  | dump
  /-- Say whether it is valid. -/
  | check
deriving Repr, DecidableEq

/-- The action with a name. -/
def Action.ofName? : String → Option Action
  | "run" => some .run
  | "dump" => some .dump
  | "check" => some .check
  | _ => none

/-- A command line. -/
structure Invocation where
  action : Action
  /-- The model file. -/
  path : String
  /-- Settings that override those of the model. -/
  settings : RunSettings
  /-- Whether names that stand for nothing are let through. -/
  forgiving : Bool
  /-- Whether only model output is printed. -/
  quiet : Bool
deriving Repr, DecidableEq

/-- A command line as far as it has been read. -/
structure Draft where
  action : Option Action
  path : Option String
  settings : RunSettings
  forgiving : Bool
  quiet : Bool

/-- Nothing read yet. -/
def Draft.start : Draft := ⟨none, none, .none, false, false⟩

/-- The options of the command line. -/
inductive Switch where
  | verbose
  | quiet
  | forgiving
  | seed
  | procedure
  | agents
  | maxSteps
deriving Repr, DecidableEq

/-- The option with a long name. -/
def Switch.ofName? : String → Option Switch
  | "verbose" => some .verbose
  | "quiet" => some .quiet
  | "forgiving" => some .forgiving
  | "seed" => some .seed
  | "procedure" => some .procedure
  | "agents" => some .agents
  | "max-steps" => some .maxSteps
  | _ => none

/-- The option with a letter. -/
def Switch.ofLetter? : Char → Option Switch
  | 'v' => some .verbose
  | 'q' => some .quiet
  | 'p' => some .procedure
  | 'a' => some .agents
  | 'm' => some .maxSteps
  | _ => none

/-- Whether an option takes a value. -/
def Switch.takesValue : Switch → Bool
  | .verbose => false
  | .quiet => false
  | .forgiving => false
  | _ => true

/-- Whether an option may stand where it does, given the action named before it. -/
def Switch.fits : Switch → Option Action → Bool
  | .verbose, _ => true
  | .quiet, _ => true
  | .forgiving, action => action.isSome
  | _, action => action == some .run

/-- A natural below `2 ^ 64`, with an optional plus sign. -/
def readNatural (s : String) : Option Nat :=
  let digits :=
    match s.toList with
    | '+' :: rest => rest
    | cs => cs
  if digits.isEmpty || !digits.all Char.isDigit then none
  else
    let n := digits.foldl (fun n c => n * 10 + (c.toNat - '0'.toNat)) 0
    if n ≤ Number.wordMax then some n else none

/-- Note an option without a value. -/
def Draft.flag (d : Draft) : Switch → Draft
  | .quiet => { d with quiet := true }
  | .forgiving => { d with forgiving := true }
  | _ => d

/-- Note an option with its value. -/
def Draft.option (d : Draft) (s : Switch) (value : String) : Option Draft :=
  match s with
  | .seed => (readNatural value).map fun n =>
    { d with settings := { d.settings with seed := some n } }
  | .procedure => some { d with settings := { d.settings with procedure := some value } }
  | .agents => (Audience.ofName? value).map fun a =>
    { d with settings := { d.settings with audience := some a } }
  | .maxSteps => (readNatural value).map fun n =>
    { d with settings := { d.settings with maxSteps := some n } }
  | _ => none

/-- Note a word that is no option: the action first, then the file. -/
def Draft.word (d : Draft) (w : String) : Option Draft :=
  match d.action, d.path with
  | none, _ => (Action.ofName? w).map fun a => { d with action := some a }
  | some _, none => some { d with path := some w }
  | some _, some _ => none

/-- What a word leaves open: nothing, or the value of an option. -/
inductive Pending where
  | nothing (d : Draft)
  | value (d : Draft) (s : Switch)

/-- Read the letters of a bundle of short options. The last one may take a value, which follows
it in the same word, with or without an equals sign, or is the next word. -/
def readLetters (d : Draft) : List Char → Option Pending
  | [] => some (.nothing d)
  | c :: rest =>
    match Switch.ofLetter? c with
    | none => none
    | some s =>
      if !s.fits d.action then none
      else if s.takesValue then
        match rest with
        | [] => some (.value d s)
        | '=' :: value => (d.option s (String.ofList value)).map .nothing
        | value => (d.option s (String.ofList value)).map .nothing
      else readLetters (d.flag s) rest

/-- Read a long option, whose value follows an equals sign or is the next word. -/
def readLong (d : Draft) (cs : List Char) : Option Pending :=
  match Text.splitAtFirst '=' cs with
  | some (name, value) =>
    match Switch.ofName? (String.ofList name) with
    | some s => if s.fits d.action then (d.option s (String.ofList value)).map .nothing else none
    | none => none
  | none =>
    match Switch.ofName? (String.ofList cs) with
    | some s =>
      if !s.fits d.action then none
      else some (if s.takesValue then .value d s else .nothing (d.flag s))
    | none => none

/-- Whether a word that stands alone is read as options. -/
def looksLikeOption (w : String) : Bool :=
  w.startsWith "-" && w != "-"

/-- Read one word. -/
def readWord (d : Draft) (w : String) : Option Pending :=
  if looksLikeOption w then
    match w.toList with
    | '-' :: '-' :: rest => readLong d rest
    | cs => readLetters d (cs.drop 1)
  else (d.word w).map .nothing

/-- Read words. After two dashes there are no options. -/
def readWords (d : Draft) : List String → Option Draft
  | [] => some d
  | "--" :: rest => rest.foldlM Draft.word d
  | w :: rest =>
    match readWord d w with
    | none => none
    | some (.nothing d) => readWords d rest
    | some (.value d s) =>
      match rest with
      | [] => none
      | value :: rest =>
        if looksLikeOption value then none
        else
          match d.option s value with
          | none => none
          | some d => readWords d rest

/-- Read a command line. -/
def Invocation.ofArguments? (args : List String) : Option Invocation := do
  let d ← readWords .start args
  return ⟨← d.action, ← d.path, d.settings, d.forgiving, d.quiet⟩

end Swarm.Cli
