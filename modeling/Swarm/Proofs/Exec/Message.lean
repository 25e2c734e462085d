import Swarm.Proofs.Exec.Driving
import Swarm.Proofs.Job.Effects

/-!
# The message of the fault caught last

`carefully` keeps the message of the fault that it caught in a register of the agent that runs it,
where `error-message` looks for it. No instruction changes the register of the agent that carries it
out unless it catches another fault. The message is there for the whole second block: in branches,
loops and calls, and from one turn of a concurrent job to the next. The agents of a nested job have
registers of their own, which are empty when they start. Inside of an `ask`, a `create-turtles` or a
`with-local-randomness` in the second block there is therefore no message.

## Main definitions

* `Exec.Catches`: an instruction catches a fault
* `Exec.Handling`: what is run after a fault was caught, until another one is

## Main results

* `Exec.message_of_execute`: the register after an instruction
* `Exec.Handling.message`: the register while a fault is handled
* `Exec.Handling.report_errorMessage`: the value of `error-message` while a fault is handled
-/

namespace Swarm.Exec

variable {env : Environment} {run : Exec Unit} {i : Instruction} {m m₁ m' k : Machine}
  {s : AgentSet} {stream : StreamRef} {f : Fault} {fuel left : Nat} {path : List Enclosure}

/-- The first block of `carefully` fails with a fault, which is caught. -/
structure Catches (env : Environment) (fuel : Nat) (i : Instruction) (m : Machine) (f : Fault) :
    Prop where
  command : i.command = .carefully
  runtime : f.kind = .runtime
  fails : ∃ m', runExclusive env (toCompletion env fuel) (.ofAgent m.context.agent) i.next
    m.context.stream m = .error (.fault f) m'

/-- A fault was caught, and what has been run since then has come to a machine inside of constructs,
the innermost of them first, without catching another one. -/
inductive Handling (f : Fault) : Environment → List Enclosure → Nat → Machine → Prop where
  | caught {env : Environment} {fuel : Nat} {i : Instruction} {m m₁ m' : Machine} :
    fetch env m = .ok i m₁ → Catches env fuel i m₁ f →
    execute env (toCompletion env fuel) i m₁ = .ok () m' → Handling f env [] fuel m'
  | next {env : Environment} {path : List Enclosure} {left : Nat} {i : Instruction}
      {m m₁ m' : Machine} :
    Handling f env path (left + 1) m → fetch env m = .ok i m₁ →
    execute env (toCompletion env left) i m₁ = .ok () m' → (∀ g, ¬ Catches env left i m₁ g) →
    Handling f env path left m'
  | nested {env : Environment} {path : List Enclosure} {x : Enclosure} {m k : Machine} :
    Handling f env path (x.fuel + 1) m → fetch env m = .ok x.instruction x.machine →
    Launches env (toCompletion env x.fuel) x.instruction x.machine k →
    Handling f env (x :: path) x.fuel k
  /-- The agent's turn is over, and a later one begins. -/
  | resumed {env env' : Environment} {left left' : Nat} {m : Machine} (stream : StreamRef)
      (sim : Simulation) : Handling f env [] left m →
    Handling f env' [] left' (Job.seat stream m.context.toCursor sim)

-- ════════════════════════════════════════════════════════════════════════
-- The register after an instruction
-- ════════════════════════════════════════════════════════════════════════

/-- The running agent has the same message. -/
def SameMessage (m m' : Machine) : Prop :=
  m'.context.errorMessage = m.context.errorMessage

theorem sameMessage_quiet : Quiet SameMessage where
  refl _ := rfl
  trans h₁ h₂ := h₂.trans h₁
  move _ _ _ _ := rfl
  assign _ := rfl
  push _ := rfl
  pop _ _ := rfl
  draw _ _ := rfl
  write _ := rfl
  print _ _ := rfl
  relax m nodes links springs := by
    obtain ⟨w, s, notices, hm⟩ := final_relax nodes links springs m
    rw [hm]
    rfl
  spawn _ _ := rfl

/-- An instruction that runs no nested job leaves the register alone. -/
theorem message_of_quiet (quiet : i.command.isExclusive = false)
    (h : execute env run i m = .ok () m') : SameMessage m m' := by
  by_cases dies : i.command = .die
  · -- the register of the agent is there after its death
    have hdie : Keeps SameMessage die :=
      Keeps.get_bind fun _ => sameMessage_quiet.final_ofExcept_bind fun _ _ => rfl
    have hm := hdie m
    rwa [die_of_execute dies h] at hm
  · have hm := sameMessage_quiet.execute quiet dies env run m
    rwa [h] at hm

/-- A nested job leaves the register of the agent that runs it alone. -/
theorem message_of_runExclusive (env : Environment) (fuel : Nat) (s : AgentSet) (entry : Nat)
    (stream : StreamRef) (m : Machine) :
    SameMessage m (final (runExclusive env (toCompletion env fuel) s entry stream m)) := by
  have hback := handsBack_runExclusive (framed_effects.toCompletion env fuel)
    (sameSeat_effects.toCompletion env fuel) env s entry stream m
  rw [SameMessage, hback.context]

/-- The nested job of an instruction that catches a fault fails with it. -/
theorem Catches.fails_of_drives (h : Catches env fuel i m f) (hd : Drives env i m s stream m₁) :
    ∃ m', runExclusive env (toCompletion env fuel) s i.next stream m₁ = .error (.fault f) m' := by
  obtain ⟨command, _, hfails⟩ := h
  cases hd with
  | ask hc => simp [command] at hc
  | createTurtles hc => simp [command] at hc
  | withLocalRandomness hc => simp [command] at hc
  | carefully => exact hfails

/-- An instruction that succeeds leaves the register alone, or puts in the message of the fault that
it caught. -/
theorem message_of_execute (h : execute env (toCompletion env fuel) i m = .ok () m') :
    SameMessage m m' ∧ (∀ f, ¬ Catches env fuel i m f)
      ∨ ∃ f, m'.context.errorMessage = some f.message ∧ ∀ g, Catches env fuel i m g ↔ g = f := by
  cases exclusive : i.command.isExclusive with
  | false =>
    refine .inl ⟨message_of_quiet exclusive h, fun f hf => ?_⟩
    rw [hf.command] at exclusive
    cases exclusive
  | true =>
    obtain ⟨s, stream, m₁, hdrives, hconcludes⟩ := drives_of_execute exclusive h
    have hbefore : SameMessage m m₁ := sameMessage_quiet.drives (fun _ => rfl) hdrives
    have hjob := message_of_runExclusive env fuel s i.next stream m₁
    generalize hr : runExclusive env (toCompletion env fuel) s i.next stream m₁ = r
      at hconcludes hjob
    have hnone (m₂ : Machine) (hok : r = .ok () m₂) : ∀ f, ¬ Catches env fuel i m f := by
      intro f hf
      obtain ⟨m', hfails⟩ := hf.fails_of_drives hdrives
      rw [hr, hok] at hfails
      cases hfails
    cases hconcludes with
    | ended => exact .inl ⟨sameMessage_quiet.trans hbefore hjob, hnone _ rfl⟩
    | copied => exact .inl ⟨sameMessage_quiet.trans hbefore hjob, hnone _ rfl⟩
    | @caught m₂ f command runtime =>
      refine .inr ⟨f, rfl, fun g => ⟨fun hg => ?_, ?_⟩⟩
      · obtain ⟨m', hfails⟩ := hg.fails_of_drives hdrives
        rw [hr] at hfails
        cases hfails
        rfl
      · rintro rfl
        cases hdrives with
        | ask hc => simp [command] at hc
        | createTurtles hc => simp [command] at hc
        | withLocalRandomness hc => simp [command] at hc
        | carefully => exact ⟨command, runtime, _, hr⟩

-- ════════════════════════════════════════════════════════════════════════
-- The register while a fault is handled
-- ════════════════════════════════════════════════════════════════════════

/-- An agent of a nested job starts without a message. -/
theorem Launches.message (h : Launches env run i m k) : k.context.errorMessage = none := by
  obtain ⟨_, _, _, _, rfl⟩ := h.enters
  rfl

/-- While a fault is handled, the agent that caught it has its message, and the agents of nested
jobs have none. -/
theorem Handling.message (h : Handling f env path left m) :
    m.context.errorMessage = if path = [] then some f.message else none := by
  induction h with
  | caught hfetch hcatches hexecute =>
    rcases message_of_execute hexecute with ⟨_, hnone⟩ | ⟨g, hmessage, hunique⟩
    · exact absurd hcatches (hnone f)
    · rw [hmessage, ← (hunique f).1 hcatches, if_pos rfl]
  | next _ hfetch hexecute hnone ih =>
    obtain ⟨rfl, _, _⟩ := fetch_eq_ok hfetch
    rcases message_of_execute hexecute with ⟨hsame, _⟩ | ⟨g, _, hunique⟩
    · exact hsame.trans ih
    · exact absurd ((hunique g).2 rfl) (hnone g)
  | nested _ _ hlaunches => rw [hlaunches.message, if_neg (List.cons_ne_nil _ _)]
  | resumed _ _ _ ih => exact ih

/-- The arguments of an instruction are evaluated with the message of the agent that carries it
out. -/
theorem Consults.message {a : Expr} (h : Consults env i m a m₁) : SameMessage m m₁ := by
  have quiet := sameMessage_quiet
  cases h with
  | unary => exact quiet.refl m
  | @input name index q before after _ frame _ _ _ _ _ hbefore =>
    have hm := quiet.keeps_fillInputs env before 0 (.fresh index q.locals i.next) m
    rwa [hbefore] at hm
  | @spring k _ _ _ _ _ _ hreadings =>
    have hm := quiet.keeps_springReadings env i k m
    rwa [hreadings] at hm

/-- `error-message` gives what is in the register, or an empty text. -/
theorem report_message (v : View) (position : Position) (stream : Random.Stream) :
    (⟨.errorMessage, [], position⟩ : Expr).report v stream =
      .ok (.string (v.errorMessage.getD "")) stream := by
  rw [Expr.report_nil]
  rfl

/-- Wherever `error-message` is evaluated after `carefully` caught a fault and before another fault
is caught, be it after branches, loops and calls or in a later turn: the agent that caught the fault
gets its message, and the agents of nested jobs get an empty text. -/
theorem Handling.report_errorMessage (h : Handling f env path left m)
    {a : Expr} (hconsults : Consults env i m a m₁) (position : Position)
    (stream : Random.Stream) :
    (⟨.errorMessage, [], position⟩ : Expr).report (m₁.view env) stream =
      .ok (.string (if path = [] then f.message else "")) stream := by
  have hmessage : (m₁.view env).errorMessage = if path = [] then some f.message else none :=
    hconsults.message.trans h.message
  rw [report_message, hmessage]
  split <;> rfl

/-- The observer asks for a member of an empty list, prints what went wrong, and lets a patch print
it. -/
def obituary : ProgramDef :=
  ⟨[.ofBody "go"
    [⟨.carefully, [],
      [[⟨.print, [⟨.oneOf, [.constant (.list [])], .zero⟩], [], .zero⟩],
        [⟨.print, [.ofReporter .errorMessage], [], .zero⟩,
          ⟨.ask, [.constant (.agent (.patch 0))],
            [[⟨.print, [.ofReporter .errorMessage], [], .zero⟩]], .zero⟩]], .zero⟩]]⟩

def obituaryEnvironment : Environment :=
  ⟨obituary.layout, .default⟩

def obituaryMachine : Machine where
  world := World.build .default
  streams := .ofMain (.ofSeed 0)
  notices := #[]
  halt := .steady false
  nesting := 0
  context := .resume ⟨.observer, 0, .ofFrame defaultCallDepth ⟨0, #[], 0⟩, 1, none⟩ Streams.main

/-- What is laid out for the prints of the message, at two places of the code. -/
def obituaryPrint (place : Nat) : Instruction :=
  .plain .print [.ofReporter .errorMessage] .zero place

/-- The fault is caught, and the observer and the patch come to their prints. -/
theorem handling_obituary :
    ∃ f x m k k₁, f.message = "ONE-OF got an empty list as input."
      ∧ Handling f obituaryEnvironment [] 8 m ∧ Handling f obituaryEnvironment [x] 6 k
      ∧ fetch obituaryEnvironment k = .ok (obituaryPrint 5) k₁ := by
  have hcaught : ∃ f m m₁ m₂, f.message = "ONE-OF got an empty list as input."
      ∧ Handling f obituaryEnvironment [] 8 m
      ∧ fetch obituaryEnvironment m = .ok (obituaryPrint 3) m₁
      ∧ execute obituaryEnvironment (toCompletion obituaryEnvironment 7) (obituaryPrint 3) m₁
        = .ok () m₂
      ∧ ∃ x m₃ k k₁, fetch obituaryEnvironment m₂ = .ok x m₃
        ∧ Launches obituaryEnvironment (toCompletion obituaryEnvironment 6) x m₃ k
        ∧ fetch obituaryEnvironment k = .ok (obituaryPrint 5) k₁ := by
    refine ⟨_, _, _, _, rfl, .caught (m := obituaryMachine) rfl ⟨rfl, rfl, _, rfl⟩ rfl, rfl, rfl,
      _, _, _, _, rfl, .ask rfl rfl ?_ rfl ⟨by decide, rfl, .here rfl⟩, rfl⟩
    rintro a ⟨⟩
    rfl
  obtain ⟨f, m, m₁, m₂, hmessage, hcaught, hfetch, hexecute, x, m₃, k, k₁, hask, hlaunches,
    hprint⟩ := hcaught
  have hnone : ∀ g, ¬ Catches obituaryEnvironment 7 (obituaryPrint 3) m₁ g := by
    rintro g ⟨⟨⟩⟩
  exact ⟨f, ⟨x, m₃, 6⟩, m, k, k₁, hmessage, hcaught,
    .nested (.next hcaught hfetch hexecute hnone) hask hlaunches, hprint⟩

/-- The observer gets the message of the fault that it caught, and the patch that it asks does
not. -/
theorem report_errorMessage_obituary :
    ∃ f x m k, f.message = "ONE-OF got an empty list as input."
      ∧ Handling f obituaryEnvironment [] 8 m ∧ Handling f obituaryEnvironment [x] 6 k
      ∧ (∀ position stream, (⟨.errorMessage, [], position⟩ : Expr).report
          (m.view obituaryEnvironment) stream = .ok (.string f.message) stream)
      ∧ ∀ position stream, (⟨.errorMessage, [], position⟩ : Expr).report
          (k.view obituaryEnvironment) stream = .ok (.string "") stream := by
  obtain ⟨f, x, m, k, _, hmessage, hm, hk, _⟩ := handling_obituary
  exact ⟨f, x, m, k, hmessage, hm, hk,
    Handling.report_errorMessage hm (i := obituaryPrint 3) (.unary rfl rfl rfl),
    Handling.report_errorMessage hk (i := obituaryPrint 5) (.unary rfl rfl rfl)⟩

/-- The message does not reach the agents of nested jobs in the second block. -/
theorem not_report_caught_message :
    ¬ ∀ (f : Fault) (env : Environment) (path : List Enclosure) (left : Nat) (m : Machine)
      (i : Instruction) (m₁ : Machine) (a : Expr) (m₂ : Machine) (position : Position)
      (stream : Random.Stream),
      Handling f env path (left + 1) m → fetch env m = .ok i m₁ → Consults env i m₁ a m₂ →
      (⟨.errorMessage, [], position⟩ : Expr).report (m₂.view env) stream =
        .ok (.string f.message) stream := by
  intro claim
  obtain ⟨f, x, _, k, k₁, hmessage, _, hk, hprint⟩ := handling_obituary
  have hreport := claim f obituaryEnvironment [x] 5 k (obituaryPrint 5) k₁ _ k₁ .zero default hk
    hprint (.unary rfl rfl rfl)
  obtain ⟨rfl, _, _⟩ := fetch_eq_ok hprint
  have hnone : (k.haltRead.view obituaryEnvironment).errorMessage = none := hk.message
  rw [report_message, hnone, hmessage] at hreport
  simp at hreport

end Swarm.Exec
