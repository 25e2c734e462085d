import Swarm.Proofs.Provenance.Instruction

/-!
# Faults are bound to the primitive that raised them

A fault that leaves an instruction has passed through expressions, instructions and nested jobs, and
each of them might have recorded itself. The record names the one in which the fault arose: the
innermost expression or instruction that raised it, and the agent and the procedure that ran it.

## Main definitions

* `Exec.siteOf`: the place of an instruction
* `Exec.Raises`: the innermost expression or instruction that raised a fault, and the fault as it
  was raised

## Main results

* `Exec.Raises.execute_eq`: the fault is recorded with the primitive that raised it
* `Exec.raises_of_execute`: every runtime fault was raised by some primitive
* `Exec.execute_binds_faults`: what can be read from a fault that leaves an instruction
-/

namespace Swarm.Exec

variable {env : Environment} {run : Exec Unit} {i : Instruction} {m m' : Machine} {f : Fault}

-- ════════════════════════════════════════════════════════════════════════
-- The place of an instruction
-- ════════════════════════════════════════════════════════════════════════

/-- The world has the same variables. -/
def SameTables (m m' : Machine) : Prop :=
  m'.world.tables = m.world.tables

/-- No effect changes the variables of the world. -/
theorem sameTables_effects : Effects SameTables where
  refl _ := rfl
  trans h₁ h₂ := h₂.trans h₁
  registers _ _ _ _ _ := rfl
  assign _ := rfl
  push _ := rfl
  pop _ _ := rfl
  draw _ _ := rfl
  write _ := rfl
  print _ _ := rfl
  relax m nodes links springs := by
    rw [SameTables, relax_eq]
    split
    · next written w s hl =>
      obtain ⟨moves, _, rfl, _⟩ := World.layoutSpring_ok hl
      exact World.tables_foldl_shift moves m.world
    · rfl
  remove _ := World.tables_remove _ _
  spawn m count :=
    World.growTurtles_induction (P := fun w => w.tables = m.world.tables) (fun _ _ h => h) count
      m.world _ rfl
  agent _ h := h
  nested h := h
  copy h := h
  read _ := rfl

/-- The place of an instruction that the running agent comes to. -/
def siteOf (env : Environment) (i : Instruction) (m : Machine) : Site :=
  (m.view env).site (i.command.describe m.world.variableName) i.position

theorem siteOf_eq (agent : m'.context.agent = m.context.agent)
    (procedure : m'.context.procedure = m.context.procedure)
    (tables : m'.world.tables = m.world.tables) : siteOf env i m' = siteOf env i m := by
  have hnames : m'.world.variableName = m.world.variableName := by
    funext kind slot
    rw [World.variableName, World.variableName, World.table, World.table, tables]
  have hprocedure : (m'.view env).frame.procedure = (m.view env).frame.procedure := procedure
  have hagent : (m'.view env).agent = (m.view env).agent := agent
  rw [siteOf, siteOf, hnames, View.site, View.site, hprocedure, hagent]
  rfl

/-- Fewer instructions are left than there was fuel. -/
theorem Proceeds.left_lt {stops : Instruction → Bool} {fuel left : Nat} {k k' : Machine}
    (h : Proceeds env stops fuel k (left + 1) k') : left < fuel := by
  generalize hbound : left + 1 = bound at h
  induction h with
  | refl _ => omega
  | step _ _ _ _ _ ih =>
    have := ih hbound
    omega

-- ════════════════════════════════════════════════════════════════════════
-- The innermost primitive
-- ════════════════════════════════════════════════════════════════════════

/-- Carried out with some fuel from `m` on, an instruction fails, and the fault was raised at a
site: by an argument, by an instruction of a nested job, or, if all its arguments have values and no
agent of its nested job fails, by the instruction itself. A nested job of `carefully` lets no runtime
fault pass. -/
inductive Raises (env : Environment) : Nat → Instruction → Machine → Site → Fault → Prop where
  | argument {fuel : Nat} {i : Instruction} {m m₁ : Machine} {a : Expr} {site : Site} {f : Fault} :
    Consults env i m a m₁ →
    Expr.Raises (m₁.view env) a (m₁.streams.get m₁.context.stream) site f →
    Raises env fuel i m site f
  | nested {fuel left : Nat} {i j : Instruction} {m k k₁ k₂ : Machine} {site : Site} {f : Fault} :
    Launches env (toCompletion env fuel) i m k →
    Proceeds env (fun _ => false) fuel k (left + 1) k₁ → fetch env k₁ = .ok j k₂ →
    Raises env left j k₂ site f →
    (i.command = .carefully → f.kind ≠ .runtime ∧ f.kind.isAgentValidation = false) →
    Raises env fuel i m site f
  | own {fuel : Nat} {i : Instruction} {m m' : Machine} {f : Fault} :
    (∀ a m₁, Consults env i m a m₁ → ∃ v m₂, evaluate env a m₁ = .ok v m₂) →
    (∀ k, Launches env (toCompletion env fuel) i m k →
      ∀ g k', toCompletion env fuel k ≠ .error (.fault g) k') →
    carryOut env (toCompletion env fuel) i m = .error (.fault f) m' →
    Raises env fuel i m (siteOf env i m) f

variable {fuel : Nat} {site : Site}

theorem evaluate_of_raises {a : Expr}
    (h : Expr.Raises (m.view env) a (m.streams.get m.context.stream) site f) :
    ∃ m', evaluate env a m = .error (.fault (site.bind f)) m' := by
  obtain ⟨s, hs⟩ := h.report_eq
  rw [evaluate_apply, hs]
  exact ⟨_, rfl⟩

/-- An expression that has no value has a fault that some expression raised. -/
theorem raises_of_evaluate {a : Expr} (h : ¬ ∃ v m', evaluate env a m = .ok v m') :
    ∃ site f, Expr.Raises (m.view env) a (m.streams.get m.context.stream) site f := by
  rw [evaluate_apply] at h
  cases hr : a.report (m.view env) (m.streams.get m.context.stream) with
  | ok v s =>
    rw [hr] at h
    exact absurd ⟨_, _, rfl⟩ h
  | error g s => exact Expr.raises_of_report a _ g s hr

/-- What an instruction raises by itself is recorded with the place that the agent came to. -/
theorem execute_of_place (place : m'.context.procedure = m.context.procedure)
    (h : carryOut env (toCompletion env fuel) i m = .error (.fault f) m') :
    execute env (toCompletion env fuel) i m = .error (.fault ((siteOf env i m).bind f)) m' := by
  have hfinal : final (execute env (toCompletion env fuel) i m) = m' := by
    rw [execute_eq_carryOut, final_mapFault, h]
    rfl
  have hagent := (sameSeat_effects.execute (sameSeat_effects.toCompletion env fuel) env i m).agent
  have htables : SameTables m _ :=
    sameTables_effects.execute (sameTables_effects.toCompletion env fuel) env i m
  rw [hfinal] at hagent htables
  have hsite : siteOf env i m' = siteOf env i m := siteOf_eq hagent place htables
  rw [execute_eq_carryOut, mapFault, h]
  dsimp only
  rw [bindInstruction, View.bind_eq]
  exact congrArg (fun site : Site => EStateM.Result.error (Stop.fault (site.bind f)) m') hsite

/-- An instruction passes a recorded fault on as it is. -/
theorem execute_of_closed (closed : Site.isOpen f = false)
    (h : carryOut env run i m = .error (.fault f) m') :
    execute env run i m = .error (.fault f) m' :=
  located_of_closed closed h

/-- An instruction whose arguments have values and whose nested job does not fail raises a fault
without a trail, in the call that it belongs to. -/
theorem own_of_carryOut
    (hargs : ∀ a m₁, Consults env i m a m₁ → ∃ v m₂, evaluate env a m₁ = .ok v m₂)
    (hjobs : ∀ k, Launches env run i m k → ∀ g k', run k ≠ .error (.fault g) k')
    (h : carryOut env run i m = .error (.fault f) m') :
    f.Own ∧ m'.context.procedure = m.context.procedure := by
  cases arises_of_carryOut h with
  | argument hconsults ha =>
    obtain ⟨v, m₂, hv⟩ := hargs _ _ hconsults
    rw [hv] at ha
    cases ha
  | nested hlaunches hk => exact absurd hk (hjobs _ hlaunches _ _)
  | own hown place => exact ⟨hown, place⟩

/-- A fault is raised without a trail. -/
theorem Raises.unrecorded (h : Raises env fuel i m site f) : f.lookup "primitive" = none := by
  induction h with
  | argument _ hraises => exact hraises.plain.own.unrecorded
  | nested _ _ _ _ _ ih => exact ih
  | own hargs hjobs hfails => exact (own_of_carryOut hargs hjobs hfails).1.unrecorded

/-- A fault leaves an instruction as it was recorded with the primitive that raised it. -/
theorem Raises.execute_eq (h : Raises env fuel i m site f) :
    ∃ m', execute env (toCompletion env fuel) i m = .error (.fault (site.bind f)) m' := by
  induction h with
  | argument hconsults hraises =>
    obtain ⟨m', ha⟩ := evaluate_of_raises hraises
    exact ⟨m', execute_of_closed (Site.isOpen_bind _ _) (hconsults.carryOut_eq ha)⟩
  | @nested fuel left i j m k k₁ k₂ site f hlaunches hproceeds hfetch _ uncaught ih =>
    obtain ⟨k', hexecute⟩ := ih
    have hstep : (fetch env >>= execute env (toCompletion env left)) k₁ =
        .error (.fault (site.bind f)) k' := by
      rw [bind_of_ok hfetch, hexecute]
    have hrun := toCompletion_of_step_error hproceeds.running hstep
    rw [← hproceeds.toCompletion_eq] at hrun
    refine hlaunches.passes hrun (Site.isOpen_bind _ _) fun command => ?_
    obtain ⟨hkind, hvalidation⟩ := uncaught command
    rw [site.kind_bind_of_not_validation hvalidation]
    exact hkind
  | own hargs hjobs hfails =>
    exact ⟨_, execute_of_place (own_of_carryOut hargs hjobs hfails).2 hfails⟩

/-- A runtime fault of a nested run passes through the instruction; were it caught, the instruction
would succeed. -/
theorem Launches.uncaught {k k' : Machine} {g : Fault}
    (hlaunches : Launches env (toCompletion env fuel) i m k)
    (hk : toCompletion env fuel k = .error (.fault g) k')
    (h : execute env (toCompletion env fuel) i m = .error (.fault f) m') :
    f = g ∧ (i.command = .carefully → g.kind ≠ .runtime) := by
  obtain ⟨left, k₁, _, hstep⟩ := proceeds_of_error hk
  have closed := isOpen_of_step hstep
  have huncaught : i.command = .carefully → g.kind ≠ .runtime := by
    intro command hkind
    obtain ⟨after, hafter, _⟩ := hlaunches.caught command (framed_effects.toCompletion env fuel)
      (sameSeat_effects.toCompletion env fuel) hk hkind
    rw [hafter] at h
    cases h
  obtain ⟨m₁, hpasses⟩ := hlaunches.passes hk closed huncaught
  rw [hpasses] at h
  cases h
  exact ⟨rfl, huncaught⟩

/-- Every runtime fault of an instruction was raised by some primitive. -/
theorem raises_of_execute (h : execute env (toCompletion env fuel) i m = .error (.fault f) m')
    (runtime : f.kind = .runtime) : ∃ site raised, Raises env fuel i m site raised := by
  induction fuel using Nat.strong_induction_on generalizing i m f m' with
  | _ fuel ih =>
  by_cases hargs : ∀ a m₁, Consults env i m a m₁ → ∃ v m₂, evaluate env a m₁ = .ok v m₂
  · by_cases hjobs : ∀ k, Launches env (toCompletion env fuel) i m k →
      ∀ g k', toCompletion env fuel k ≠ .error (.fault g) k'
    · obtain ⟨raised, hfails, _⟩ := mapFault_eq_fault h
      exact ⟨_, raised, .own hargs hjobs hfails⟩
    · push Not at hjobs
      obtain ⟨k, hlaunches, g, k', hk⟩ := hjobs
      obtain ⟨rfl, uncaught⟩ := hlaunches.uncaught hk h
      obtain ⟨left, k₁, hproceeds, hstep⟩ := proceeds_of_error hk
      rcases bind_eq_error hstep with hfetch | ⟨j, k₂, hfetch, hexecute⟩
      · rcases kind_of_fetch hfetch with hkind | hkind <;> rw [runtime] at hkind <;> cases hkind
      · obtain ⟨site, raised, hraises⟩ := ih left hproceeds.left_lt hexecute runtime
        exact ⟨site, raised, .nested hlaunches hproceeds hfetch hraises fun command =>
          absurd runtime (uncaught command)⟩
  · push Not at hargs
    obtain ⟨a, m₁, hconsults, hfails⟩ := hargs
    obtain ⟨site, raised, hraises⟩ := raises_of_evaluate fun ⟨v, m₂, hv⟩ => hfails v m₂ hv
    exact ⟨site, raised, .argument hconsults hraises⟩

/-- A fault that leaves an instruction is never about an agent. If it is a runtime fault, it was
raised by some expression or instruction. Wherever a fault was raised, it comes out with the message
that it was raised with; one about an agent comes out as a runtime fault that stems from it; and the
site that is read from a runtime fault is that of the innermost expression or instruction, however
many of them it passed through. -/
theorem execute_binds_faults
    (h : execute env (toCompletion env fuel) i m = .error (.fault f) m') :
    f.kind.isAgentValidation = false
      ∧ (f.kind = .runtime → ∃ site raised, Raises env fuel i m site raised)
      ∧ ∀ site raised, Raises env fuel i m site raised →
        f.message = raised.message
          ∧ (raised.kind.isAgentValidation = true →
            f.kind = .runtime ∧ f.origin = some (.fault raised))
          ∧ (f.kind = .runtime → site.position.Fits →
            Site.ofFault? f = some { site with message := f.message }) := by
  refine ⟨Site.isAgentValidation_of_closed (isOpen_of_execute h), raises_of_execute h, ?_⟩
  intro site raised hraises
  obtain ⟨m₁, hbound⟩ := hraises.execute_eq
  rw [hbound] at h
  cases h
  refine ⟨site.message_bind, site.bind_of_validation, fun runtime fits => ?_⟩
  rw [site.message_bind]
  exact site.ofFault?_bind hraises.unrecorded runtime fits

/-- A program that asks the first patch for a member of an empty list. -/
def probing : Environment where
  program := ProgramDef.layout ⟨[.ofBody "go"
    [⟨.ask, [.constant (.agent (.patch 0))],
      [[⟨.print, [⟨.oneOf, [.constant (.list [])], ⟨1, 27⟩⟩], [], ⟨1, 21⟩⟩]], ⟨1, 4⟩⟩]]⟩
  limits := .default

/-- The observer at the start of `probing`. -/
def prober : Machine where
  world := World.build .default
  streams := .ofMain (.ofSeed 0)
  notices := #[]
  halt := .steady false
  nesting := 0
  context := .resume ⟨.observer, 0, .ofFrame defaultCallDepth (.fresh 0 0 0), 1, none⟩ Streams.main

/-- The fault passes through `print`, the nested job and `ask`. The site that comes out is that of
`one-of`, in the patch. -/
theorem execute_binds_faults_prober :
    ∃ i f m', fetch probing prober = .ok i prober ∧ i.command = .ask
      ∧ execute probing (toCompletion probing 2) i prober = .error (.fault f) m'
      ∧ f.kind = .runtime
      ∧ Site.ofFault? f = some ⟨"one-of", "go", ⟨1, 27⟩, "patch 0", f.message⟩ := by
  obtain ⟨i, hi, hask, f, m', hfails, runtime⟩ : ∃ i, fetch probing prober = .ok i prober
      ∧ i.command = .ask ∧ ∃ f m',
        execute probing (toCompletion probing 2) i prober = .error (.fault f) m'
          ∧ f.kind = .runtime :=
    ⟨_, rfl, rfl, _, _, rfl, rfl⟩
  have hraises : ∃ raised,
      Raises probing 2 i prober ⟨"one-of", "go", ⟨1, 27⟩, "patch 0", ""⟩ raised := by
    cases hi
    refine ⟨_, .nested (.ask rfl rfl ?_ rfl ⟨by decide, rfl, .here rfl⟩) (.refl rfl) rfl
      (.argument (.unary rfl rfl rfl) (.unary rfl rfl)) nofun⟩
    rintro a ⟨⟩
    rfl
  obtain ⟨raised, hraises⟩ := hraises
  obtain ⟨_, _, hsites⟩ := execute_binds_faults hfails
  obtain ⟨_, _, hsite⟩ := hsites _ raised hraises
  exact ⟨i, f, m', hi, hask, hfails, runtime, hsite runtime ⟨by decide, by decide⟩⟩

end Swarm.Exec
