import Mathlib.Data.List.Forall2
import Mathlib.Logic.Function.Iterate
import Swarm.Proofs.Exec.Scope
import Swarm.Proofs.Job.Rounds
import Swarm.Proofs.Job.Switching
import Swarm.Proofs.Tree.Preservation
import Swarm.Proofs.World.Writes

/-!
# Constant writes in any order of visit

A block that sets variables of one kind and of the observer to constants is the same list of writes
for every agent of the kind. A nested job over the block makes them agent by agent, and so the order
in which it visits the agents shows neither in the world nor in what observers are told, except in
the order in which they are told it. Every agent reads the halt flag equally often, so that a halt
ends the job in every order or in none.

## Main definitions

* `Statement.Writes`: a statement that sets a variable to a constant, as a write
* `Exec.Concordant`: two endings that differ at most in the order of the new notices
* `HaltFlag.staysDown`: the next readings find the flag down
* `Exec.granted?`: the writes that a run makes for an agent

## Main results

* `Exec.toCompletion_writes`: the run of one agent
* `Exec.runAgents_writes`: the runs of several agents
* `Exec.runExclusive_perm`: two nested jobs over the same agents
-/

namespace Swarm

/-- The statement sets a variable of the kind, or of the observer, to a constant. -/
inductive Statement.Writes (kind : AgentKind) : Statement → Write → Prop
  | mk {owner : AgentKind} {slot : Nat} {value : Value} {position place : Position}
      (scope : owner = kind ∨ owner = .observer) :
      Writes kind ⟨.setVariable owner slot, [⟨.constant value, [], place⟩], [], position⟩
        ⟨owner, slot, value⟩

namespace HaltFlag

/-- Whether the next readings, as many as given, all find the flag down. -/
def staysDown (h : HaltFlag) : Nat → Bool
  | 0 => true
  | n + 1 => !h.isRaised && h.later.staysDown n

theorem staysDown_add (h : HaltFlag) (n k : Nat) :
    h.staysDown (n + k) = (h.staysDown n && (later^[n] h).staysDown k) := by
  induction n generalizing h with
  | zero => rw [Nat.zero_add, staysDown, Bool.true_and, Function.iterate_zero_apply]
  | succ n ih =>
    rw [Nat.succ_add, staysDown, ih, staysDown, Bool.and_assoc, Function.iterate_succ_apply]

end HaltFlag

/-- The simulation after a number of readings of the halt flag. -/
def Simulation.haltReads (n : Nat) (sim : Simulation) : Simulation :=
  { sim with halt := HaltFlag.later^[n] sim.halt }

namespace Exec

/-- Both runs failed with a fault, or both ended in the same world and told observers the same in
some order. The runs started with the given notices. -/
inductive Concordant (notices : Array Notice) : Ending Unit → Ending Unit → Prop
  | failed (f f' : Fault) (m m' : Machine) :
      Concordant notices (.error (.fault f) m) (.error (.fault f') m')
  | done {m m' : Machine} (told told' : List Notice) (world : m.world = m'.world)
      (first : m.notices = notices ++ told.toArray) (second : m'.notices = notices ++ told'.toArray)
      (perm : told.Perm told') : Concordant notices (.ok () m) (.ok () m')

-- ════════════════════════════════════════════════════════════════════════
-- The run of one agent
-- ════════════════════════════════════════════════════════════════════════

variable {env : Environment} {procedures : List ProcedureDef} {m : Machine}

/-- The machine after writes of the running agent and a number of readings of the halt flag. The
agent goes on at an instruction. -/
def wrote (ps : List Write) (reads ip : Nat) (m : Machine) : Machine :=
  { m with
    toSimulation := (m.toSimulation.haltReads reads).putAll ps m.context.agent
    context := { m.context with ip := ip } }

theorem wrote_cons (p : Write) (ps : List Write) (reads ip next : Nat) (m : Machine) :
    wrote ps reads ip (wrote [p] 1 next m) = wrote (p :: ps) (reads + 1) ip m := by
  simp only [wrote, Simulation.putAll_cons p ps]
  rfl

/-- An agent reaches its own variables and those of the observer. -/
theorem target_of_scope {w : World} {a : AgentRef} {p : Write}
    (scope : p.kind = a.kind ∨ p.kind = .observer) (primitive : String) :
    Argument.target w a p.kind primitive = .ok (p.address a) := by
  rw [Argument.target, Write.address]
  by_cases observer : p.kind = .observer
  · simp [observer]
  · have own : p.kind = a.kind := scope.resolve_right observer
    simp [own, own ▸ observer]

/-- Carrying out a constant write, after it was fetched, makes it if the world admits it, and is a
fault otherwise. -/
theorem execute_write (env : Environment) (procedures : List ProcedureDef) {t : Statement}
    {p : Write} (h : t.Writes m.context.agent.kind p) (run : Exec Unit) (start : Nat) :
    ∃ i, layoutStatement procedures start t = [i] ∧
      match p.admitted? m.world m.context.agent with
      | some q => execute env run i m.haltRead = .ok () (wrote [q] 1 (start + 1) m)
      | none => ∃ f, execute env run i m.haltRead = .error (.fault f) m.haltRead := by
  obtain @⟨owner, slot, value, position, place, scope⟩ := h
  refine ⟨_, rfl, ?_⟩
  generalize hi : Instruction.ofCommand (Command.resolve procedures (.setVariable owner slot))
    [⟨.constant value, [], place⟩] position start = i
  generalize hp : (⟨owner, slot, value⟩ : Write) = p
  have hexecute : execute env run i =
      mapFault (bindInstruction env i) (performUnary env run i p.value) := by
    subst hi hp
    rfl
  have hperform : performUnary env run i p.value m.haltRead =
      (writeVariable (p.address m.context.agent) p.slot p.value >>= fun _ => goto (start + 1))
        m.haltRead := by
    subst hi hp
    show (ofExcept (Argument.target m.world m.context.agent owner _) >>= fun a =>
      writeVariable a slot value >>= fun _ => goto (start + 1)) m.haltRead = _
    rw [target_of_scope (p := ⟨owner, slot, value⟩) scope]
    rfl
  rw [hexecute, mapFault_apply, hperform, Write.admitted?]
  rw [bind_apply, writeVariable, get_bind, show m.haltRead.world = m.world from rfl]
  cases m.world.accept (p.address m.context.agent) p.slot p.value with
  | ok v => rfl
  | error f => exact ⟨_, rfl⟩

/-- A run that comes to a constant write makes it and goes on with the rest of the block. -/
theorem toCompletion_write (live : m.halt.isRaised = false) {t : Statement} {p : Write}
    (ht : t.Writes m.context.agent.kind p) {rest : List Statement} {ending : List Instruction}
    {start : Nat}
    (hcode : env.program.Holds m.context.procedure start
      (layoutBlock procedures start (t :: rest) ++ ending))
    (running : m.context.finished = false) (hip : m.context.ip = start) (fuel : Nat) :
    env.program.Holds m.context.procedure (start + 1)
        (layoutBlock procedures (start + 1) rest ++ ending) ∧
      match p.admitted? m.world m.context.agent with
      | some q => toCompletion env (fuel + 1) m = toCompletion env fuel (wrote [q] 1 (start + 1) m)
      | none => ∃ f, toCompletion env (fuel + 1) m = .error (.fault f) m.haltRead := by
  obtain ⟨i, hi, hexecute⟩ := execute_write env procedures ht (toCompletion env fuel) start
  rw [layoutBlock, hi] at hcode
  refine ⟨hcode.tail, ?_⟩
  rw [toCompletion_of_live live running (hip ▸ hcode.head)]
  cases hp : p.admitted? m.world m.context.agent with
  | none =>
    rw [hp] at hexecute
    obtain ⟨f, hf⟩ := hexecute
    exact ⟨f, bind_of_error hf⟩
  | some q =>
    rw [hp] at hexecute
    exact bind_of_ok hexecute

/-- The writes that a run with a number of readings makes for an agent: all of them, if the world
admits them and no reading finds the halt flag raised. -/
def granted? (ps : List Write) (reads : Nat) (h : HaltFlag) (w : World) (a : AgentRef) :
    Option (List Write) :=
  if h.staysDown reads then ps.mapM (Write.admitted? w a) else none

/-- A run that finds the flag raised makes no writes. Otherwise the first write is to be admitted,
and the others are to be granted. -/
theorem granted?_cons (p : Write) (ps : List Write) (reads : Nat) (h : HaltFlag) (w : World)
    (a : AgentRef) :
    granted? (p :: ps) (reads + 1) h w a =
      if h.isRaised then none
      else (p.admitted? w a).bind fun q => (granted? ps reads h.later w a).map (q :: ·) := by
  rw [granted?, HaltFlag.staysDown, granted?, List.mapM_cons]
  cases h.isRaised with
  | true => rfl
  | false =>
    cases h.later.staysDown reads with
    | false => cases p.admitted? w a <;> rfl
    | true => cases p.admitted? w a <;> cases ps.mapM (Write.admitted? w a) <;> rfl

/-- Agents of a kind are granted the same writes. -/
theorem granted?_congr {ps : List Write} (reads : Nat) (h : HaltFlag) {w w' : World}
    (akin : w.Akin w') {a b : AgentRef} (kind : a.kind = b.kind)
    (alive : w.isAlive a = w.isAlive b) :
    granted? ps reads h w a = granted? ps reads h w' b := by
  rw [granted?, granted?, Write.admitted?_congr akin kind alive]

/-- An agent that runs a block of constant writes makes them all if it is granted all of them, and
fails otherwise. -/
theorem toCompletion_writes {last : Instruction}
    (hlast : last.command = .done ∨ last.command = .ret) (hknown : last.known = none)
    {block : List Statement} :
    ∀ {ps : List Write} {m : Machine} {start fuel : Nat},
      List.Forall₂ (Statement.Writes m.context.agent.kind) block ps →
      env.program.Holds m.context.procedure start (layoutBlock procedures start block ++ [last]) →
      m.context.finished = false → m.context.atBase = true → m.context.ip = start →
      block.length < fuel →
      match granted? ps (ps.length + 1) m.halt m.world m.context.agent with
      | some qs => toCompletion env fuel m =
          .ok () (Tree.ended (wrote qs (ps.length + 1) (start + block.length) m))
      | none => ∃ f m', toCompletion env fuel m = .error (.fault f) m' := by
  induction block with
  | nil =>
    intro ps m start fuel hblock hcode running base hip hfuel
    obtain ⟨fuel, rfl⟩ := Nat.exists_eq_succ_of_ne_zero (Nat.ne_of_gt hfuel)
    cases hblock
    subst hip
    cases raised : m.halt.isRaised with
    | true =>
      simp only [granted?, List.length_nil, HaltFlag.staysDown, raised]
      exact ⟨_, _, toCompletion_of_halted raised running fuel⟩
    | false =>
      have hends : Job.endsBlock m.context last = true := by
        rcases hlast with hc | hc <;> simp [Job.endsBlock, hc, base]
      have hlastRun := Job.toCompletion_of_endsBlock raised running hcode.head (fun _ => hknown)
        hends fuel
      simp only [granted?, List.length_nil, HaltFlag.staysDown, raised]
      show _ = EStateM.Result.ok () (Tree.ended (wrote [] 1 m.context.ip m))
      rw [hlastRun, wrote, Simulation.putAll_nil]
      rfl
  | cons t rest ih =>
    intro ps m start fuel hblock hcode running base hip hfuel
    obtain ⟨fuel, rfl⟩ := Nat.exists_eq_succ_of_ne_zero (Nat.ne_of_gt (Nat.zero_lt_of_lt hfuel))
    cases hblock with
    | @cons _ p _ ps ht hrest =>
    rw [List.length_cons, granted?_cons]
    cases raised : m.halt.isRaised with
    | true => exact ⟨_, _, toCompletion_of_halted raised running fuel⟩
    | false =>
      obtain ⟨hcode, hstep⟩ := toCompletion_write raised ht hcode running hip fuel
      cases hp : p.admitted? m.world m.context.agent with
      | none =>
        rw [hp] at hstep
        exact hstep.imp fun f hf => ⟨m.haltRead, hf⟩
      | some q =>
        rw [hp] at hstep
        have hgo := ih (m := wrote [q] 1 (start + 1) m) hrest hcode running base rfl
          (Nat.lt_of_succ_lt_succ hfuel)
        -- the write changes nothing that decides about the others
        have hsame : granted? ps (ps.length + 1) (wrote [q] 1 (start + 1) m).halt
            (wrote [q] 1 (start + 1) m).world (wrote [q] 1 (start + 1) m).context.agent =
            granted? ps (ps.length + 1) m.halt.later m.world m.context.agent :=
          (granted?_congr _ _ (World.akin_putAll [q] m.world m.context.agent) rfl rfl).symm
        rw [hsame] at hgo
        rw [hstep]
        cases hqs : granted? ps (ps.length + 1) m.halt.later m.world m.context.agent with
        | none =>
          rw [hqs] at hgo
          exact hgo
        | some qs =>
          rw [hqs] at hgo
          show toCompletion env fuel (wrote [q] 1 (start + 1) m) = .ok () (Tree.ended
            (wrote (q :: qs) (ps.length + 1 + 1) (start + (rest.length + 1)) m))
          rw [hgo, wrote_cons, Nat.add_assoc start, Nat.add_comm 1]

-- ════════════════════════════════════════════════════════════════════════
-- The runs of several agents
-- ════════════════════════════════════════════════════════════════════════

section Agents

variable {last : Instruction} {block : List Statement} {ps : List Write} {kind : AgentKind}
  {entry fuel : Nat} (stream : StreamRef) {agents : List AgentRef}
  (hlast : last.command = .done ∨ last.command = .ret) (hknown : last.known = none)
  (hblock : List.Forall₂ (Statement.Writes kind) block ps)
  (hcode : env.program.Holds m.context.procedure entry
    (layoutBlock procedures entry block ++ [last]))
  (hfuel : block.length < fuel)
include hlast hknown hblock hcode hfuel

/-- An agent of the kind leaves its writes and nothing else, or fails. -/
theorem runAgent_writes {a : AgentRef} (hkind : a.kind = kind) :
    match granted? ps (ps.length + 1) m.halt m.world a with
    | some qs => runAgent (toCompletion env fuel) entry stream a m =
        .ok () { m with
          toSimulation := (m.toSimulation.haltReads (ps.length + 1)).putAll qs a }
    | none => ∃ f m', runAgent (toCompletion env fuel) entry stream a m = .error (.fault f) m' := by
  subst hkind
  have hrun := toCompletion_writes (m := enterAgent a entry stream m) hlast hknown hblock hcode
    rfl (by simp [Context.atBase, enterAgent, nestedContext, Context.resume]) rfl hfuel
  rw [show granted? ps (ps.length + 1) (enterAgent a entry stream m).halt
    (enterAgent a entry stream m).world (enterAgent a entry stream m).context.agent =
    granted? ps (ps.length + 1) m.halt m.world a from rfl] at hrun
  rw [runAgent_eq, within]
  cases hqs : granted? ps (ps.length + 1) m.halt m.world a with
  | none =>
    rw [hqs] at hrun
    obtain ⟨f, m', hf⟩ := hrun
    exact ⟨f, leaveAgent m m', by rw [hf]; rfl⟩
  | some qs =>
    rw [hqs] at hrun
    have hframes : m.context.frames.unwindTo m.context.frames.depth = m.context.frames := by
      rw [CallStack.unwindTo, Nat.sub_self]
      rfl
    dsimp only
    rw [hrun]
    show EStateM.Result.ok () { m with
      toSimulation := (m.toSimulation.haltReads (ps.length + 1)).putAll qs a
      context := { m.context with
        frames := m.context.frames.unwindTo m.context.frames.depth } } = _
    rw [hframes]

/-- Several live agents whose writes the world admits make them one after another, unless a reading
of one of them finds the halt flag raised. -/
theorem runAgents_of_admitted {qs : List Write}
    (hmembers : ∀ a ∈ agents, a.kind = kind ∧ m.world.isAlive a = true)
    (hadmits : ∀ a ∈ agents, ps.mapM (Write.admitted? m.world a) = some qs) :
    if m.halt.staysDown (agents.length * (ps.length + 1)) then
      ∃ halt, runAgents (toCompletion env fuel) entry stream agents m =
        .ok () { m with
          toSimulation := agents.foldl (Simulation.putAll qs) { m.toSimulation with halt := halt } }
    else ∃ f m', runAgents (toCompletion env fuel) entry stream agents m =
      .error (.fault f) m' := by
  induction agents generalizing m with
  | nil =>
    rw [List.length_nil, Nat.zero_mul, HaltFlag.staysDown, if_pos rfl]
    exact ⟨m.halt, rfl⟩
  | cons a rest ih =>
    obtain ⟨hkind, alive⟩ := hmembers a (by simp)
    have hone := runAgent_writes stream hlast hknown hblock hcode hfuel hkind
    rw [granted?, hadmits a (by simp)] at hone
    rw [List.length_cons, Nat.succ_mul, Nat.add_comm, HaltFlag.staysDown_add, runAgents_cons,
      if_pos alive]
    cases down : m.halt.staysDown (ps.length + 1) with
    | false =>
      rw [down] at hone
      obtain ⟨f, m', hf⟩ := hone
      exact ⟨f, m', bind_of_error hf⟩
    | true =>
      rw [down] at hone
      rw [bind_of_ok hone]
      -- the writes of the first agent do not change what is admitted for the others
      have hakin := World.akin_putAll qs m.world a
      have hrest := ih (m := { m with
        toSimulation := (m.toSimulation.haltReads (ps.length + 1)).putAll qs a }) hcode
        (fun b hb => ?_) fun b hb => ?_
      · exact hrest
      · obtain ⟨hkind, alive⟩ := hmembers b (by simp [hb])
        exact ⟨hkind, (hakin.alive b).symm.trans alive⟩
      · have hsame : Write.admitted? (m.world.putAll qs a) b = Write.admitted? m.world b :=
          (Write.admitted?_congr hakin rfl rfl).symm
        exact (congrArg (fun check => ps.mapM check) hsame).trans (hadmits b (by simp [hb]))

/-- Several live agents of the kind leave their writes and nothing else, or one of them fails and
nothing more happens. -/
theorem runAgents_writes {a : AgentRef} {rest : List AgentRef}
    (hmembers : ∀ b ∈ a :: rest, b.kind = kind ∧ m.world.isAlive b = true) :
    match granted? ps ((a :: rest).length * (ps.length + 1)) m.halt m.world a with
    | some qs => ∃ halt, runAgents (toCompletion env fuel) entry stream (a :: rest) m =
        .ok () { m with
          toSimulation :=
            (a :: rest).foldl (Simulation.putAll qs) { m.toSimulation with halt := halt } }
    | none => ∃ f m', runAgents (toCompletion env fuel) entry stream (a :: rest) m =
        .error (.fault f) m' := by
  obtain ⟨hkind, alive⟩ := hmembers a (by simp)
  cases hverdict : ps.mapM (Write.admitted? m.world a) with
  | none =>
    have hone := runAgent_writes stream hlast hknown hblock hcode hfuel hkind
    rw [granted?, hverdict, ite_self] at hone ⊢
    obtain ⟨f, m', hf⟩ := hone
    rw [runAgents_cons, if_pos alive]
    exact ⟨f, m', bind_of_error hf⟩
  | some qs =>
    -- every agent of the kind gets the same verdict
    have hadmits : ∀ b ∈ a :: rest, ps.mapM (Write.admitted? m.world b) = some qs := by
      intro b hb
      obtain ⟨hkind', alive'⟩ := hmembers b hb
      rw [← hverdict, Write.admitted?_congr (.refl m.world) (hkind'.trans hkind.symm)
        (alive'.trans alive.symm)]
    have hall := runAgents_of_admitted stream hlast hknown hblock hcode hfuel hmembers hadmits
    rw [granted?, hverdict]
    cases down : m.halt.staysDown ((a :: rest).length * (ps.length + 1)) with
    | false =>
      rw [down] at hall
      exact hall
    | true =>
      rw [down] at hall
      exact hall

end Agents

-- ════════════════════════════════════════════════════════════════════════
-- Two orders of visit
-- ════════════════════════════════════════════════════════════════════════

/-- What is done to the machines afterwards shows neither in the world nor in the notices. -/
theorem Concordant.settle {notices : Array Notice} {r r' : Ending Unit} {g g' : Machine → Machine}
    (h : Concordant notices r r')
    (hg : ∀ m, (g m).world = m.world ∧ (g m).notices = m.notices)
    (hg' : ∀ m, (g' m).world = m.world ∧ (g' m).notices = m.notices) :
    Concordant notices (Exec.settle g r) (Exec.settle g' r') := by
  cases h with
  | failed f f' m m' => exact .failed f f' (g m) (g' m')
  | @done m m' told told' world first second perm =>
    obtain ⟨gworld, gnotices⟩ := hg m
    obtain ⟨gworld', gnotices'⟩ := hg' m'
    exact .done told told' (gworld.trans (world.trans gworld'.symm)) (gnotices.trans first)
      (gnotices'.trans second) perm

/-- Visiting the same agents in two orders, from machines that differ in their streams alone. -/
theorem concordant_runAgents {last : Instruction} {block : List Statement} {ps : List Write}
    {kind : AgentKind} {entry fuel : Nat} (stream stream' : StreamRef) (streams' : Streams)
    {agents agents' : List AgentRef} (foreign : kind ≠ .observer)
    (hlast : last.command = .done ∨ last.command = .ret) (hknown : last.known = none)
    (hblock : List.Forall₂ (Statement.Writes kind) block ps)
    (hcode : env.program.Holds m.context.procedure entry
      (layoutBlock procedures entry block ++ [last]))
    (hfuel : block.length < fuel)
    (hmembers : ∀ a ∈ agents, a.kind = kind ∧ m.world.isAlive a = true)
    (hperm : agents.Perm agents') :
    Concordant m.notices (runAgents (toCompletion env fuel) entry stream agents m)
      (runAgents (toCompletion env fuel) entry stream' agents' { m with streams := streams' }) := by
  have hmembers' : ∀ a ∈ agents', a.kind = kind ∧ m.world.isAlive a = true :=
    fun a ha => hmembers a (hperm.mem_iff.2 ha)
  cases agents with
  | nil =>
    rw [← hperm.nil_eq]
    exact .done [] [] rfl (by simp) (by simp) .nil
  | cons a rest =>
    cases agents' with
    | nil => cases hperm.eq_nil
    | cons a' rest' =>
      obtain ⟨hkind, alive⟩ := hmembers a (by simp)
      obtain ⟨hkind', alive'⟩ := hmembers' a' (by simp)
      have hsame : granted? ps ((a' :: rest').length * (ps.length + 1)) m.halt m.world a' =
          granted? ps ((a :: rest).length * (ps.length + 1)) m.halt m.world a := by
        rw [← hperm.length_eq]
        exact granted?_congr _ _ (.refl m.world) (hkind'.trans hkind.symm)
          (alive'.trans alive.symm)
      have hone := runAgents_writes stream hlast hknown hblock hcode hfuel hmembers
      have hother := runAgents_writes (m := { m with streams := streams' }) stream' hlast hknown
        hblock hcode hfuel hmembers'
      rw [hsame] at hother
      cases hverdict : granted? ps ((a :: rest).length * (ps.length + 1)) m.halt m.world a with
      | none =>
        rw [hverdict] at hone hother
        obtain ⟨f, k, hf⟩ := hone
        obtain ⟨f', k', hf'⟩ := hother
        rw [hf, hf']
        exact .failed f f' k k'
      | some qs =>
        rw [hverdict] at hone hother
        obtain ⟨halt, hone⟩ := hone
        obtain ⟨halt', hother⟩ := hother
        have hnever : ∀ b ∈ a :: rest, b ≠ .observer := by
          rintro b hb rfl
          exact foreign (hmembers _ hb).1.symm
        rw [hone, hother, Simulation.foldl_putAll, Simulation.foldl_putAll]
        exact .done _ _ (World.foldl_putAll_perm qs hperm hnever m.world) rfl rfl
          (hperm.flatMap_right _)

/-- A nested job within its bound visits the members of its set in some order. -/
theorem runExclusive_visits (run : Exec Unit) (s : AgentSet) (entry : Nat) (stream : StreamRef)
    (room : m.nesting < env.limits.nesting) :
    ∃ order streams, order.Perm s.agents ∧ runExclusive env run s entry stream m =
      settle (leaveNested m)
        (runAgents run entry stream order (enterNested { m with streams := streams })) := by
  rw [runExclusive_eq, if_neg (by omega)]
  exact ⟨_, m.streams.set stream (s.visitOrder (m.streams.get stream)).2,
    (s.visitOrder_perm (m.streams.get stream)).1, rfl⟩

/-- Take a block that sets variables of a kind other than the observer's, and variables of the
observer, to constants, and live agents of the kind. Whatever the order in which a nested job over
the block visits the agents, it ends: it fails in every order, or it leaves in every order the same
world and tells observers the same changes. The streams have no influence. -/
theorem runExclusive_perm {procedures : List ProcedureDef} {kind : AgentKind}
    (foreign : kind ≠ .observer) {block : List Statement} {ps : List Write}
    (hblock : List.Forall₂ (Statement.Writes kind) block ps) {last : Instruction}
    (hlast : last.command = .done ∨ last.command = .ret) (hknown : last.known = none)
    {env : Environment} {entry fuel : Nat} {m : Machine}
    (hcode : env.program.Holds m.context.procedure entry
      (layoutBlock procedures entry block ++ [last]))
    (hfuel : block.length < fuel) {s s' : AgentSet} (hperm : s.agents.Perm s'.agents)
    (hmembers : ∀ a ∈ s.agents, a.kind = kind ∧ m.world.isAlive a = true)
    (stream stream' : StreamRef) (streams' : Streams) :
    Concordant m.notices (runExclusive env (toCompletion env fuel) s entry stream m)
      (runExclusive env (toCompletion env fuel) s' entry stream'
        { m with streams := streams' }) := by
  by_cases room : m.nesting < env.limits.nesting
  · obtain ⟨order, streams, horder, hrun⟩ :=
      runExclusive_visits (toCompletion env fuel) s entry stream room
    obtain ⟨order', streams'', horder', hrun'⟩ := runExclusive_visits
      (m := { m with streams := streams' }) (toCompletion env fuel) s' entry stream' room
    rw [hrun, hrun']
    refine Concordant.settle ?_ (g := leaveNested m) (fun _ => ⟨rfl, rfl⟩) fun _ => ⟨rfl, rfl⟩
    exact concordant_runAgents (m := enterNested { m with streams := streams }) stream stream'
      streams'' foreign hlast hknown hblock hcode hfuel
      (fun a ha => hmembers a (horder.mem_iff.1 ha)) (horder.trans (hperm.trans horder'.symm))
  · -- no job is started in either case
    have full : env.limits.nesting ≤ m.nesting := Nat.le_of_not_lt room
    rw [runExclusive_eq, runExclusive_eq, if_pos full, if_pos full]
    exact .failed _ _ _ _

/-- A patch is painted twice, and a global is set in between. -/
def billposter : List Statement :=
  [⟨.setVariable .patch 3, [.constant (.number 15)], [], .zero⟩,
    ⟨.setVariable .observer 0, [.constant (.boolean true)], [], .zero⟩,
    ⟨.setVariable .patch 3, [.constant (.number 145)], [], .zero⟩]

def billposters : ProgramDef :=
  ⟨[.ofBody "go" billposter]⟩

def billpostersEnvironment : Environment :=
  ⟨billposters.layout, .default⟩

/-- The observer of a world with a global, about to run the block for others. -/
def billpostersMachine : Machine where
  world := World.build { WorldSpec.default with globals := [.ofDomain "posted" .boolean] }
  streams := .ofMain (.ofSeed 0)
  notices := #[]
  halt := .steady false
  nesting := 0
  context := .resume ⟨.observer, 0, .ofFrame defaultCallDepth ⟨0, #[], 0⟩, 1, none⟩ Streams.main

/-- Two patches in both orders. -/
theorem runExclusive_perm_billposters :
    Concordant #[]
        (runExclusive billpostersEnvironment (toCompletion billpostersEnvironment 4)
          ⟨.patch, [.patch 0, .patch 1], true⟩ 0 Streams.main billpostersMachine)
        (runExclusive billpostersEnvironment (toCompletion billpostersEnvironment 4)
          ⟨.patch, [.patch 1, .patch 0], true⟩ 0 Streams.main billpostersMachine)
      ∧ (final (runExclusive billpostersEnvironment (toCompletion billpostersEnvironment 4)
          ⟨.patch, [.patch 0, .patch 1], true⟩ 0 Streams.main billpostersMachine)).notices.size
        = 6 := by
  refine ⟨?_, by decide +kernel⟩
  have hassembled : billposters.assemble billpostersMachine.world false
      = .ok billpostersEnvironment.program := rfl
  have hblock : List.Forall₂ (Statement.Writes .patch) billposter
      [⟨.patch, 3, .number 15⟩, ⟨.observer, 0, .boolean true⟩, ⟨.patch, 3, .number 145⟩] :=
    .cons (.mk (.inl rfl)) (.cons (.mk (.inr rfl)) (.cons (.mk (.inl rfl)) .nil))
  have hcode : billpostersEnvironment.program.Holds 0 0
      (layoutBlock billposters.procedures 0 billposter ++ [.ending 3]) :=
    ProgramDef.holds_layout hassembled
      (rfl : billposters.procedures[0]? = some (.ofBody "go" billposter))
  exact runExclusive_perm (m := billpostersMachine) (by decide) hblock (.inr rfl) rfl hcode
    (by decide) (.swap _ _ _) (by decide +kernel) _ _ _

end Exec

end Swarm
