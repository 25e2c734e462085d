import Swarm.Machine.Run

/-!
# Computations as functions of the machine

Equations that say what a computation does to a given machine, so that later proofs need not look
inside the monad. Nested jobs and private streams have one shape: something is put up before a
computation and taken down after it, however the computation ended. `Exec.within` is that shape.

## Main definitions

* `Machine.haltRead`: the machine after a reading of the halt flag
* `Exec.final`: the machine at the end of a computation
* `Exec.within`: a computation between an entry and an exit
* `Exec.restOfTurn`: a turn after one of its instructions
* `Argument.asked`, `Argument.births`: what the commands with an agent set check of their argument

## Main results

* `Exec.runAgent_eq`, `Exec.runExclusive_eq`, `Exec.withStreamCopy_eq`: nested jobs and private
  streams as scopes
* `Exec.ask_eq`, `Exec.createTurtles_eq`: a check, then a nested job, then a move
-/

namespace Swarm

-- ════════════════════════════════════════════════════════════════════════
-- Whom a nested job is run for
-- ════════════════════════════════════════════════════════════════════════

namespace Argument

variable {w : World} {token : String} {v : Value}

/-- The agents that are asked: those of a set, dead ones among them, or an agent that is alive. -/
def asked (w : World) (token : String) (v : Value) : Except Fault AgentSet :=
  match v with
  | .agent a => if w.isAlive a then .ok (.ofAgent a) else .error (.ofCause (.agentDead a.text))
  | v => agents token v

theorem asked_eq_ok {s : AgentSet} :
    asked w token v = .ok s ↔
      (∀ a, v = .agent a → w.isAlive a = true) ∧ agents token v = .ok s := by
  cases v with
  | agent a => by_cases alive : w.isAlive a <;> simp [asked, agents, alive]
  | _ => simp [asked]

/-- The number of turtles to create, by an agent of a kind. -/
def births (kind : AgentKind) (token : String) (v : Value) : Except Fault Nat :=
  if kind = .observer then count token v else .error (.ofCause (.wrongAgent token kind))

theorem births_eq_ok {kind : AgentKind} {n : Nat} :
    births kind token v = .ok n ↔ kind = .observer ∧ count token v = .ok n := by
  by_cases observer : kind = .observer <;> simp [births, observer]

end Argument

/-- The machine after a reading of the halt flag. -/
def Machine.haltRead (m : Machine) : Machine :=
  { m with halt := m.halt.later }

namespace Exec

variable {α β : Type}

/-- How a computation on the machine ended. -/
abbrev Ending (α : Type) := EStateM.Result Stop Machine α

/-- The machine at the end of a computation, however it ended. -/
def final : Ending α → Machine
  | .ok _ m => m
  | .error _ m => m

/-- Change the machine at the end of a computation. -/
def settle (f : Machine → Machine) : Ending α → Ending α
  | .ok a m => .ok a (f m)
  | .error e m => .error e (f m)

@[simp]
theorem final_settle (f : Machine → Machine) (r : Ending α) : final (settle f r) = f (final r) := by
  cases r <;> rfl

theorem settle_settle (f g : Machine → Machine) (r : Ending α) :
    settle f (settle g r) = settle (fun m => f (g m)) r := by
  cases r <;> rfl

/-- A computation between an entry and an exit. The exit sees the machine from before the entry,
and is made whether or not the computation fails. -/
def within (enter : Machine → Machine) (leave : Machine → Machine → Machine) (x : Exec α) :
    Exec α :=
  fun m => settle (leave m) (x (enter m))

-- ════════════════════════════════════════════════════════════════════════
-- Building blocks
-- ════════════════════════════════════════════════════════════════════════

theorem pure_apply (a : α) (m : Machine) : (pure a : Exec α) m = .ok a m :=
  rfl

theorem bind_apply (x : Exec α) (f : α → Exec β) (m : Machine) :
    (x >>= f) m =
      match x m with
      | .ok a m => f a m
      | .error e m => .error e m := by
  show EStateM.bind x f m = _
  rw [EStateM.bind]
  cases x m <;> rfl

theorem bind_of_ok {x : Exec α} {f : α → Exec β} {m m' : Machine} {a : α} (h : x m = .ok a m') :
    (x >>= f) m = f a m' := by
  rw [bind_apply, h]

theorem bind_of_error {x : Exec α} {f : α → Exec β} {m m' : Machine} {e : Stop}
    (h : x m = .error e m') : (x >>= f) m = .error e m' := by
  rw [bind_apply, h]

theorem get_bind (f : Machine → Exec β) (m : Machine) : ((get : Exec Machine) >>= f) m = f m m :=
  rfl

theorem context_bind (f : Context → Exec β) (m : Machine) : (context >>= f) m = f m.context m :=
  rfl

theorem readHalt_bind (f : Bool → Exec β) (m : Machine) :
    (readHalt >>= f) m = f m.halt.isRaised m.haltRead :=
  rfl

theorem finish_apply (m : Machine) :
    finish m = .ok () { m with context := { m.context with finished := true } } :=
  rfl

theorem ofExcept_ok (a : α) : ofExcept (.ok a) = (pure a : Exec α) :=
  rfl

theorem ofExcept_error (f : Fault) : ofExcept (.error f) = (fail f : Exec α) :=
  rfl

/-- A check leaves the machine as it is, whatever it finds. -/
theorem final_ofExcept (x : Except Fault α) (m : Machine) : final (ofExcept x m) = m := by
  cases x <;> rfl

theorem final_mapFault (change : Machine → Fault → Fault) (x : Exec α) (m : Machine) :
    final (mapFault change x m) = final (x m) := by
  rw [mapFault]
  rcases x m with ⟨a, m'⟩ | ⟨⟨f⟩ | _, m'⟩ <;> rfl

/-- Handing over how a computation ended and ending the same way after a change of the machine is
a change of the machine at the end. -/
theorem attempt_then (x : Exec α) (f : Machine → Machine) (m : Machine) :
    (do
      let r ← attempt x
      modify f
      resumeWith r : Exec α) m = settle f (x m) := by
  simp only [bind_apply, attempt]
  rcases x m with ⟨a, m'⟩ | ⟨e, m'⟩ <;> rfl

/-- Evaluating an argument moves the agent's stream and sets the register of the last value. -/
theorem evaluate_apply (env : Environment) (e : Expr) (m : Machine) :
    evaluate env e m =
      match e.report (m.view env) (m.streams.get m.context.stream) with
      | .ok v s => .ok v { m with
          streams := m.streams.set m.context.stream s
          context := { m.context with lastReported := v } }
      | .error f s =>
        .error (.fault f) { m with streams := m.streams.set m.context.stream s } := by
  rw [evaluate, report, bind_apply, get_bind, draw, context_bind, drawFrom]
  cases e.report (m.view env) (m.streams.get m.context.stream) <;> rfl

/-- Fetching reads the halt flag first. A run that finds it raised fetches nothing. -/
theorem fetch_apply (env : Environment) (m : Machine) :
    fetch env m =
      if m.halt.isRaised then .error (.fault (.ofCause .halted)) m.haltRead
      else ofExcept (env.program.instruction m.context.procedure m.context.ip) m.haltRead := by
  rw [fetch, readHalt_bind]
  cases m.halt.isRaised with
  | false => rfl
  | true => rfl

theorem fetch_eq_ok {env : Environment} {i : Instruction} {m m' : Machine}
    (h : fetch env m = .ok i m') :
    m' = m.haltRead ∧ m.halt.isRaised = false ∧
      env.program.instruction m.context.procedure m.context.ip = .ok i := by
  rw [fetch_apply] at h
  split at h
  · cases h
  · next live =>
    cases hi : env.program.instruction m.context.procedure m.context.ip with
    | error f =>
      rw [hi] at h
      cases h
    | ok j =>
      rw [hi] at h
      cases h
      exact ⟨rfl, by simpa using live, rfl⟩

/-- Fetching fails because the flag is raised, or because the place is not in the code. -/
theorem fetch_eq_error {env : Environment} {f : Fault} {m m' : Machine}
    (h : fetch env m = .error (.fault f) m') :
    m' = m.haltRead ∧ (m.halt.isRaised = true ∧ f = .ofCause .halted
      ∨ env.program.instruction m.context.procedure m.context.ip = .error f) := by
  rw [fetch_apply] at h
  split at h
  · next halted =>
    cases h
    exact ⟨rfl, .inl ⟨halted, rfl⟩⟩
  · cases hi : env.program.instruction m.context.procedure m.context.ip with
    | error g =>
      rw [hi] at h
      cases h
      exact ⟨rfl, .inr rfl⟩
    | ok j =>
      rw [hi] at h
      cases h

theorem fetch_of_halted {env : Environment} {m : Machine} (halted : m.halt.isRaised = true) :
    fetch env m = .error (.fault (.ofCause .halted)) m.haltRead := by
  rw [fetch_apply, halted]
  rfl

theorem fetch_of_fetched {env : Environment} {i : Instruction} {m : Machine}
    (live : m.halt.isRaised = false)
    (h : env.program.instruction m.context.procedure m.context.ip = .ok i) :
    fetch env m = .ok i m.haltRead := by
  rw [fetch_apply, live, h]
  rfl

theorem fetch_of_missing {env : Environment} {f : Fault} {m : Machine}
    (live : m.halt.isRaised = false)
    (h : env.program.instruction m.context.procedure m.context.ip = .error f) :
    fetch env m = .error (.fault f) m.haltRead := by
  rw [fetch_apply, live, h]
  rfl

/-- The end of a turn after an instruction that ends turns. -/
def endTurn (env : Environment) : Exec Unit := do
  let ended ← atTerminal env
  modifyContext fun c => { c with finished := ended }

/-- The rest of a turn after an instruction. -/
def restOfTurn (env : Environment) (fuel : Nat) (i : Instruction) : Exec Unit := do
  if (← context).finished then return ()
  if i.switches then endTurn env else untilSwitch env fuel

theorem untilSwitch_succ (env : Environment) (fuel : Nat) :
    untilSwitch env (fuel + 1) =
      (fetch env >>= fun i => execute env (toCompletion env fuel) i >>= fun _ =>
        restOfTurn env fuel i) :=
  rfl

theorem restOfTurn_of_running {env : Environment} {m : Machine} (fuel : Nat) (i : Instruction)
    (h : m.context.finished = false) :
    restOfTurn env fuel i m = (if i.switches then endTurn env else untilSwitch env fuel) m := by
  rw [restOfTurn, context_bind, h]
  rfl

theorem toCompletion_of_running {env : Environment} {m : Machine} (h : m.context.finished = false)
    (fuel : Nat) :
    toCompletion env (fuel + 1) m =
      (fetch env >>= fun i => execute env (toCompletion env fuel) i >>= fun _ =>
        toCompletion env fuel) m := by
  rw [toCompletion, context_bind, h]
  rfl

-- ════════════════════════════════════════════════════════════════════════
-- Nested jobs and private streams
-- ════════════════════════════════════════════════════════════════════════

/-- The machine in which an agent starts a block. -/
def enterAgent (a : AgentRef) (entry : Nat) (stream : StreamRef) (m : Machine) : Machine :=
  { m with context := nestedContext m.context a entry stream }

/-- The machine after an agent's block: the enclosing context is back, with the frames that the
agent left, as deep as they were. -/
def leaveAgent (m m' : Machine) : Machine :=
  { m' with
    context := { m.context with frames := m'.context.frames.unwindTo m.context.frames.depth } }

theorem runAgent_eq (run : Exec Unit) (entry : Nat) (stream : StreamRef) (a : AgentRef) :
    runAgent run entry stream a = within (enterAgent a entry stream) leaveAgent run := by
  funext m
  exact attempt_then run _ _

theorem runAgents_cons (run : Exec Unit) (entry : Nat) (stream : StreamRef) (a : AgentRef)
    (rest : List AgentRef) (m : Machine) :
    runAgents run entry stream (a :: rest) m =
      if m.world.isAlive a then
        (runAgent run entry stream a >>= fun _ => runAgents run entry stream rest) m
      else runAgents run entry stream rest m := by
  rw [runAgents, get_bind]
  split <;> rfl

/-- The machine inside a nested job. -/
def enterNested (m : Machine) : Machine :=
  { m with nesting := m.nesting + 1 }

/-- The machine after a nested job. -/
def leaveNested (_ m' : Machine) : Machine :=
  { m' with nesting := m'.nesting - 1 }

theorem runExclusive_eq (env : Environment) (run : Exec Unit) (s : AgentSet) (entry : Nat)
    (stream : StreamRef) (m : Machine) :
    runExclusive env run s entry stream m =
      if env.limits.nesting ≤ m.nesting then fail (.ofCause (.nesting env.limits.nesting)) m
      else
        (drawFrom stream (Draw.ofStream s.visitOrder) >>= fun order =>
          within enterNested leaveNested (runAgents run entry stream order)) m := by
  rw [runExclusive, get_bind]
  by_cases h : env.limits.nesting ≤ m.nesting
  · simp only [h, if_true]
    rfl
  · simp only [h, if_false]
    rw [bind_apply, bind_apply]
    cases drawFrom stream (Draw.ofStream s.visitOrder) m with
    | ok order m' => exact attempt_then (runAgents run entry stream order) _ _
    | error e m' => rfl

/-- A nested job over one live agent, which is visited without a draw. -/
theorem runExclusive_ofAgent {env : Environment} (run : Exec Unit) {a : AgentRef} (entry : Nat)
    (stream : StreamRef) {m : Machine} (nesting : m.nesting < env.limits.nesting)
    (alive : m.world.isAlive a = true) :
    runExclusive env run (.ofAgent a) entry stream m =
      within (fun m => enterAgent a entry stream (enterNested m))
        (fun m m' => leaveNested m (leaveAgent (enterNested m) m')) run m := by
  have hdraw : drawFrom stream (Draw.ofStream (AgentSet.ofAgent a).visitOrder) m = .ok [a] m := by
    simp [drawFrom, Draw.ofStream, AgentSet.visitOrder, AgentSet.ofAgent, Streams.set_get_self]
  have hone : runAgents run entry stream [a] (enterNested m) =
      runAgent run entry stream a (enterNested m) := by
    rw [runAgents_cons, if_pos (show (enterNested m).world.isAlive a = true from alive), bind_apply]
    cases runAgent run entry stream a (enterNested m) <;> rfl
  rw [runExclusive_eq, if_neg (by omega), bind_of_ok hdraw, within, within, hone, runAgent_eq,
    within, settle_settle]

/-- The machine with a copy of the main stream, which the running agent draws from. -/
def enterCopy (m : Machine) : Machine :=
  { m with
    streams := (m.streams.addCopy Streams.main).2
    context := { m.context with stream := (m.streams.addCopy Streams.main).1 } }

/-- The machine without the copy; the running agent draws from its own stream again. -/
def leaveCopy (m m' : Machine) : Machine :=
  { m' with
    streams := m'.streams.truncate m.streams.store.size
    context := { m'.context with stream := m.context.stream } }

theorem withStream_eq (replacement : StreamRef) (x : Exec α) :
    withStream replacement x =
      within (fun m => { m with context := { m.context with stream := replacement } })
        (fun m m' => { m' with context := { m'.context with stream := m.context.stream } }) x := by
  funext m
  exact attempt_then x _ _

theorem withStreamCopy_eq (x : StreamRef → Exec Unit) (m : Machine) :
    withStreamCopy x m = within enterCopy leaveCopy (x ⟨m.streams.store.size⟩) m := by
  have hcopy : withStreamCopy x m = within
      (fun m => { m with streams := (m.streams.addCopy Streams.main).2 })
      (fun m m' => { m' with streams := m'.streams.truncate m.streams.store.size })
      (withStream ⟨m.streams.store.size⟩ (x ⟨m.streams.store.size⟩)) m :=
    attempt_then (withStream ⟨m.streams.store.size⟩ (x ⟨m.streams.store.size⟩)) _ _
  rw [hcopy, withStream_eq, within, within, settle_settle]
  rfl

/-- To ask is to check whom, to run the block as a nested job, and to move on. -/
theorem ask_eq (env : Environment) (run : Exec Unit) (i : Instruction) (v : Value) :
    ask env run i v =
      (get >>= fun m => ofExcept (Argument.asked m.world i.command.token v) >>= fun s =>
        runExclusive env run s i.next m.context.stream >>= fun _ => goto i.offset) := by
  rw [ask]
  congr 1
  funext m
  cases v with
  | agent a =>
    cases alive : m.world.isAlive a with
    | false =>
      simp only [Argument.asked, alive]
      rfl
    | true =>
      simp only [Argument.asked, alive]
      rfl
  | _ => rfl

/-- To create turtles is to check how many, to have them born, to run the block as a nested job,
and to move on. -/
theorem createTurtles_eq (env : Environment) (run : Exec Unit) (i : Instruction) (v : Value) :
    createTurtles env run i v =
      (context >>= fun c => ofExcept (Argument.births c.agent.kind i.command.token v) >>= fun n =>
        spawn n >>= fun created => runExclusive env run created i.next c.stream >>= fun _ =>
          goto i.offset) := by
  rw [createTurtles]
  congr 1
  funext c
  rw [Argument.births]
  by_cases observer : c.agent.kind = .observer
  · rw [if_neg (not_not_intro observer), if_pos observer]
  · rw [if_pos observer, if_neg observer]
    rfl

end Exec

end Swarm
