import Swarm.Proofs.Exec.Refinement

/-!
# Arguments known in advance

If the one argument of a command is a constant, assembly keeps its value beside the instruction, and
the command is carried out without an evaluation. All that the evaluation would have left is the
value in the register of the value reported last. Commands with one argument neither read this
register nor write it, and the agents of their nested jobs start with registers of their own, so
that nothing else of the machine tells the two ways apart.

## Main definitions

* `Machine.reporting`: the machine with a value in the register
* `Exec.Oblivious`: computations that neither read nor write the register

## Main results

* `Exec.oblivious_performUnary`: commands with one argument, whatever runs their blocks
* `Exec.perform_of_known`: what the evaluation of a known argument leaves
* `Exec.execute_agrees_perform`: instructions of assembled programs with and without the evaluation
-/

namespace Swarm

/-- The machine with a value in the register of the value reported last. -/
def Machine.reporting (v : Value) (m : Machine) : Machine :=
  { m with context := { m.context with lastReported := v } }

namespace Exec

variable {α β : Type}

/-- A computation that neither reads nor writes the register of the value reported last. -/
def Oblivious (x : Exec α) : Prop :=
  ∀ v m, x (m.reporting v) = settle (Machine.reporting v) (x m)

-- ════════════════════════════════════════════════════════════════════════
-- Building blocks
-- ════════════════════════════════════════════════════════════════════════

theorem Oblivious.bind {x : Exec α} {f : α → Exec β} (hx : Oblivious x)
    (hf : ∀ a, Oblivious (f a)) : Oblivious (x >>= f) := by
  intro v m
  rw [bind_apply, bind_apply, hx v m]
  cases x m with
  | ok a m' => exact hf a v m'
  | error e m' => rfl

theorem oblivious_pure (a : α) : Oblivious (pure a : Exec α) :=
  fun _ _ => rfl

theorem oblivious_fail (f : Fault) : Oblivious (fail f : Exec α) :=
  fun _ _ => rfl

theorem oblivious_ofExcept (x : Except Fault α) : Oblivious (ofExcept x) := by
  cases x with
  | ok a => exact oblivious_pure a
  | error f => exact oblivious_fail f

/-- A computation that looks at the machine first, but not at the register. -/
theorem oblivious_get {f : Machine → Exec α} (unread : ∀ v m, f (m.reporting v) = f m)
    (hf : ∀ m, Oblivious (f m)) : Oblivious ((get : Exec Machine) >>= f) := by
  intro v m
  rw [get_bind, get_bind, unread]
  exact hf m v m

/-- A computation that looks at the running agent first, but not at the register. -/
theorem oblivious_context {f : Context → Exec α}
    (unread : ∀ v (c : Context), f { c with lastReported := v } = f c)
    (hf : ∀ c, Oblivious (f c)) : Oblivious (context >>= f) :=
  oblivious_get (f := fun m => f m.context) (fun v m => unread v m.context) fun m => hf m.context

theorem oblivious_drawFrom (r : StreamRef) (d : Draw α) : Oblivious (drawFrom r d) := by
  intro v m
  have hstreams : (m.reporting v).streams = m.streams := rfl
  rw [drawFrom, drawFrom, hstreams]
  cases d (m.streams.get r) <;> rfl

theorem oblivious_goto (ip : Nat) : Oblivious (goto ip) :=
  fun _ _ => rfl

theorem oblivious_notify (n : Notice) : Oblivious (notify n) :=
  fun _ _ => rfl

theorem oblivious_setLocal (slot : Nat) (v : Value) : Oblivious (setLocal slot v) := by
  apply oblivious_context fun _ _ => rfl
  intro c
  apply (oblivious_ofExcept _).bind
  intro f
  exact fun _ _ => rfl

theorem oblivious_writeVariable (a : AgentRef) (slot : Nat) (v : Value) :
    Oblivious (writeVariable a slot v) := by
  apply oblivious_get fun _ _ => rfl
  intro m
  apply (oblivious_ofExcept _).bind
  intro stored
  exact fun _ _ => rfl

-- ════════════════════════════════════════════════════════════════════════
-- Nested jobs
-- ════════════════════════════════════════════════════════════════════════

section Nested

variable (env : Environment) (run : Exec Unit)

/-- An agent of a nested job starts with a register of its own, so that its run is the very same
computation; afterwards the enclosing context has its register back. -/
theorem oblivious_runAgent (entry : Nat) (stream : StreamRef) (a : AgentRef) :
    Oblivious (runAgent run entry stream a) := by
  intro v m
  rw [runAgent_eq]
  show settle (leaveAgent (m.reporting v)) (run (enterAgent a entry stream m)) = _
  exact (settle_settle (Machine.reporting v) (leaveAgent m) _).symm

theorem oblivious_runAgents (entry : Nat) (stream : StreamRef) (agents : List AgentRef) :
    Oblivious (runAgents run entry stream agents) := by
  induction agents with
  | nil => exact oblivious_pure ()
  | cons a rest ih =>
    apply oblivious_get fun _ _ => rfl
    intro m
    split
    · exact (oblivious_runAgent run entry stream a).bind fun _ => ih
    · exact ih

theorem oblivious_runExclusive (s : AgentSet) (entry : Nat) (stream : StreamRef) :
    Oblivious (runExclusive env run s entry stream) := by
  intro v m
  have hnesting : (m.reporting v).nesting = m.nesting := rfl
  rw [runExclusive_eq, runExclusive_eq, hnesting]
  split
  · exact oblivious_fail _ v m
  · apply (oblivious_drawFrom stream _).bind
    intro order v m
    show settle (leaveNested (m.reporting v))
      (runAgents run entry stream order ((enterNested m).reporting v)) = _
    rw [oblivious_runAgents run entry stream order v (enterNested m), settle_settle]
    exact (settle_settle (Machine.reporting v) (leaveNested m) _).symm

theorem oblivious_ask (i : Instruction) (v : Value) : Oblivious (ask env run i v) := by
  rw [ask_eq]
  apply oblivious_get fun _ _ => rfl
  intro m
  apply (oblivious_ofExcept _).bind
  intro s
  exact (oblivious_runExclusive env run s i.next _).bind fun _ => oblivious_goto i.offset

theorem oblivious_createTurtles (i : Instruction) (v : Value) :
    Oblivious (createTurtles env run i v) := by
  rw [createTurtles_eq]
  apply oblivious_context fun _ _ => rfl
  intro c
  apply (oblivious_ofExcept _).bind
  intro count
  apply Oblivious.bind (x := spawn count) fun _ _ => rfl
  intro created
  exact (oblivious_runExclusive env run created i.next _).bind fun _ => oblivious_goto i.offset

end Nested

-- ════════════════════════════════════════════════════════════════════════
-- Commands with one argument
-- ════════════════════════════════════════════════════════════════════════

theorem oblivious_branch (i : Instruction) (v : Value) (otherwise : Nat) :
    Oblivious (branch i v otherwise) := by
  rw [branch_goto]
  exact (oblivious_ofExcept _).bind fun _ => oblivious_goto _

/-- A command with one argument, given its value. -/
theorem oblivious_performUnary (env : Environment) (run : Exec Unit) (i : Instruction)
    (v : Value) : Oblivious (performUnary env run i v) := by
  unfold performUnary
  split
  · apply oblivious_get fun _ _ => rfl
    intro m
    apply (oblivious_ofExcept _).bind
    intro a
    exact (oblivious_writeVariable a _ v).bind fun _ => oblivious_goto i.next
  · exact (oblivious_setLocal _ v).bind fun _ => oblivious_goto i.next
  · exact (oblivious_setLocal _ v).bind fun _ => oblivious_goto i.next
  · exact (oblivious_notify _).bind fun _ => oblivious_goto i.next
  · exact oblivious_ask env run i v
  · exact oblivious_createTurtles env run i v
  · exact oblivious_branch i v i.offset
  · exact oblivious_branch i v i.alternate
  · exact oblivious_branch i v i.offset
  · apply (oblivious_ofExcept _).bind
    intro count
    exact (oblivious_setLocal _ _).bind fun _ => oblivious_goto i.next
  · exact oblivious_fail _

/-- A command with one argument that is known does the same if the argument is evaluated, and leaves
its value in the register. -/
theorem perform_of_known {sc : Scope} {i : Instruction} (fits : i.Fits sc) {v : Value}
    (known : i.known = some v) (env : Environment) (run : Exec Unit) (m : Machine) :
    perform env run i m = settle (Machine.reporting v) (performUnary env run i v m) := by
  obtain ⟨unary, _⟩ := fits.known v known
  rw [perform]
  simp only [unary, if_true]
  rw [bind_of_ok (evaluateAt_of_known fits known env m)]
  exact oblivious_performUnary env run i v v m

/-- A way to record faults that does not look at the register. -/
theorem agrees_mapFault {change : Machine → Fault → Fault} (v : Value)
    (unread : ∀ m, change (m.reporting v) = change m) {x y : Exec α} {m : Machine}
    (h : y m = settle (Machine.reporting v) (x m)) :
    Agrees (mapFault change x m) (mapFault change y m) := by
  rw [mapFault_apply, mapFault_apply, h]
  rcases x m with ⟨a, m'⟩ | ⟨⟨f⟩ | _, m'⟩
  · exact .ok a rfl
  · show Agrees (.error (.fault (change m' f)) m')
      (.error (.fault (change (m'.reporting v) f)) (m'.reporting v))
    rw [unread]
    exact .error _ rfl
  · exact .error _ rfl

/-- Whatever the environment and however blocks are run, an instruction of an assembled program ends
as its command does when the argument is evaluated, with the same faults recorded for it and the
same machine up to the value reported last. -/
theorem execute_agrees_perform {d : ProgramDef} {w : World} {forgiving : Bool} {program : Program}
    (assembled : d.assemble w forgiving = .ok program) {index : Nat} {q : Procedure}
    (hq : program.procedures[index]? = some q) {i : Instruction} (hi : i ∈ q.code)
    (env : Environment) (run : Exec Unit) (m : Machine) :
    Agrees (execute env run i m) (mapFault (bindInstruction env i) (perform env run i) m) := by
  obtain ⟨_, _, _, fits, _⟩ := ProgramDef.fits_of_assemble assembled hq hi
  rw [execute]
  cases known : i.known with
  | none => exact rfl
  | some v =>
    exact agrees_mapFault v (fun _ => rfl) (perform_of_known fits known env run m)

/-- An agent that is asked to print, by a constant. -/
def greeting : ProgramDef :=
  ⟨[⟨"go", 0, 0, [⟨.ask, [.constant (.agent (.patch 0))],
    [[⟨.print, [.constant (.string "here")], [], .zero⟩]], .zero⟩]⟩]⟩

def greetingEnvironment : Environment :=
  ⟨greeting.layout, .default⟩

/-- The observer of a bare world, about to greet. -/
def greetingMachine : Machine where
  world := World.build .default
  streams := .ofMain (.ofSeed 0)
  notices := #[]
  halt := .steady false
  nesting := 0
  context := .resume ⟨.observer, 0, .ofFrame defaultCallDepth ⟨0, #[], 0⟩, 0, none⟩ Streams.main

/-- What is laid out for the one statement, with the value of its argument. -/
def greetingAsk : Instruction where
  command := .ask
  args := [.constant (.agent (.patch 0))]
  next := 1
  offset := 3
  alternate := 0
  switches := false
  position := .zero
  known := some (.agent (.patch 0))

theorem assemble_greeting :
    greeting.assemble (World.build .default) false = .ok greetingEnvironment.program :=
  rfl

/-- The patch prints in both ways, and the register tells them apart. -/
theorem execute_agrees_perform_greeting :
    Agrees (execute greetingEnvironment (toCompletion greetingEnvironment 4) greetingAsk
          greetingMachine)
        (mapFault (bindInstruction greetingEnvironment greetingAsk)
          (perform greetingEnvironment (toCompletion greetingEnvironment 4) greetingAsk)
          greetingMachine)
      ∧ (final (execute greetingEnvironment (toCompletion greetingEnvironment 4) greetingAsk
          greetingMachine)).notices = #[.output "here"]
      ∧ (final (execute greetingEnvironment (toCompletion greetingEnvironment 4) greetingAsk
          greetingMachine)).context.lastReported = .nobody
      ∧ (final (perform greetingEnvironment (toCompletion greetingEnvironment 4) greetingAsk
          greetingMachine)).context.lastReported = .agent (.patch 0) := by
  have hcode : greetingEnvironment.program.procedures[0].code[0]? = some greetingAsk := rfl
  refine ⟨?_, by rfl, by rfl, by rfl⟩
  exact execute_agrees_perform assemble_greeting
    (rfl : greetingEnvironment.program.procedures[0]? = some _) (Array.mem_of_getElem? hcode) _ _ _

end Exec

end Swarm
