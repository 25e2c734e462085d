import Swarm.Proofs.Tree.Simulation

/-!
# The regions of constructs

Assembly lays a construct out as a region that starts with its owner. Given that the regions of the
blocks do what the blocks do, the region of the construct does what the construct does.

## Main definitions

* `Program.Holds`: code at a place of a procedure

## Main results

* `Tree.simulates_ifThen`, `Tree.simulates_whileTrue`, `Tree.simulates_repeatTimes`,
  `Tree.simulates_nested`, `Tree.simulates_ifElse`, `Tree.simulates_carefully`: the constructs
-/

namespace Swarm

/-- The code of a procedure from the place `start` on begins with the given instructions. -/
def Program.Holds (program : Program) (procedure start : Nat) (code : List Instruction) : Prop :=
  ∀ k i, code[k]? = some i → program.instruction procedure (start + k) = .ok i

namespace Program.Holds

variable {program : Program} {procedure start : Nat} {code rest : List Instruction}
  {i : Instruction}

theorem head (h : program.Holds procedure start (i :: code)) :
    program.instruction procedure start = .ok i :=
  h 0 i rfl

theorem tail (h : program.Holds procedure start (i :: code)) :
    program.Holds procedure (start + 1) code := by
  intro k j hk
  have hj := h (k + 1) j hk
  rwa [show start + (k + 1) = start + 1 + k by omega] at hj

theorem left (h : program.Holds procedure start (code ++ rest)) :
    program.Holds procedure start code := by
  intro k j hk
  have hlt : k < code.length := (List.getElem?_eq_some_iff.1 hk).1
  exact h k j (by rw [List.getElem?_append_left hlt, hk])

theorem right (h : program.Holds procedure start (code ++ rest)) :
    program.Holds procedure (start + code.length) rest := by
  intro k j hk
  have hj := h (code.length + k) j (by rw [List.getElem?_append_right (by omega)]; simpa using hk)
  rwa [← Nat.add_assoc] at hj

end Program.Holds

/-- An owner has what its command needs if the command's instruction has. -/
theorem Instruction.Fits.owning {sc : Scope} {i : Instruction} (h : i.Fits sc)
    (resume alternate : Nat) (blocks : List Instruction) :
    (i.owning resume alternate blocks).Fits sc :=
  ⟨h.exprs, h.unary, h.springs, h.callee, h.variableSlot, h.localSlot, h.known⟩

namespace Tree

open Swarm.Exec

variable {β : Type} {env : Environment} {sc : Scope} {n procedure start : Nat}
  {owner : Instruction} {block first second : Nat → List Instruction} {tree other : Exec Exit}

/-- An instruction with one argument. -/
theorem Simulates.unary {stop : Nat} {i : Instruction} {effect' : Value → Exec β}
    {k : β → Exec Exit} (effect : Exec Unit → Value → Exec β) (target : β → Nat)
    (hi : env.program.instruction procedure start = .ok i)
    (hfits : i.Fits sc) (hunary : i.command.isUnary = true)
    (hperform : ∀ run v, performUnary env run i v = (effect run v >>= fun b => goto (target b)))
    (heffect : ∀ {m t : Machine} (v : Value), m.core = t.core → m.halt.upcoming = [] →
      m.context.procedure = procedure →
      Approaches n (Calm m) (fun j => effect (toCompletion env j) v m) (effect' v t))
    (hk : ∀ b, Simulates env n procedure (target b) stop (k b)) :
    Simulates env (n + 1) procedure start stop
      (located env i.command i.position (evaluateAt env i.args 0 >>= effect') >>= k) := by
  refine Simulates.step (X := fun j => located env i.command i.position
    (argument env i >>= effect (toCompletion env j))) target hi
    (fun j => execute_of_performUnary hunary (hperform (toCompletion env j)))
    (fun hcore untouched hp => Approaches.located _ _ ?_) hk
  apply (approaches_argument hfits hcore).bind
  intro v m' t' hcore' hs
  exact heffect v hcore' (hs.untouched untouched) (hs.procedure.trans hp)

/-- The test that an instruction makes with its argument. -/
def instructionTest (env : Environment) (i : Instruction) : Exec Bool :=
  located env i.command i.position
    (argument env i >>= fun v => ofExcept (Argument.boolean i.command.token v))

theorem execute_of_branch {i : Instruction} {otherwise : Nat} (hunary : i.command.isUnary = true)
    (hperform : ∀ run v, performUnary env run i v = branch i v otherwise) (run : Exec Unit) :
    execute env run i = (instructionTest env i >>= fun b => goto (if b then i.next else otherwise)) :=
  execute_of_performUnary hunary fun v => (hperform run v).trans (branch_goto v otherwise)

theorem approaches_test {i : Instruction} {m t : Machine} (hfits : i.Fits sc)
    (hcore : m.core = t.core) :
    Approaches n (Calm m) (fun _ => instructionTest env i m)
      (test env i.command i.args i.position t) := by
  apply Approaches.located (X := fun _ => argument env i >>= _) _ _
  apply (approaches_argument hfits hcore).bind
  intro v m' t' hcore' _
  exact .of_blind (blind_ofExcept _) hcore'

/-- A test that leads to one of two places. -/
theorem Simulates.test {stop : Nat} {i : Instruction} {k : Bool → Exec Exit} {otherwise : Nat}
    (hi : env.program.instruction procedure start = .ok i)
    (hfits : i.Fits sc) (hunary : i.command.isUnary = true)
    (hperform : ∀ run v, performUnary env run i v = branch i v otherwise)
    (hyes : Simulates env n procedure i.next stop (k true))
    (hno : Simulates env n procedure otherwise stop (k false)) :
    Simulates env (n + 1) procedure start stop
      (test env i.command i.args i.position >>= k) := by
  refine Simulates.step (X := fun _ => instructionTest env i)
    (fun b : Bool => if b then i.next else otherwise) hi
    (fun j => execute_of_branch hunary hperform _) (fun hcore _ _ => approaches_test hfits hcore)
    fun b => ?_
  cases b
  · exact hno
  · exact hyes

theorem andThen_normal (x : Exec Exit) : andThen x (return .normal) = x := by
  funext m
  rw [andThen, bind_apply]
  rcases x m with ⟨_ | _ | _, m'⟩ | ⟨e, m'⟩ <;> rfl

section OneBlock

variable (hfits : owner.Fits sc) (hnext : owner.next = start + 1)
  (hcode : env.program.Holds procedure start (oneBlock owner start block))
  (hblock : ∀ place, env.program.Holds procedure place (block place) →
    Simulates env n procedure place (place + (block place).length) tree)
include hfits hnext hcode hblock

theorem simulates_ifThen (hc : owner.command = .ifThen) :
    Simulates env (n + 1) procedure start (start + (oneBlock owner start block).length)
      (test env owner.command owner.args owner.position >>= fun b =>
        if b then tree else return .normal) := by
  have hregion : oneBlock owner start block
      = owner.owning (start + 1 + (block (start + 1)).length) 0 (block (start + 1))
        :: block (start + 1) := by
    simp only [oneBlock, hc]
  have hstop : start + (oneBlock owner start block).length
      = start + 1 + (block (start + 1)).length := by
    rw [hregion, List.length_cons]
    omega
  have hunary : owner.command.isUnary = true := by
    rw [hc]
    rfl
  rw [hregion] at hcode
  rw [hstop]
  refine Simulates.test (i := owner.owning _ _ _) hcode.head (hfits.owning _ _ _) hunary
    (fun run v => ?_) ?_ .nil
  · simp only [performUnary, Instruction.owning, hc]
  · show Simulates env n procedure owner.next _ tree
    rw [hnext]
    exact hblock (start + 1) hcode.tail

theorem simulates_whileTrue (hc : owner.command = .whileTrue) :
    Simulates env (n + 1) procedure start (start + (oneBlock owner start block).length)
      (loop (test env owner.command owner.args owner.position) tree (n + 1)) := by
  have hregion : oneBlock owner start block
      = owner.owning (start + 1 + (block (start + 1)).length + 1) 0 (block (start + 1))
        :: (block (start + 1)
          ++ [.jump owner.position (start + 1 + (block (start + 1)).length) start]) := by
    simp only [oneBlock, hc]
  have hstop : start + (oneBlock owner start block).length
      = start + 1 + (block (start + 1)).length + 1 := by
    rw [hregion, List.length_cons, List.length_append, List.length_singleton]
    omega
  have hunary : owner.command.isUnary = true := by
    rw [hc]
    rfl
  rw [hregion] at hcode
  rw [hstop]
  have hperform (i : Instruction) (hi : i.command = .whileTrue) (run : Exec Unit) (v : Value) :
      performUnary env run i v = branch i v i.offset := by
    simp only [performUnary, hi]
  have hbody : Simulates env n procedure owner.next (start + 1 + (block (start + 1)).length) tree := by
    rw [hnext]
    exact hblock (start + 1) hcode.tail.left
  exact Simulates.loop hcode.head
    (fun j => execute_of_branch (i := owner.owning _ _ _) hunary (hperform _ hc) _)
    (fun hcore => approaches_test (i := owner.owning _ _ _) (hfits.owning _ _ _) hcore) hbody
    hcode.tail.right.head rfl rfl rfl (n + 1) (Nat.le_refl _)

theorem simulates_repeatTimes {slot : Nat} (hc : owner.command = .repeatTimes slot) :
    Simulates env (n + 1) procedure start (start + (oneBlock owner start block).length)
      (located env owner.command owner.position (evaluateAt env owner.args 0 >>= fun v =>
        startCount slot owner.command.token v) >>= fun _ =>
        loop (located env (.repeatCheck slot) owner.position (countPass unspent slot)) tree
          (n + 1)) := by
  have hregion : oneBlock owner start block
      = owner.owning (start + 2 + (block (start + 2)).length + 1) 0 (block (start + 2))
        :: .loopHead slot owner.position (start + 1) (start + 2 + (block (start + 2)).length + 1)
        :: (block (start + 2)
          ++ [.jump owner.position (start + 2 + (block (start + 2)).length) (start + 1)]) := by
    simp only [oneBlock, hc]
  have hstop : start + (oneBlock owner start block).length
      = start + 2 + (block (start + 2)).length + 1 := by
    rw [hregion, List.length_cons, List.length_cons, List.length_append, List.length_singleton]
    omega
  have hunary : owner.command.isUnary = true := by
    rw [hc]
    rfl
  rw [hregion] at hcode
  rw [hstop]
  -- the head of the loop counts a pass and goes on with the body or after the loop
  have hhead (j : Nat) : execute env (toCompletion env j)
      (.loopHead slot owner.position (start + 1) (start + 2 + (block (start + 2)).length + 1))
      = (located env (.repeatCheck slot) owner.position (countPass unspent slot) >>= fun b =>
        goto (if b then start + 2 else start + 2 + (block (start + 2)).length + 1)) := by
    refine execute_of_perform (i := .loopHead slot owner.position (start + 1) _)
      (fun b : Bool => if b then start + 2
        else start + 2 + (block (start + 2)).length + 1)
      rfl ?_
    exact countDown_goto (i := .loopHead slot owner.position (start + 1)
      (start + 2 + (block (start + 2)).length + 1)) slot
  have hloop := Simulates.loop hcode.tail.head hhead
    (fun hcore => Approaches.located (X := fun _ => countPass unspent slot) _ _
      (.of_blind (blind_countPass unspent slot) hcore))
    (hblock (start + 2) hcode.tail.tail.left) hcode.tail.tail.right.head rfl rfl rfl
    (n + 1) (Nat.le_refl _)
  refine Simulates.unary (i := owner.owning _ _ _)
    (fun _ v => startCount slot owner.command.token v) (fun _ => owner.next) hcode.head
    (hfits.owning _ _ _) hunary
    (fun run v => performUnary_repeatTimes (i := owner.owning _ _ _) hc v)
    (fun v hcore _ _ => .of_blind (blind_startCount slot _ v) hcore) fun _ => ?_
  rw [hnext]
  exact hloop.mono (by omega)

end OneBlock

section Nested

variable {run : List Statement → Exec Exit} {b : List Statement}
  (hnext : owner.next = start + 1)
  (hcode : env.program.Holds procedure start (oneBlock owner start block))
  (hblock : ∀ place, env.program.Holds procedure place (block place) →
    Simulates env n procedure place (place + (block place).length) (run b))
include hnext hcode hblock

/-- The region of a construct that runs its block as a nested job: the owner at its start, the
block of each agent, and where it resumes. -/
theorem nested_region (hc : owner.command = .ask ∨ owner.command = .createTurtles
      ∨ owner.command = .withLocalRandomness) :
    ∃ blocks, env.program.instruction procedure start
        = .ok (owner.owning (start + (oneBlock owner start block).length) 0 blocks)
      ∧ RunsAs env n procedure owner.next (agentBlock run b) := by
  have hregion : oneBlock owner start block
      = owner.owning (start + 1 + (block (start + 1)).length + 1) 0 (block (start + 1))
        :: (block (start + 1)
          ++ [.mark owner.position (start + 1 + (block (start + 1)).length)]) := by
    rcases hc with hc | hc | hc <;> simp only [oneBlock, hc]
  have hstop : start + (oneBlock owner start block).length
      = start + 1 + (block (start + 1)).length + 1 := by
    rw [hregion, List.length_cons, List.length_append, List.length_singleton]
    omega
  rw [hregion] at hcode
  refine ⟨block (start + 1), ?_, ?_⟩
  · rw [hstop]
    exact hcode.head
  · rw [hnext]
    exact runsAs_agentBlock (hblock (start + 1) hcode.tail.left) hcode.tail.right.head
      (.inl rfl) rfl

theorem simulates_ask (hfits : owner.Fits sc) (hc : owner.command = .ask) :
    Simulates env (n + 1) procedure start (start + (oneBlock owner start block).length)
      (located env owner.command owner.position (evaluateAt env owner.args 0 >>= fun v =>
        ask env (agentBlock run b) 0 owner.command.token v) >>= fun _ =>
        return .normal) := by
  obtain ⟨blocks, hi, hrun⟩ := nested_region hnext hcode hblock (.inl hc)
  have hunary : owner.command.isUnary = true := by
    rw [hc]
    rfl
  refine Simulates.unary (i := owner.owning _ _ _)
    (fun run v => ask env run owner.next owner.command.token v)
    (fun _ => start + (oneBlock owner start block).length) hi (hfits.owning _ _ _)
    hunary (fun run v => ?_)
    (fun v hcore untouched hp => approaches_ask hrun hcore untouched hp _ v) fun _ => .nil
  rw [performUnary]
  simp only [Instruction.owning, hc]
  exact ask_goto v

theorem simulates_createTurtles (hfits : owner.Fits sc) (hc : owner.command = .createTurtles) :
    Simulates env (n + 1) procedure start (start + (oneBlock owner start block).length)
      (located env owner.command owner.position (evaluateAt env owner.args 0 >>= fun v =>
        createTurtles env (agentBlock run b) 0 owner.command.token v) >>= fun _ =>
        return .normal) := by
  obtain ⟨blocks, hi, hrun⟩ := nested_region hnext hcode hblock (.inr (.inl hc))
  have hunary : owner.command.isUnary = true := by
    rw [hc]
    rfl
  refine Simulates.unary (i := owner.owning _ _ _)
    (fun run v => createTurtles env run owner.next owner.command.token v)
    (fun _ => start + (oneBlock owner start block).length) hi (hfits.owning _ _ _)
    hunary (fun run v => ?_)
    (fun v hcore untouched hp => approaches_createTurtles hrun hcore untouched hp _ v)
    fun _ => .nil
  rw [performUnary]
  simp only [Instruction.owning, hc]
  exact createTurtles_goto v

theorem simulates_withLocalRandomness (hc : owner.command = .withLocalRandomness)
    (hk : owner.known = none) :
    Simulates env (n + 1) procedure start (start + (oneBlock owner start block).length)
      (located env owner.command owner.position
        (withLocalRandomness env (agentBlock run b) 0) >>= fun _ => return .normal) := by
  obtain ⟨blocks, hi, hrun⟩ := nested_region hnext hcode hblock (.inr (.inr hc))
  refine Simulates.step (i := owner.owning _ _ _)
    (X := fun j => located env owner.command owner.position
      (withLocalRandomness env (toCompletion env j) owner.next))
    (fun _ => start + (oneBlock owner start block).length) hi
    (fun j => execute_of_perform (i := owner.owning _ _ _) _ hk ?_)
    (fun hcore untouched hp =>
      (approaches_withLocalRandomness hrun hcore untouched hp).located _ _) fun _ => .nil
  rw [perform]
  simp only [Instruction.owning, hc]
  exact withLocalRandomness_goto

end Nested

section TwoBlocks

variable (hnext : owner.next = start + 1)
  (hcode : env.program.Holds procedure start (twoBlocks owner start first second))
include hnext hcode

/-- The region of a construct with two blocks: the owner, the first block and what is between the
blocks, and the second block, after which the construct resumes. -/
theorem twoBlocks_region :
    ∃ blocks stop between, env.program.instruction procedure start
        = .ok (owner.owning (start + (twoBlocks owner start first second).length) (stop + 1) blocks)
      ∧ env.program.Holds procedure owner.next (first owner.next)
      ∧ owner.next + (first owner.next).length = stop
      ∧ env.program.instruction procedure stop = .ok between
      ∧ (owner.command = .ifElse → between
        = .jump owner.position stop (start + (twoBlocks owner start first second).length))
      ∧ (owner.command = .carefully → between = .mark owner.position stop)
      ∧ env.program.Holds procedure (stop + 1) (second (stop + 1))
      ∧ stop + 1 + (second (stop + 1)).length
        = start + (twoBlocks owner start first second).length := by
  have hstop : start + (twoBlocks owner start first second).length
      = start + 1 + (first (start + 1)).length + 1
        + (second (start + 1 + (first (start + 1)).length + 1)).length := by
    simp only [twoBlocks, List.length_cons, List.length_append]
    omega
  rw [hstop, hnext]
  refine ⟨_, start + 1 + (first (start + 1)).length, _, hcode.head, hcode.tail.left, rfl,
    hcode.tail.right.head, fun hc => ?_, fun hc => ?_, hcode.tail.right.tail, rfl⟩
  · simp only [hc]
  · simp only [hc]

theorem simulates_ifElse (hfits : owner.Fits sc)
    (hc : owner.command = .ifElse)
    (hfirst : ∀ place, env.program.Holds procedure place (first place) →
      Simulates env n procedure place (place + (first place).length) tree)
    (hsecond : ∀ place, env.program.Holds procedure place (second place) →
      Simulates env n procedure place (place + (second place).length) other) :
    Simulates env (n + 1) procedure start (start + (twoBlocks owner start first second).length)
      (test env owner.command owner.args owner.position >>= fun b => if b then tree else other) := by
  obtain ⟨blocks, stop, between, hi, hone, hmiddle, hjump, hbetween, _, htwo, hresume⟩ :=
    twoBlocks_region hnext hcode
  obtain rfl := hbetween hc
  have hunary : owner.command.isUnary = true := by
    rw [hc]
    rfl
  have hother := hsecond (stop + 1) htwo
  have hbody := hfirst owner.next hone
  rw [hresume] at hother
  rw [hmiddle] at hbody
  refine Simulates.test (i := owner.owning _ _ _) hi (hfits.owning _ _ _) hunary
    (fun run v => ?_) ?_ hother
  · simp only [performUnary, Instruction.owning, hc]
  · -- the first block falls through to the jump over the second one
    have hover := hbody.andThen (Simulates.jump hjump rfl rfl .nil)
    rwa [andThen_normal] at hover

theorem simulates_carefully {run : List Statement → Exec Exit} {b : List Statement}
    (hc : owner.command = .carefully) (hk : owner.known = none)
    (hfirst : ∀ place, env.program.Holds procedure place (first place) →
      Simulates env n procedure place (place + (first place).length) (run b))
    (hsecond : ∀ place, env.program.Holds procedure place (second place) →
      Simulates env n procedure place (place + (second place).length) other) :
    Simulates env (n + 1) procedure start (start + (twoBlocks owner start first second).length)
      (located env owner.command owner.position (carefully env (agentBlock run b) 0) >>=
        fun caught => if caught then other else return .normal) := by
  obtain ⟨blocks, stop, between, hi, hone, hmiddle, hmark, _, hbetween, htwo, hresume⟩ :=
    twoBlocks_region hnext hcode
  obtain rfl := hbetween hc
  have hother := hsecond (stop + 1) htwo
  have hbody := hfirst owner.next hone
  rw [hresume] at hother
  rw [hmiddle] at hbody
  have hrun : RunsAs env n procedure owner.next (agentBlock run b) :=
    runsAs_agentBlock hbody hmark (.inl rfl) rfl
  refine Simulates.step (i := owner.owning _ _ _)
    (X := fun j => located env owner.command owner.position
      (carefully env (toCompletion env j) owner.next))
    (fun caught : Bool => if caught then stop + 1
      else start + (twoBlocks owner start first second).length) hi
    (fun j => execute_of_perform (i := owner.owning _ _ _) _ hk ?_)
    (fun hcore untouched hp => (approaches_carefully hrun hcore untouched hp).located _ _)
    fun caught => ?_
  · rw [perform]
    simp only [Instruction.owning, hc]
    exact carefully_goto
  · cases caught
    · exact .nil
    · exact hother

end TwoBlocks

end Tree

end Swarm
