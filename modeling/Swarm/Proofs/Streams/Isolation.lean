import Swarm.Proofs.Exec.Effects
import Swarm.Program.Assemble
import Swarm.World.Spec

/-!
# Isolation of random streams

An instruction draws from one stream only, the one that its agent refers to, and leaves the agent
referring to it. A block run with a copy of the main stream moves no stream at all that was there
before: whatever it draws, it draws from the copy, and the copy is gone afterwards.

## Main definitions

* `Streams.OnlyAt`: two stores that agree except at one reference
* `Exec.localStart`, `Exec.localEnd`: the machines between which a block with a copy of the main
  stream runs

## Main results

* `Exec.drawsOwn_effects`: every effect draws from the agent's own stream
* `Exec.withLocalRandomness_eq`: where a block with a copy of the main stream starts and ends
* `Exec.execute_isolates_streams`: an instruction moves its own stream or none
-/

namespace Swarm

namespace Streams

/-- Two stores of the same size that agree except, perhaps, at one reference. -/
structure OnlyAt (r : StreamRef) (ss ss' : Streams) : Prop where
  size_eq : ss'.store.size = ss.store.size
  get_eq : ∀ q, q ≠ r → ss'.get q = ss.get q

theorem OnlyAt.refl (r : StreamRef) (ss : Streams) : OnlyAt r ss ss :=
  ⟨rfl, fun _ _ => rfl⟩

theorem OnlyAt.trans {r : StreamRef} {ss₁ ss₂ ss₃ : Streams} (h₁ : OnlyAt r ss₁ ss₂)
    (h₂ : OnlyAt r ss₂ ss₃) : OnlyAt r ss₁ ss₃ :=
  ⟨h₂.size_eq.trans h₁.size_eq, fun q hq => (h₂.get_eq q hq).trans (h₁.get_eq q hq)⟩

theorem onlyAt_set (ss : Streams) (r : StreamRef) (s : Random.Stream) :
    OnlyAt r ss (ss.set r s) :=
  ⟨by simp [set], fun _ hq => get_set_of_ne ss s hq⟩

/-- Dropping an added stream gives the store back, if nothing else was touched meanwhile. -/
theorem truncate_eq_of_onlyAt_add {ss ss' : Streams} {s : Random.Stream}
    (h : OnlyAt ⟨ss.store.size⟩ (ss.add s).2 ss') : ss'.truncate ss.store.size = ss := by
  have hsize : ss'.store.size = ss.store.size + 1 := by
    rw [h.size_eq]
    simp [add]
  refine eq_of_get_eq ?_ fun q hq => ?_
  · simp [truncate, hsize]
  · have hne : q ≠ ⟨ss.store.size⟩ := by
      rintro rfl
      exact Nat.lt_irrefl _ hq
    rw [get_truncate_of_lt hq, h.get_eq q hne, get_add_of_lt s hq]

end Streams

namespace Exec

/-- The agent refers to the same stream as before, and no other stream was touched. -/
def DrawsOwn (m m' : Machine) : Prop :=
  m'.context.stream = m.context.stream ∧ Streams.OnlyAt m.context.stream m.streams m'.streams

/-- Every effect of an instruction draws from the agent's own stream. -/
theorem drawsOwn_effects : Effects DrawsOwn where
  refl m := ⟨rfl, .refl _ _⟩
  trans h₁ h₂ := ⟨h₂.1.trans h₁.1, h₁.2.trans (h₁.1 ▸ h₂.2)⟩
  registers m _ _ _ _ := ⟨rfl, .refl _ m.streams⟩
  read m := ⟨rfl, .refl _ m.streams⟩
  assign {m} _ _ _ _ := ⟨rfl, .refl _ m.streams⟩
  push {m} _ _ _ := ⟨rfl, .refl _ m.streams⟩
  pop {m} _ _ _ _ := ⟨rfl, .refl _ m.streams⟩
  draw m s := ⟨rfl, Streams.onlyAt_set _ _ s⟩
  write {m} _ _ _ _ _ := ⟨rfl, .refl _ m.streams⟩
  print m _ := ⟨rfl, .refl _ m.streams⟩
  relax m nodes links springs := by
    obtain ⟨w, s, notices, hm⟩ := final_relax nodes links springs m
    rw [hm]
    exact ⟨rfl, Streams.onlyAt_set _ _ s⟩
  remove {m} _ := ⟨rfl, .refl _ m.streams⟩
  spawn m _ := ⟨rfl, Streams.onlyAt_set _ _ _⟩
  -- the enclosing context comes back with the stream that the agent drew from
  agent _ h := ⟨rfl, h.2⟩
  nested h := h
  copy {m m'} h := by
    have hs : (leaveCopy m m').streams = m.streams := Streams.truncate_eq_of_onlyAt_add h.2
    exact ⟨rfl, hs ▸ .refl _ _⟩

-- ════════════════════════════════════════════════════════════════════════
-- Blocks with a copy of the main stream
-- ════════════════════════════════════════════════════════════════════════

/-- The machine in which a block with a copy of the main stream starts. -/
def localStart (i : Instruction) (m : Machine) : Machine :=
  enterAgent m.context.agent i.next ⟨m.streams.store.size⟩ (enterNested (enterCopy m))

/-- The machine after a block with a copy of the main stream. -/
def localEnd (m m' : Machine) : Machine :=
  leaveCopy m (leaveNested (enterCopy m) (leaveAgent (enterNested (enterCopy m)) m'))

/-- The block draws what the main stream would have given. -/
theorem stream_localStart (i : Instruction) (m : Machine) :
    (localStart i m).streams.get (localStart i m).context.stream = m.streams.get Streams.main :=
  Streams.get_add_self m.streams (m.streams.get Streams.main)

/-- A live agent below the limit of nesting runs the block from `localStart` on. -/
theorem withLocalRandomness_eq {env : Environment} (run : Exec Unit) (i : Instruction)
    {m : Machine} (nesting : m.nesting < env.limits.nesting)
    (alive : m.world.isAlive m.context.agent = true) :
    withLocalRandomness env run i m =
      (within (localStart i) localEnd run >>= fun _ => goto i.offset) m := by
  have hnesting : (enterCopy m).nesting < env.limits.nesting := nesting
  have halive : (enterCopy m).world.isAlive m.context.agent = true := alive
  rw [withLocalRandomness, context_bind, bind_apply, bind_apply, withStreamCopy_eq, within,
    runExclusive_ofAgent run i.next _ hnesting halive]
  simp only [within, settle_settle]
  rfl

/-- A block with a copy of the main stream moves no stream. -/
theorem streams_withLocalRandomness {run : Exec Unit} (hrun : Keeps DrawsOwn run)
    (env : Environment) (i : Instruction) (m : Machine) :
    (final (withLocalRandomness env run i m)).streams = m.streams := by
  have hblock : (final (withStreamCopy (fun copy =>
      runExclusive env run (.ofAgent m.context.agent) i.next copy) m)).streams = m.streams := by
    rw [withStreamCopy_eq, within, final_settle]
    exact Streams.truncate_eq_of_onlyAt_add
      (drawsOwn_effects.keeps_runExclusive hrun env _ i.next (enterCopy m)).2
  rw [withLocalRandomness, context_bind, bind_apply]
  cases hr : withStreamCopy (fun copy =>
      runExclusive env run (.ofAgent m.context.agent) i.next copy) m with
  | ok _ m' =>
    rw [hr] at hblock
    exact hblock
  | error e m' =>
    rw [hr] at hblock
    exact hblock

/-- Whatever the program, the instruction and the machine, and however the instruction ends: the
agent refers to the same stream afterwards, and no other stream of the store has moved. An
instruction that runs its block with a copy of the main stream moves no stream at all, and the
block starts with the copy in the state in which the main stream is. -/
theorem execute_isolates_streams (env : Environment) (fuel : Nat) (i : Instruction) (m : Machine) :
    let after := final (execute env (toCompletion env fuel) i m)
    after.context.stream = m.context.stream
      ∧ after.streams.store.size = m.streams.store.size
      ∧ (∀ q, q ≠ m.context.stream → after.streams.get q = m.streams.get q)
      ∧ (i.command = .withLocalRandomness → after.streams = m.streams)
      ∧ (localStart i m).streams.get (localStart i m).context.stream = m.streams.get Streams.main
      ∧ (i.command = .withLocalRandomness → i.known = none → m.nesting < env.limits.nesting →
          m.world.isAlive m.context.agent = true → ∀ run,
          execute env run i m = mapFault (bindInstruction env i)
            (within (localStart i) localEnd run >>= fun _ => goto i.offset) m) := by
  have hrun : Keeps DrawsOwn (toCompletion env fuel) := drawsOwn_effects.toCompletion env fuel
  obtain ⟨hstream, honly⟩ := drawsOwn_effects.execute hrun env i m
  refine ⟨hstream, honly.size_eq, honly.get_eq, fun hc => ?_, stream_localStart i m,
    fun hc hk nesting alive run => ?_⟩
  · rw [execute, final_mapFault]
    cases hk : i.known with
    | some v =>
      -- a known argument is handed to a command that takes none, which fails at once
      simp only [performUnary, hc]
      rfl
    | none =>
      simp only [perform, hc]
      exact streams_withLocalRandomness hrun env i m
  · rw [execute, hk, mapFault, mapFault]
    have hp : perform env run i = withLocalRandomness env run i := by
      simp only [perform, hc]
      rfl
    dsimp only
    rw [hp, withLocalRandomness_eq run i nesting alive]

/-- A program that tosses a coin with a copy of the main stream, and prints how it fell. -/
def coin : Program :=
  ProgramDef.layout ⟨[.ofBody "go"
    [⟨.withLocalRandomness, [],
      [[⟨.print, [⟨.oneOf, [.constant (.list [.boolean true, .boolean false])], .zero⟩], [], .zero⟩]],
      .zero⟩]]⟩

/-- The observer of a bare world, about to run the first instruction of a program. -/
def observerMachine (s : Random.Stream) : Machine where
  world := World.build .default
  streams := .ofMain s
  notices := #[]
  halt := .steady false
  nesting := 0
  context := .resume ⟨.observer, 0, .ofFrame defaultCallDepth (.fresh 0 0 0), 1, none⟩ Streams.main

/-- The coin is tossed: the copy has moved, and the main stream is where it was. -/
theorem execute_isolates_streams_observer :
    let env : Environment := ⟨coin, .default⟩
    let m := observerMachine (.ofSeed 1)
    ∃ i, env.program.instruction 0 0 = .ok i ∧ i.command = .withLocalRandomness
      ∧ (let inside := final (toCompletion env 3 (localStart i m))
        inside.notices.size = 1 ∧ inside.streams.get ⟨1⟩ ≠ m.streams.get Streams.main)
      ∧ (final (execute env (toCompletion env 3) i m)).notices.size = 1
      ∧ (final (execute env (toCompletion env 3) i m)).streams = m.streams
      ∧ execute env (toCompletion env 3) i m = mapFault (bindInstruction env i)
        (within (localStart i) localEnd (toCompletion env 3) >>= fun _ => goto i.offset) m := by
  intro env m
  obtain ⟨i, hi, hc, hk, hinside, hnotices⟩ : ∃ i, env.program.instruction 0 0 = .ok i
      ∧ i.command = .withLocalRandomness ∧ i.known = none
      ∧ (let inside := final (toCompletion env 3 (localStart i m))
        inside.notices.size = 1 ∧ inside.streams.get ⟨1⟩ ≠ m.streams.get Streams.main)
      ∧ (final (execute env (toCompletion env 3) i m)).notices.size = 1 :=
    ⟨_, rfl, rfl, rfl, by decide +kernel, by decide +kernel⟩
  obtain ⟨_, _, _, hstreams, _, hblock⟩ := execute_isolates_streams env 3 i m
  exact ⟨i, hi, hc, hinside, hnotices, hstreams hc,
    hblock hc hk (by decide) (by decide) (toCompletion env 3)⟩

end Exec

end Swarm
