import Swarm.Proofs.Exec.Scope
import Swarm.Proofs.World.Links
import Swarm.Proofs.World.Liveness

/-!
# Writing a variable

A write passes four checks, in this order: the table of the agent's kind has the slot, the slot is
not the number of a turtle, the agent is there and lives, and the domain of the variable takes the
value. What is stored is what the domain made of the value. A write that is taken changes this one
slot and is told once; one that is not taken changes nothing.

## Main definitions

* `World.Writable`: the slots that a program may write
* `World.Takes`: the four checks, and the value that is stored
* `Exec.writeReadingBack`: a write that tells what it reads back from the world
* `Exec.Written`: what a write leaves

## Main results

* `World.accept_eq_ok_iff`: a write is accepted if and only if the world takes it
* `World.kind_of_accept_error`: it fails for the death of the agent only in a slot that may be
  written
* `Exec.writeReadingBack_apply`: reading back never fails and finds what was stored
* `Exec.writeVariable_exact`: writes are exact and atomic
-/

namespace Swarm

/-- A domain refuses a value for what the value is. -/
theorem Domain.failsWith_stored (d : Domain) (name : String) (v : Value) :
    Except.FailsWith (fun f : Fault => f.kind = .agentValidation) (d.stored name v) := by
  unfold Domain.stored
  dsimp only
  split
  · exact Except.failsWith_ok _
  · exact Except.failsWith_ok _
  · split
    · exact Except.failsWith_error rfl
    · split
      · exact Except.failsWith_error rfl
      · exact Except.failsWith_ok _
  · exact Except.failsWith_ok _
  · exact Except.failsWith_ok _
  · exact Except.failsWith_ok _
  · split
    · exact Except.failsWith_ok _
    · exact Except.failsWith_error rfl
  all_goals exact Except.failsWith_error rfl

namespace World

/-- The table of the agent's kind has the slot, and it is not the number of a turtle. -/
def Writable (w : World) (a : AgentRef) (slot : Nat) : Prop :=
  slot < (w.table a.kind).size ∧ ¬ (a.kind = .turtle ∧ slot = whoSlot)

/-- The slot is declared and may be written, the agent is there and lives, and the domain makes
`stored` of the value. -/
def Takes (w : World) (a : AgentRef) (slot : Nat) (v stored : Value) : Prop :=
  ∃ x, (w.table a.kind)[slot]? = some x ∧ ¬ (a.kind = .turtle ∧ slot = whoSlot)
    ∧ w.isAlive a = true ∧ x.domain.stored x.name v = .ok stored

variable {w : World} {a b : AgentRef} {slot other : Nat} {v stored : Value}

-- ════════════════════════════════════════════════════════════════════════
-- The checks
-- ════════════════════════════════════════════════════════════════════════

theorem accept_eq_ok_iff : w.accept a slot v = .ok stored ↔ w.Takes a slot v stored := by
  constructor
  · intro h
    obtain ⟨x, r, hx, hr, halive, hstored⟩ := accept_eq_ok h
    refine ⟨x, hx, fun hwho => ?_, isAlive_iff.2 ⟨r, hr, halive⟩, hstored⟩
    rw [accept, hx] at h
    dsimp only at h
    rw [if_pos hwho] at h
    cases h
  · rintro ⟨x, hx, hwho, halive, hstored⟩
    obtain ⟨r, hr, halive⟩ := isAlive_iff.1 halive
    rw [accept, hx]
    dsimp only
    rw [if_neg hwho, live_of_record? hr halive]
    exact hstored

/-- A write fails for the death of the agent exactly if the slot may be written and the agent has
died, whatever the value. -/
theorem kind_of_accept_error {f : Fault} (h : w.accept a slot v = .error f) :
    f.kind = .agentDead ↔ w.Writable a slot ∧ w.Dead a := by
  rw [accept] at h
  cases hx : (w.table a.kind)[slot]? with
  | none =>
    rw [hx] at h
    cases h
    have hout : ¬ slot < (w.table a.kind).size := by simpa using hx
    exact ⟨by rintro ⟨⟩, fun hdead => absurd hdead.1.1 hout⟩
  | some x =>
    have hin : slot < (w.table a.kind).size := (Array.getElem?_eq_some_iff.1 hx).1
    rw [hx] at h
    dsimp only at h
    split at h
    · next hwho =>
      cases h
      exact ⟨by rintro ⟨⟩, fun hdead => absurd hwho hdead.1.2⟩
    · next hwho =>
      rw [live] at h
      cases hr : w.record? a with
      | none =>
        rw [hr] at h
        cases h
        refine ⟨by rintro ⟨⟩, ?_⟩
        rintro ⟨-, r, hdead, -⟩
        cases hr.symm.trans hdead
      | some r =>
        rw [hr] at h
        dsimp only at h
        by_cases halive : r.alive = true
        · rw [if_pos halive] at h
          have hkind : f.kind = .agentValidation := Domain.failsWith_stored _ _ _ f h
          rw [hkind]
          refine ⟨by rintro ⟨⟩, ?_⟩
          rintro ⟨-, r', hr', hdead⟩
          cases hr.symm.trans hr'
          cases hdead.symm.trans halive
        · rw [if_neg halive] at h
          cases h
          exact ⟨fun _ => ⟨⟨hin, hwho⟩, r, hr, by simpa using halive⟩, fun _ => rfl⟩

-- ════════════════════════════════════════════════════════════════════════
-- The change
-- ════════════════════════════════════════════════════════════════════════

/-- The value stored can be read back. -/
theorem getVariable_store (h : w.Regular) (htakes : w.Takes a slot v stored) :
    (w.store a slot stored).getVariable a slot = .ok stored := by
  obtain ⟨x, hx, -, halive, -⟩ := htakes
  obtain ⟨r, hr, halive⟩ := isAlive_iff.1 halive
  have hslot : slot < r.values.size := h a r hr ▸ (Array.getElem?_eq_some_iff.1 hx).1
  have hput : (w.store a slot stored).record? a = some (r.put slot stored) := by
    rw [record?_store, if_pos rfl, hr]
    rfl
  have hsize : slot < (r.put slot stored).values.size := (r.size_put slot stored).symm ▸ hslot
  -- what is read is what the slot holds
  obtain ⟨v, hread, hholds⟩ := getVariable_of_record? hput halive hsize
  rw [stored?, hput, Option.bind_some, Record.getElem?_put_self stored hslot] at hholds
  rw [hread, Option.some.inj hholds]

/-- Other slots hold what they held. -/
theorem stored?_store_of_ne (h : (b, other) ≠ (a, slot)) :
    (w.store a slot v).stored? b other = w.stored? b other := by
  rw [stored?, stored?, record?_store]
  by_cases hb : b = a
  · subst hb
    have hother : other ≠ slot := fun hslot => h (by rw [hslot])
    rw [if_pos rfl]
    cases w.record? b with
    | none => rfl
    | some r => exact Record.getElem?_put_of_ne r v hother
  · rw [if_neg hb]

/-- The same agents are there, each as alive as before. -/
theorem alive_store (w : World) (a : AgentRef) (slot : Nat) (v : Value) (b : AgentRef) :
    ((w.store a slot v).record? b).map Record.alive = (w.record? b).map Record.alive := by
  rw [record?_store]
  by_cases hb : b = a
  · rw [if_pos hb, hb, Option.map_map]
    rfl
  · rw [if_neg hb]

end World

namespace Exec

-- ════════════════════════════════════════════════════════════════════════
-- Writes of a machine
-- ════════════════════════════════════════════════════════════════════════

/-- Write a variable, read it back from the changed world, and tell observers what was read. -/
def writeReadingBack (a : AgentRef) (slot : Nat) (v : Value) : Exec Unit := do
  let w ← ofExcept ((← get).world.setVariable a slot v)
  modify fun m => { m with world := w }
  let stored ← ofExcept (w.getVariable a slot)
  notify (.changed a slot stored)

/-- What a write of `stored` leaves: the slot holds it and observers were told so once. All other
slots, who lives, and all else in the machine is as it was. -/
structure Written (m : Machine) (a : AgentRef) (slot : Nat) (stored : Value) (m' : Machine) :
    Prop where
  read : m'.world.getVariable a slot = .ok stored
  others : ∀ b other, (b, other) ≠ (a, slot) → m'.world.stored? b other = m.world.stored? b other
  alive : ∀ b, (m'.world.record? b).map Record.alive = (m.world.record? b).map Record.alive
  told : m'.notices = m.notices.push (.changed a slot stored)
  frame : m' = { m with
    world := { m.world with records := m'.world.records }
    notices := m'.notices }

variable {m : Machine} {a : AgentRef} {slot : Nat} {v stored : Value}

theorem writeVariable_of_takes (h : m.world.Takes a slot v stored) :
    writeVariable a slot v m = .ok () { m with
      world := m.world.store a slot stored
      notices := m.notices.push (.changed a slot stored) } := by
  rw [writeVariable, get_bind, World.accept_eq_ok_iff.2 h]
  rfl

theorem writeVariable_of_error {f : Fault} (h : m.world.accept a slot v = .error f) :
    writeVariable a slot v m = .error (.fault f) m := by
  rw [writeVariable, get_bind, h]
  rfl

theorem accept_of_writeVariable {m' : Machine} (h : writeVariable a slot v m = .ok () m') :
    ∃ stored, m.world.accept a slot v = .ok stored := by
  cases haccept : m.world.accept a slot v with
  | error f => cases (writeVariable_of_error haccept).symm.trans h
  | ok stored => exact ⟨stored, rfl⟩

/-- Reading back what was written never fails, and finds what was stored. -/
theorem writeReadingBack_apply (h : m.world.Regular) (a : AgentRef) (slot : Nat) (v : Value) :
    writeReadingBack a slot v m = writeVariable a slot v m := by
  rw [writeReadingBack, get_bind, World.setVariable]
  cases haccept : m.world.accept a slot v with
  | error f =>
    rw [writeVariable_of_error haccept]
    rfl
  | ok stored =>
    have htakes := World.accept_eq_ok_iff.1 haccept
    have hread := World.getVariable_store h htakes
    rw [writeVariable_of_takes htakes]
    show (ofExcept ((m.world.store a slot stored).getVariable a slot) >>= fun stored =>
      notify (.changed a slot stored)) { m with world := m.world.store a slot stored } = _
    rw [hread]
    rfl

theorem written_of_takes (h : m.world.Regular) (htakes : m.world.Takes a slot v stored) :
    Written m a slot stored { m with
      world := m.world.store a slot stored
      notices := m.notices.push (.changed a slot stored) } where
  read := World.getVariable_store h htakes
  others _ _ hne := World.stored?_store_of_ne hne
  alive b := World.alive_store m.world a slot stored b
  told := rfl
  frame := rfl

/-- A write succeeds if and only if the world takes it, and then changes one slot and tells of it
once. Otherwise it changes nothing and tells nothing, and it fails for the death of the agent exactly
if the slot may be written and the agent has died. Nothing else can come of reading the slot back
before telling. -/
theorem writeVariable_exact (h : m.world.Reachable) (a : AgentRef) (slot : Nat) (v : Value) :
    ((∃ m', writeVariable a slot v m = .ok () m') ↔ ∃ stored, m.world.Takes a slot v stored)
      ∧ (∀ m', writeVariable a slot v m = .ok () m' →
        ∃ stored, m.world.Takes a slot v stored ∧ Written m a slot stored m')
      ∧ (∀ e m', writeVariable a slot v m = .error e m' → m' = m ∧ ∃ f, e = .fault f ∧
        (f.kind = .agentDead ↔ m.world.Writable a slot ∧ m.world.Dead a))
      ∧ writeReadingBack a slot v m = writeVariable a slot v m := by
  refine ⟨?_, ?_, ?_, writeReadingBack_apply h.regular a slot v⟩
  · constructor
    · rintro ⟨m', hrun⟩
      obtain ⟨stored, haccept⟩ := accept_of_writeVariable hrun
      exact ⟨stored, World.accept_eq_ok_iff.1 haccept⟩
    · rintro ⟨stored, htakes⟩
      exact ⟨_, writeVariable_of_takes htakes⟩
  · intro m' hrun
    obtain ⟨stored, haccept⟩ := accept_of_writeVariable hrun
    have htakes := World.accept_eq_ok_iff.1 haccept
    cases (writeVariable_of_takes htakes).symm.trans hrun
    exact ⟨stored, htakes, written_of_takes h.regular htakes⟩
  · intro e m' hrun
    cases haccept : m.world.accept a slot v with
    | error f =>
      cases (writeVariable_of_error haccept).symm.trans hrun
      exact ⟨rfl, f, rfl, World.kind_of_accept_error haccept⟩
    | ok stored =>
      cases (writeVariable_of_takes (World.accept_eq_ok_iff.1 haccept)).symm.trans hrun

/-- The observer of a world whose third turtle has died, and with it the second link. -/
def registrar : Machine where
  world := World.hubWorld.applyAll [.kill (.turtle 2)]
  streams := .ofMain (.ofSeed 0)
  notices := #[]
  halt := .steady false
  nesting := 0
  context := .resume ⟨.observer, 0, .ofFrame defaultCallDepth (.fresh 0 0 0), 1, none⟩ Streams.main

/-- The first link may be turned to the turtle that has died; that turtle takes no value, not even
one that its variable refuses. -/
theorem writeVariable_exact_registrar :
    registrar.world.Reachable
      ∧ (∃ m', writeVariable (.link 0) secondEndSlot (.agent (.turtle 2)) registrar = .ok () m'
        ∧ Written registrar (.link 0) secondEndSlot (.agent (.turtle 2)) m')
      ∧ ∃ f, writeVariable (.turtle 2) colorSlot .nobody registrar = .error (.fault f) registrar
        ∧ f.kind = .agentDead := by
  obtain ⟨s, hs⟩ := World.ofSpec_hub
  have hreachable : registrar.world.Reachable := by
    dsimp only [registrar]
    exact (World.Reachable.start hs).applyAll _
  have htables : registrar.world.tables = World.hub.tables :=
    (World.frame_applyAll World.hubWorld _).1.trans (World.frame_applyAll _ World.hub.setup).1
  refine ⟨hreachable, ?_, ?_⟩
  · obtain ⟨hsucceeds, hok, -⟩ :=
      writeVariable_exact hreachable (.link 0) secondEndSlot (.agent (.turtle 2))
    have htakes : registrar.world.Takes (.link 0) secondEndSlot (.agent (.turtle 2))
        (.agent (.turtle 2)) := by
      refine ⟨(Variable.ofDomain "end2" (.agent .turtle)).withInitial .nobody, ?_, by decide,
        by decide +kernel, rfl⟩
      rw [World.table, htables]
      rfl
    obtain ⟨m', hrun⟩ := hsucceeds.2 ⟨_, htakes⟩
    obtain ⟨stored, ⟨x, hx, -, -, hstored⟩, hwritten⟩ := hok m' hrun
    rw [World.table, htables] at hx
    cases hx
    cases hstored
    exact ⟨m', hrun, hwritten⟩
  · obtain ⟨hsucceeds, -, herror, -⟩ := writeVariable_exact hreachable (.turtle 2) colorSlot .nobody
    obtain ⟨r, hr, hdead⟩ := Option.map_eq_some_iff.1 (show (registrar.world.record? (.turtle 2)).map
      Record.alive = some false by decide +kernel)
    cases hrun : writeVariable (.turtle 2) colorSlot .nobody registrar with
    | ok u m' =>
      obtain ⟨_, _, _, _, halive, _⟩ := hsucceeds.1 ⟨m', hrun⟩
      rw [World.isAlive, hr] at halive
      cases hdead.symm.trans halive
    | error e m' =>
      obtain ⟨rfl, f, rfl, hkind⟩ := herror e m' hrun
      exact ⟨f, rfl, hkind.2 ⟨⟨by decide +kernel, by simp [colorSlot, whoSlot]⟩, r, hr, hdead⟩⟩

end Exec

end Swarm
