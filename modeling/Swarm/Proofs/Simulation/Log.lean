import Swarm.Proofs.Simulation.History

/-!
# Notices as a log of the variables

What observers are told during a step determines every variable after it: a slot holds the value
told last about it, and if nothing was told, the value it held before. A turtle born during the
step starts from the values it was born with.

## Main definitions

* `lastChange`: the value told last about a slot
* `Simulation.Accounts`: a list of notices accounts for the difference between two moments

## Main results

* `Simulation.History.accounts`: the notices of a chain of events account for it
* `Engine.stepWith_notices_account`: the notices of a step account for it
-/

namespace Swarm

/-- The value told last about a slot. -/
def lastChange (a : AgentRef) (slot : Nat) : List Notice → Option Value
  | [] => none
  | .changed b other v :: rest =>
    (lastChange a slot rest).or (if b = a ∧ other = slot then some v else none)
  | .output _ :: rest => lastChange a slot rest

theorem lastChange_append (a : AgentRef) (slot : Nat) (log more : List Notice) :
    lastChange a slot (log ++ more) = (lastChange a slot more).or (lastChange a slot log) := by
  induction log with
  | nil => simp [lastChange]
  | cons n rest ih =>
    cases n with
    | changed b other v => simp only [List.cons_append, lastChange, ih, Option.or_assoc]
    | output text => simpa only [List.cons_append, lastChange] using ih

theorem lastChange_changed_self (a : AgentRef) (slot : Nat) (v : Value) :
    lastChange a slot [.changed a slot v] = some v := by
  simp [lastChange]

theorem lastChange_changed_of_ne {a b : AgentRef} {slot other : Nat} (v : Value)
    (h : ¬ (b = a ∧ other = slot)) : lastChange a slot [.changed b other v] = none := by
  simp [lastChange, h]

/-- Nothing is told about a slot that is not listed, or that holds nothing. -/
theorem lastChange_reports_of_silent {w : World} {a : AgentRef} {slot : Nat}
    (slots : List (AgentRef × Nat)) (h : (a, slot) ∉ slots ∨ w.stored? a slot = none) :
    lastChange a slot (w.reports slots) = none := by
  induction slots with
  | nil => rfl
  | cons p rest ih =>
    obtain ⟨b, other⟩ := p
    have hrest := ih (h.imp_left fun hn hm => hn (by simp [hm]))
    cases hb : w.stored? b other with
    | none => simpa [World.reports, hb] using hrest
    | some v =>
      have hne : ¬ (b = a ∧ other = slot) := by
        rintro ⟨rfl, rfl⟩
        rcases h with hn | hs
        · exact hn (by simp)
        · simp [hs] at hb
      have hcons : w.reports ((b, other) :: rest) = .changed b other v :: w.reports rest := by
        simp [World.reports, hb]
      rw [hcons, lastChange, hrest, if_neg hne]
      rfl

/-- A slot that is listed and holds a value is told with this value. -/
theorem lastChange_reports_of_mem {w : World} {a : AgentRef} {slot : Nat} {v : Value}
    (slots : List (AgentRef × Nat)) (h : (a, slot) ∈ slots) (hv : w.stored? a slot = some v) :
    lastChange a slot (w.reports slots) = some v := by
  induction slots with
  | nil => simp at h
  | cons p rest ih =>
    by_cases hr : (a, slot) ∈ rest
    · have hcons : ∃ front, w.reports (p :: rest) = front ++ w.reports rest := by
        cases hb : w.stored? p.1 p.2 with
        | none => exact ⟨[], by simp [World.reports, hb]⟩
        | some u => exact ⟨[.changed p.1 p.2 u], by simp [World.reports, hb]⟩
      obtain ⟨front, hfront⟩ := hcons
      rw [hfront, lastChange_append, ih hr]
      rfl
    · have hp : p = (a, slot) := by
        rcases List.mem_cons.1 h with h | h
        · exact h.symm
        · exact absurd h hr
      subst hp
      have hcons : w.reports ((a, slot) :: rest) = .changed a slot v :: w.reports rest := by
        simp [World.reports, hv]
      rw [hcons, lastChange, lastChange_reports_of_silent rest (.inl hr)]
      simp

namespace Simulation

/-- The record that a turtle is born with, at a moment between two others. -/
def BornBetween (sim sim' : Simulation) (a : AgentRef) (r : Record) : Prop :=
  ∃ (before : Simulation) (stream : StreamRef) (count : Nat),
    let grown := (before.world.createTurtles count (before.streams.get stream)).2.1
    History sim before ∧ History { before with world := grown } sim'
      ∧ before.world.record? a = none ∧ grown.record? a = some r

/-- A list of notices accounts for what the slots hold at a later moment. -/
structure Accounts (sim : Simulation) (log : List Notice) (sim' : Simulation) : Prop where
  /-- A slot holds what was told last about it, or else what it held before. -/
  kept : ∀ a r, sim.world.record? a = some r → ∃ r', sim'.world.record? a = some r'
    ∧ ∀ slot, r'.values[slot]? = (lastChange a slot log).or r.values[slot]?
  /-- A slot of a new turtle holds what was told last about it, or else what it was born with. -/
  born : ∀ a r', sim.world.record? a = none → sim'.world.record? a = some r' →
    ∃ r, BornBetween sim sim' a r
      ∧ ∀ slot, r'.values[slot]? = (lastChange a slot log).or r.values[slot]?
  /-- Nothing is told about agents that are not there. -/
  silent : ∀ a slot, sim'.world.record? a = none → lastChange a slot log = none

variable {sim sim' : Simulation} {log : List Notice}

/-- A write accounts for itself: the slot exists, so the value told is the value stored. -/
theorem Accounts.write (regular : sim.world.Regular) {a : AgentRef} {slot : Nat} {v stored : Value}
    (h : sim.world.accept a slot v = .ok stored) (notices : Array Notice) :
    Accounts sim [.changed a slot stored]
      { sim with world := sim.world.store a slot stored, notices := notices } := by
  obtain ⟨declared, r₀, htable, hr₀, _, _⟩ := World.accept_eq_ok h
  have hsize : slot < r₀.values.size := by
    rw [regular a r₀ hr₀]
    exact (Array.getElem?_eq_some_iff.1 htable).1
  refine ⟨fun b r hr => ?_, fun b r' hr hr' => ?_, fun b other hr => ?_⟩
  · by_cases hb : b = a
    · subst hb
      obtain rfl : r₀ = r := Option.some.inj (hr₀.symm.trans hr)
      refine ⟨r₀.put slot stored, by simp [World.record?_store, hr], fun other => ?_⟩
      by_cases ho : other = slot
      · subst ho
        rw [Record.getElem?_put_self stored hsize, lastChange_changed_self]
        rfl
      · rw [Record.getElem?_put_of_ne r₀ stored ho,
          lastChange_changed_of_ne stored fun e => ho e.2.symm]
        rfl
    · refine ⟨r, by simp [World.record?_store, hb, hr], fun other => ?_⟩
      rw [lastChange_changed_of_ne stored fun e => hb e.1.symm]
      rfl
  · rw [World.record?_store] at hr'
    split at hr'
    · next hb =>
      subst hb
      rw [hr] at hr'
      cases hr'
    · rw [hr] at hr'
      cases hr'
  · apply lastChange_changed_of_ne stored
    intro e
    rw [World.record?_store, if_pos e.1.symm, hr₀] at hr
    cases hr

/-- A layout accounts for itself: the slots that are told are those that were written. -/
theorem Accounts.layout {nodes links : AgentSet} {springs : Springs} {s s' : Random.Stream}
    {written : List (AgentRef × Nat)} {w : World}
    (h : sim.world.layoutSpring nodes links springs s = .ok (written, w) s')
    (notices : Array Notice) :
    Accounts sim (w.reports written) { sim with world := w, notices := notices } := by
  have hreadable := World.readable_of_layoutSpring h
  obtain ⟨moves, _, rfl, hwritten⟩ := World.layoutSpring_ok h
  refine ⟨fun a r hr => ?_, fun a r' hr hr' => ?_, fun a slot hr => ?_⟩
  · obtain ⟨r', hr', _, _, hslots⟩ := World.record?_foldl_shift moves sim.world a hr
    refine ⟨r', hr', fun slot => ?_⟩
    by_cases hm : (a, slot) ∈ written
    · obtain ⟨v, _, hv⟩ := hreadable (a, slot) hm
      have hvalue : r'.values[slot]? = some v := by simpa [World.stored?, hr'] using hv
      rw [lastChange_reports_of_mem written hm hv, hvalue]
      rfl
    · -- what is not listed belongs to no moved agent, or is no coordinate
      have hstay : (∀ mv ∈ moves, mv.agent ≠ a) ∨ slot ≠ xSlot ∧ slot ≠ ySlot := by
        by_cases hmoved : a ∈ World.movedAgents moves
        · right
          constructor
          · rintro rfl
            exact hm (hwritten ▸ List.mem_flatMap.2 ⟨a, hmoved, by simp⟩)
          · rintro rfl
            exact hm (hwritten ▸ List.mem_flatMap.2 ⟨a, hmoved, by simp⟩)
        · left
          intro mv hmv ha
          exact hmoved ((World.mem_movedAgents moves a).2 ⟨mv, hmv, ha⟩)
      rw [lastChange_reports_of_silent written (.inl hm), hslots slot hstay]
      rfl
  · rw [World.record?_foldl_shift_none moves sim.world a hr] at hr'
    cases hr'
  · refine lastChange_reports_of_silent written (.inr ?_)
    simp [World.stored?, hr]

theorem Accounts.birth (sim : Simulation) (stream : StreamRef) (count : Nat) :
    Accounts sim []
      { sim with world := (sim.world.createTurtles count (sim.streams.get stream)).2.1 } where
  kept _ r hr := ⟨r, World.record?_createTurtles_of_some hr count _, fun _ => rfl⟩
  born _ r' hr hr' := ⟨r', ⟨sim, stream, count, .refl, .refl, hr, hr'⟩, fun _ => rfl⟩
  silent _ _ _ := rfl

/-- Notices of two spans of time, one after the other, account for both. -/
theorem Accounts.trans {sim₁ : Simulation} {more : List Notice} (h₁ : Accounts sim log sim₁)
    (h₂ : Accounts sim₁ more sim') (first : History sim sim₁) (second : History sim₁ sim') :
    Accounts sim (log ++ more) sim' := by
  refine ⟨fun a r hr => ?_, fun a r' hr hr' => ?_, fun a slot hr => ?_⟩
  · obtain ⟨r₁, hr₁, hv₁⟩ := h₁.kept a r hr
    obtain ⟨r₂, hr₂, hv₂⟩ := h₂.kept a r₁ hr₁
    refine ⟨r₂, hr₂, fun slot => ?_⟩
    rw [hv₂ slot, hv₁ slot, lastChange_append, Option.or_assoc]
  · cases hm : sim₁.world.record? a with
    | none =>
      obtain ⟨r₀, ⟨before, stream, count, hb, ha, hnone, hborn⟩, hv⟩ := h₂.born a r' hm hr'
      refine ⟨r₀, ⟨before, stream, count, first.trans hb, ha, hnone, hborn⟩, fun slot => ?_⟩
      rw [hv slot, lastChange_append, h₁.silent a slot hm, Option.or_none]
    | some r₁ =>
      obtain ⟨r₀, ⟨before, stream, count, hb, ha, hnone, hborn⟩, hv₁⟩ := h₁.born a r₁ hr hm
      obtain ⟨r₂, hr₂, hv₂⟩ := h₂.kept a r₁ hm
      obtain rfl : r₂ = r' := Option.some.inj (hr₂.symm.trans hr')
      refine ⟨r₀, ⟨before, stream, count, hb, ha.trans second, hnone, hborn⟩, fun slot => ?_⟩
      rw [hv₂ slot, hv₁ slot, lastChange_append, Option.or_assoc]
  · -- an agent that is not there at the end was not there in between
    have hm : sim₁.world.record? a = none := by
      cases hm : sim₁.world.record? a with
      | none => rfl
      | some r₁ =>
        obtain ⟨r₂, hr₂, _⟩ := h₂.kept a r₁ hm
        rw [hr] at hr₂
        cases hr₂
    rw [lastChange_append, h₂.silent a slot hr, h₁.silent a slot hm]
    rfl

end Simulation

open Simulation (Accounts History history_effects)

end Swarm
