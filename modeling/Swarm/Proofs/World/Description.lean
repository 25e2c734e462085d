import Swarm.Proofs.World.Operations

/-!
# Which descriptions have a world

A description has a world if there is room for a patch and its links join turtles that the world
starts with. Turtles are numbered as they are born and none of them dies while the links are made,
so whether a link can be made does not depend on those made before.

## Main definitions

* `WorldSpec.HasPatches`, `WorldSpec.JoinsTurtles`: what a description has to satisfy
* `World.Peopled`: a world in which the first turtles, and no others, live
* `World.Built`: the ways in which building a world ends

## Main results

* `World.built_ofSpec`: what becomes of a description
-/

namespace Swarm

open Swarm.Random (Stream)

namespace WorldSpec

/-- The world has a patch. -/
def HasPatches (spec : WorldSpec) : Prop :=
  spec.width ≠ 0 ∧ spec.height ≠ 0

/-- The links at the start join turtles that there are at the start. -/
def JoinsTurtles (spec : WorldSpec) : Prop :=
  ∀ p ∈ spec.links, p.1 < spec.turtles ∧ p.2 < spec.turtles

instance (spec : WorldSpec) : Decidable spec.HasPatches :=
  inferInstanceAs (Decidable (_ ∧ _))

instance (spec : WorldSpec) : Decidable spec.JoinsTurtles :=
  inferInstanceAs (Decidable (∀ _ ∈ _, _))

end WorldSpec

namespace World

variable {w w' : World} {count t : Nat}

/-- The turtles with numbers below `count`, and no others, were born, and they live. -/
structure Peopled (count : Nat) (w : World) : Prop where
  size : w.records.turtle.size = count
  alive : ∀ t < count, w.isAlive (.turtle t) = true

theorem peopled_build (spec : WorldSpec) : (build spec).Peopled 0 where
  size := rfl
  alive := nofun

theorem Peopled.createTurtle (h : w.Peopled count) (s : Stream) :
    (w.createTurtle s).1.Peopled (count + 1) := by
  rw [createTurtle_fst]
  refine ⟨?_, fun t ht => ?_⟩
  · show (w.records.turtle.push (w.newborn s)).size = count + 1
    rw [Array.size_push, h.size]
  · rcases Nat.lt_succ_iff_lt_or_eq.1 ht with hold | rfl
    · exact isAlive_append _ _ (h.alive t hold)
    · refine isAlive_iff.2 ⟨w.newborn s, ?_, rfl⟩
      rw [record?_append, if_pos]
      exact congrArg AgentRef.turtle h.size.symm

theorem Peopled.growTurtles (more : Nat) (s : Stream) (h : w.Peopled count) :
    (growTurtles more w s).1.Peopled (count + more) := by
  induction more generalizing w s count with
  | zero => exact h
  | succ more ih =>
    have hrest := ih (w.createTurtle s).2 (h.createTurtle s)
    rw [Nat.add_right_comm] at hrest
    exact hrest

theorem Peopled.canLink_iff (h : w.Peopled count) : w.canLink (.turtle t) = true ↔ t < count := by
  constructor
  · intro hlink
    obtain ⟨_, halive⟩ := Bool.and_eq_true_iff.1 hlink
    obtain ⟨r, hr, _⟩ := isAlive_iff.1 halive
    have hlt : t < w.records.turtle.size := (Array.getElem?_eq_some_iff.1 hr).1
    rwa [h.size] at hlt
  · intro ht
    rw [canLink, h.alive t ht]
    rfl

theorem Peopled.append_link (h : w.Peopled count) (r : Record) :
    (w.append .link r).Peopled count where
  size := h.size
  alive t ht := isAlive_append _ _ (h.alive t ht)

/-- A link can be made if both of its ends were born, and else the first end that was not is
blamed. -/
theorem Peopled.createLink (h : w.Peopled count) (first second : Nat) :
    (∃ link w', w.createLink (.turtle first) (.turtle second) = .ok (link, w')
        ∧ w'.Peopled count ∧ first < count ∧ second < count)
      ∨ ∃ missing, count ≤ missing ∧ (missing = first ∨ missing = second)
        ∧ w.createLink (.turtle first) (.turtle second) =
          .error (.ofCause (.cannotLink (.turtle missing))) := by
  rw [World.createLink]
  by_cases hfirst : first < count
  · by_cases hsecond : second < count
    · rw [h.canLink_iff.2 hfirst, h.canLink_iff.2 hsecond]
      exact .inl ⟨_, _, rfl, h.append_link _, hfirst, hsecond⟩
    · have hcannot : w.canLink (.turtle second) = false := by
        rwa [← Bool.not_eq_true, h.canLink_iff]
      rw [h.canLink_iff.2 hfirst, hcannot]
      exact .inr ⟨second, by omega, .inr rfl, rfl⟩
  · have hcannot : w.canLink (.turtle first) = false := by
      rwa [← Bool.not_eq_true, h.canLink_iff]
    rw [hcannot]
    exact .inr ⟨first, by omega, .inl rfl, rfl⟩

/-- Links are made one after another until one of them cannot be made. -/
theorem Peopled.linkPairs (pairs : List (Nat × Nat)) (h : w.Peopled count) :
    ((∀ p ∈ pairs, p.1 < count ∧ p.2 < count) ∧ ∃ w', w.linkPairs pairs = .ok w')
      ∨ ¬ (∀ p ∈ pairs, p.1 < count ∧ p.2 < count) ∧ ∃ missing, count ≤ missing
        ∧ w.linkPairs pairs = .error (.ofCause (.cannotLink (.turtle missing))) := by
  induction pairs generalizing w with
  | nil => exact .inl ⟨nofun, w, rfl⟩
  | cons p rest ih =>
    obtain ⟨first, second⟩ := p
    rw [World.linkPairs]
    rcases h.createLink first second with ⟨link, w', hlink, hw', hends⟩ |
      ⟨missing, hmissing, hend, hlink⟩
    · rw [hlink]
      rcases ih hw' with ⟨hrest, hok⟩ | ⟨hrest, herror⟩
      · exact .inl ⟨List.forall_mem_cons.2 ⟨hends, hrest⟩, hok⟩
      · exact .inr ⟨fun hall => hrest (List.forall_mem_cons.1 hall).2, herror⟩
    · rw [hlink]
      refine .inr ⟨fun hall => ?_, missing, hmissing, rfl⟩
      have hends := (List.forall_mem_cons.1 hall).1
      dsimp only at hends
      omega

/-- What becomes of a description. -/
inductive Built (spec : WorldSpec) : Except Fault (World × Stream) → Prop where
  | empty : ¬ spec.HasPatches → Built spec (.error (.ofCause .emptyWorld))
  | unjoined {missing : Nat} : spec.HasPatches → ¬ spec.JoinsTurtles → spec.turtles ≤ missing →
    Built spec (.error (.ofCause (.cannotLink (.turtle missing))))
  | world {w : World} {main : Stream} : spec.HasPatches → spec.JoinsTurtles →
    Built spec (.ok (w, main))

theorem built_ofSpec (spec : WorldSpec) : Built spec (ofSpec spec) := by
  rw [ofSpec]
  by_cases empty : spec.width = 0 ∨ spec.height = 0
  · rw [if_pos empty]
    exact .empty fun h => empty.elim h.1 h.2
  · rw [if_neg empty]
    have patches : spec.HasPatches := not_or.1 empty
    have peopled := (peopled_build spec).growTurtles spec.turtles
      (Stream.ofSeed (UInt64.ofNat spec.seed))
    rw [Nat.zero_add] at peopled
    rcases peopled.linkPairs spec.links with ⟨joined, w, hw⟩ | ⟨unjoined, missing, hmissing, hw⟩
    · simp only [createTurtles, hw]
      exact .world patches joined
    · simp only [createTurtles, hw]
      exact .unjoined patches unjoined hmissing

end World

end Swarm
