import Mathlib.Data.List.Nodup
import Swarm.Proofs.World.Variables
import Swarm.Proofs.World.Writes

/-!
# Layouts are all or nothing

A layout computes its moves from the links between its nodes and from all pairs of nodes, and then
makes them. It may also be carried out in place, each move checked once more on the world that the
moves before it have changed. No such check fails: who is moved was found alive when the move was
computed, and moves harm nobody. So a layout that fails has changed nothing, and one that succeeds
has written both coordinates of the nodes that it reports, and nothing else.

## Main definitions

* `World.layoutInPlace`: a layout that changes the world move by move
* `World.Pulls`: a link that pulls an agent
* `World.LaidOut`: what a layout reports, and what it leaves

## Main results

* `World.layoutInPlace_eq`: checks between the moves make no difference
* `World.mem_agents_springMoves`, `World.mem_agents_repulsionMoves`: who is moved
* `World.layoutInPlace_allOrNothing`: all or nothing
-/

namespace Swarm

open Swarm.Random (Stream)

/-- Computations that change a world as they go and draw from a stream. What was changed before a
failure stays changed. -/
abbrev Relayout := EStateM Fault (World × Stream)

namespace Relayout

variable {α β : Type}

/-- A check of the world. -/
def check (x : World → Except Fault α) : Relayout α :=
  fun (w, s) =>
    match x w with
    | .ok a => .ok a (w, s)
    | .error f => .error f (w, s)

/-- A draw that depends on the world. -/
def draw (x : World → Draw α) : Relayout α :=
  fun (w, s) =>
    match x w s with
    | .ok a s' => .ok a (w, s')
    | .error f s' => .error f (w, s')

/-- A change of the world. -/
def change (f : World → World) : Relayout Unit :=
  fun (w, s) => .ok () (f w, s)

theorem bind_of_ok {x : Relayout α} {f : α → Relayout β} {p q : World × Stream} {a : α}
    (h : x p = .ok a q) : (x >>= f) p = f a q := by
  show EStateM.bind x f p = _
  rw [EStateM.bind, h]

theorem bind_of_error {x : Relayout α} {f : α → Relayout β} {p q : World × Stream} {e : Fault}
    (h : x p = .error e q) : (x >>= f) p = .error e q := by
  show EStateM.bind x f p = _
  rw [EStateM.bind, h]

theorem check_of_ok {x : World → Except Fault α} {w : World} {s : Stream} {a : α}
    (h : x w = .ok a) : check x (w, s) = .ok a (w, s) := by
  rw [check, h]

theorem check_of_error {x : World → Except Fault α} {w : World} {s : Stream} {f : Fault}
    (h : x w = .error f) : check x (w, s) = .error f (w, s) := by
  rw [check, h]

theorem draw_of_ok {x : World → Draw α} {w : World} {s s' : Stream} {a : α}
    (h : x w s = .ok a s') : draw x (w, s) = .ok a (w, s') := by
  rw [draw, h]

theorem draw_of_error {x : World → Draw α} {w : World} {s s' : Stream} {f : Fault}
    (h : x w s = .error f s') : draw x (w, s) = .error f (w, s') := by
  rw [draw, h]

end Relayout

namespace World

/-- Make moves one after another, each from where the agent is by then, and list the agents that were
moved, each once. -/
def moveEach : List Move → List AgentRef → Relayout (List AgentRef)
  | [], seen => pure seen
  | mv :: rest, seen => do
    let p ← Relayout.check (·.position mv.agent)
    Relayout.change fun w => w.modifyRecord mv.agent fun r =>
      r.moved (keepInside w.width (p.1 + mv.dx)) (keepInside w.height (p.2 + mv.dy))
    moveEach rest (if seen.contains mv.agent then seen else seen ++ [mv.agent])

/-- One round of layout in place. -/
def layoutInPlace (nodes links : AgentSet) (springs : Springs) :
    Relayout (List (AgentRef × Nat)) := do
  Relayout.check fun w => if w.springs then .ok () else .error (.ofCause .noSprings)
  let pulls ← Relayout.draw (·.springMoves nodes springs links.agents)
  let pushes ← Relayout.check (·.repulsionMoves springs nodes.agents)
  let moved ← moveEach (pulls ++ pushes) []
  return moved.flatMap fun a => [(a, xSlot), (a, ySlot)]

variable {w w' : World} {nodes links : AgentSet} {springs : Springs} {s s' : Stream}

-- ════════════════════════════════════════════════════════════════════════
-- Moves in place
-- ════════════════════════════════════════════════════════════════════════

/-- A move harms nobody. -/
theorem Mobile.shift {a : AgentRef} (h : w.Mobile nodes a) (mv : Move) :
    (w.shift mv).Mobile nodes a := by
  obtain ⟨ha, r, hr, halive, hsize⟩ := h
  obtain ⟨r', hr', hsize', halive', -⟩ := record?_foldl_shift [mv] w a hr
  exact ⟨ha, r', hr', halive'.trans halive, hsize' ▸ hsize⟩

theorem modifyRecord_congr {a : AgentRef} {r : Record} {f g : Record → Record}
    (hr : w.record? a = some r) (h : f r = g r) : w.modifyRecord a f = w.modifyRecord a g := by
  refine eq_of_record?_eq rfl rfl rfl rfl fun b => ?_
  by_cases hb : b = a
  · rw [hb, record?_modifyRecord_self, record?_modifyRecord_self, hr]
    exact congrArg some h
  · rw [record?_modifyRecord_of_ne w f hb, record?_modifyRecord_of_ne w g hb]

theorem moveEach_eq (moves : List Move) :
    ∀ {w : World} (seen : List AgentRef), (∀ mv ∈ moves, w.Mobile nodes mv.agent) →
      moveEach moves seen (w, s) = .ok (moves.foldl (fun seen mv =>
        if seen.contains mv.agent then seen else seen ++ [mv.agent]) seen)
          (moves.foldl shift w, s) := by
  induction moves with
  | nil => exact fun _ _ => rfl
  | cons mv rest ih =>
    intro w seen hmobile
    obtain ⟨-, r, hr, halive, hsize⟩ := hmobile mv (by simp)
    have hposition := position_of_record? hr halive hsize
    have hshift : (w.modifyRecord mv.agent fun r' =>
        r'.moved (keepInside w.width (r.coordinate xSlot + mv.dx))
          (keepInside w.height (r.coordinate ySlot + mv.dy))) = w.shift mv :=
      modifyRecord_congr hr rfl
    rw [moveEach, Relayout.bind_of_ok (Relayout.check_of_ok hposition)]
    show moveEach rest _ (w.modifyRecord mv.agent _, s) = _
    rw [hshift, ih _ fun m hm => (hmobile m (by simp [hm])).shift mv]
    rfl

/-- Checks between the moves make no difference: a layout in place ends like one that makes all its
moves at the end. If it fails, the world is the one from before. -/
theorem layoutInPlace_eq (w : World) (nodes links : AgentSet) (springs : Springs) (s : Stream) :
    layoutInPlace nodes links springs (w, s) =
      match w.layoutSpring nodes links springs s with
      | .ok (written, w') s' => .ok written (w', s')
      | .error f s' => .error f (w, s') := by
  rw [layoutInPlace]
  by_cases hsprings : w.springs = true
  · rw [Relayout.bind_of_ok (Relayout.check_of_ok (if_pos hsprings)), layoutSpring_apply hsprings]
    cases hpulls : w.springMoves nodes springs links.agents s with
    | error f s' => exact Relayout.bind_of_error (Relayout.draw_of_error hpulls)
    | ok pulls s' =>
      rw [Relayout.bind_of_ok (Relayout.draw_of_ok hpulls)]
      cases hpushes : w.repulsionMoves springs nodes.agents with
      | error f => exact Relayout.bind_of_error (Relayout.check_of_error hpushes)
      | ok pushes =>
        rw [Relayout.bind_of_ok (Relayout.check_of_ok hpushes),
          Relayout.bind_of_ok (moveEach_eq _ [] (mobile_of_moves hpulls hpushes))]
        rfl
  · rw [layoutSpring, if_pos (by simp [hsprings])]
    exact Relayout.bind_of_error (Relayout.check_of_error (if_neg hsprings))

-- ════════════════════════════════════════════════════════════════════════
-- Who is moved
-- ════════════════════════════════════════════════════════════════════════

theorem exists_mem_append {p q : List Move} {a : AgentRef} :
    (∃ mv ∈ p ++ q, mv.agent = a) ↔ (∃ mv ∈ p, mv.agent = a) ∨ ∃ mv ∈ q, mv.agent = a := by
  simp only [List.mem_append, or_and_right, exists_or]

/-- The link pulls the agent: both of its ends are nodes, and the agent is one of them. -/
def Pulls (w : World) (nodes : AgentSet) (link a : AgentRef) : Prop :=
  ∃ b c, w.stored? link firstEndSlot = some (.agent b)
    ∧ w.stored? link secondEndSlot = some (.agent c)
    ∧ b ∈ nodes.agents ∧ c ∈ nodes.agents ∧ (a = b ∨ a = c)

/-- The ends that a layout reads are those that are stored. -/
theorem ends?_eq_some_iff {link : AgentRef} {ends : Option (AgentRef × AgentRef)}
    (h : w.ends? link = .ok ends) (b c : AgentRef) :
    ends = some (b, c) ↔ w.stored? link firstEndSlot = some (.agent b)
      ∧ w.stored? link secondEndSlot = some (.agent c) := by
  obtain ⟨r, hlive, h⟩ := Except.bind_eq_ok h
  have hstored (slot : Nat) : w.stored? link slot = r.values[slot]? := by
    rw [stored?, (live_eq_ok hlive).1]
    rfl
  rw [hstored, hstored]
  by_cases hsize : r.values.size ≤ secondEndSlot
  · rw [if_pos hsize] at h
    cases h
  · rw [if_neg hsize] at h
    dsimp only at h
    split at h
    · next hfirst hsecond =>
      cases h
      simp [hfirst, hsecond]
    · next hother =>
      cases h
      exact ⟨by rintro ⟨⟩, fun hends => (hother b c hends.1 hends.2).elim⟩

theorem pulls_iff {link : AgentRef} {ends : Option (AgentRef × AgentRef)}
    (h : w.ends? link = .ok ends) (nodes : AgentSet) (a : AgentRef) :
    w.Pulls nodes link a ↔
      ∃ b c, ends = some (b, c) ∧ b ∈ nodes.agents ∧ c ∈ nodes.agents ∧ (a = b ∨ a = c) := by
  simp only [Pulls, ends?_eq_some_iff h, and_assoc]

/-- Springs move the agents that some link pulls. -/
theorem mem_agents_springMoves (links : List AgentRef) (a : AgentRef) :
    ∀ {s s' : Stream} {moves : List Move}, w.springMoves nodes springs links s = .ok moves s' →
      ((∃ mv ∈ moves, mv.agent = a) ↔ ∃ link ∈ links, w.Pulls nodes link a) := by
  induction links with
  | nil =>
    intro s s' moves h
    obtain ⟨rfl, _⟩ := Draw.pure_eq_ok h
    simp
  | cons link rest ih =>
    intro s s' moves h
    obtain ⟨ends, s₁, hends, h⟩ := Draw.bind_eq_ok h
    have hpulls := pulls_iff (Draw.ofExcept_eq_ok hends).1 nodes a
    rw [List.exists_mem_cons_iff, hpulls]
    cases ends with
    | none => simpa using ih h
    | some ends =>
      obtain ⟨b, c⟩ := ends
      dsimp only at h
      split at h
      · next hin =>
        simp only [Bool.and_eq_true, List.contains_iff_mem] at hin
        obtain ⟨p, s₂, _, h⟩ := Draw.bind_eq_ok h
        obtain ⟨q, s₃, _, h⟩ := Draw.bind_eq_ok h
        obtain ⟨o, s₄, _, h⟩ := Draw.bind_eq_ok h
        obtain ⟨more, s₅, hmore, h⟩ := Draw.bind_eq_ok h
        obtain ⟨rfl, _⟩ := Draw.pure_eq_ok h
        rw [List.exists_mem_cons_iff, List.exists_mem_cons_iff, ih hmore, ← or_assoc]
        refine or_congr_left ⟨fun ha => ⟨b, c, rfl, hin.1, hin.2, ha.imp Eq.symm Eq.symm⟩, ?_⟩
        rintro ⟨_, _, ⟨⟩, _, _, ha⟩
        exact ha.imp Eq.symm Eq.symm
      · next hout =>
        rw [ih h]
        refine ⟨.inr, fun ha => ha.resolve_left ?_⟩
        rintro ⟨_, _, ⟨⟩, hb, hc, _⟩
        exact hout (by simp [hb, hc])

theorem mem_agents_repulsionOf {a : AgentRef} (others : List AgentRef) (b : AgentRef) :
    ∀ {moves : List Move}, w.repulsionOf springs a others = .ok moves →
      ((∃ mv ∈ moves, mv.agent = b) ↔ others ≠ [] ∧ (b = a ∨ b ∈ others)) := by
  induction others with
  | nil =>
    intro moves h
    cases h
    simp
  | cons c rest ih =>
    intro moves h
    obtain ⟨p, _, h⟩ := Except.bind_eq_ok h
    obtain ⟨q, _, h⟩ := Except.bind_eq_ok h
    obtain ⟨more, hmore, h⟩ := Except.bind_eq_ok h
    cases h
    rw [List.exists_mem_cons_iff, List.exists_mem_cons_iff, ih hmore, List.mem_cons]
    grind

/-- Repulsion moves all nodes, if there are at least two. -/
theorem mem_agents_repulsionMoves (members : List AgentRef) (b : AgentRef) :
    ∀ {moves : List Move}, w.repulsionMoves springs members = .ok moves →
      ((∃ mv ∈ moves, mv.agent = b) ↔ 2 ≤ members.length ∧ b ∈ members) := by
  induction members with
  | nil =>
    intro moves h
    cases h
    simp
  | cons a rest ih =>
    intro moves h
    obtain ⟨near, hnear, h⟩ := Except.bind_eq_ok h
    obtain ⟨far, hfar, h⟩ := Except.bind_eq_ok h
    cases h
    rw [exists_mem_append, mem_agents_repulsionOf rest b hnear, ih hfar]
    cases rest with
    | nil => simp
    | cons c rest => simpa using fun _ hb => Or.inr hb

-- ════════════════════════════════════════════════════════════════════════
-- Why a layout fails
-- ════════════════════════════════════════════════════════════════════════

/-- An agent with a slot for each coordinate has a position unless it is dead or missing. -/
theorem failsWith_position {a : AgentRef} (h : w.Regular) (hy : ySlot < (w.table a.kind).size) :
    Except.FailsWith (fun f => w.live a = .error f) (w.position a) := by
  intro f hf
  cases hl : w.live a with
  | error e =>
    rw [position, hl] at hf
    cases hf
    rfl
  | ok r =>
    obtain ⟨hr, halive⟩ := live_eq_ok hl
    have hsize : ySlot < r.values.size := (h a r hr).symm ▸ hy
    cases (position_of_record? hr halive hsize).symm.trans hf

/-- A link has ends unless it is dead or missing. -/
theorem failsWith_ends? {link : AgentRef} (h : w.Regular)
    (hend : secondEndSlot < (w.table link.kind).size) :
    Except.FailsWith (fun f => w.live link = .error f) (w.ends? link) := by
  intro f hf
  rw [ends?] at hf
  cases hl : w.live link with
  | error e =>
    rw [hl] at hf
    cases hf
    rfl
  | ok r =>
    have hsize : ¬ r.values.size ≤ secondEndSlot := by
      rw [h link r (live_eq_ok hl).1]
      exact Nat.not_le.2 hend
    rw [hl] at hf
    change (if r.values.size ≤ secondEndSlot then throw _ else _) = _ at hf
    rw [if_neg hsize] at hf
    split at hf <;> cases hf

-- ════════════════════════════════════════════════════════════════════════
-- What a layout leaves
-- ════════════════════════════════════════════════════════════════════════

/-- The report of a layout of `w`, and the world `w'` that it leaves. Both coordinates are listed, the
horizontal one first, for every agent that a link pulls and, if there are two nodes or more, for
every node. Nothing else is written, and nobody dies. -/
structure LaidOut (w : World) (nodes links : AgentSet) (written : List (AgentRef × Nat))
    (w' : World) : Prop where
  listed : ∃ moved : List AgentRef, written = moved.flatMap (fun a => [(a, xSlot), (a, ySlot)])
    ∧ ∀ a, a ∈ moved ↔ (∃ link ∈ links.agents, w.Pulls nodes link a)
      ∨ 2 ≤ nodes.agents.length ∧ a ∈ nodes.agents
  once : written.Nodup
  nodes : ∀ p ∈ written, p.1 ∈ nodes.agents ∧ w.isAlive p.1 = true
  others : ∀ a slot, (a, slot) ∉ written → w'.stored? a slot = w.stored? a slot
  alive : ∀ a, (w'.record? a).map Record.alive = (w.record? a).map Record.alive

theorem nodup_movedAgents (moves : List Move) : (movedAgents moves).Nodup := by
  have hseen : ∀ seen : List AgentRef, seen.Nodup → (moves.foldl (fun seen mv =>
      if seen.contains mv.agent then seen else seen ++ [mv.agent]) seen).Nodup := by
    induction moves with
    | nil => exact fun _ h => h
    | cons mv rest ih =>
      intro seen hseen
      apply ih
      dsimp only
      split
      · exact hseen
      · next hnew => exact List.nodup_append.2 ⟨hseen, by simp, by simp at hnew ⊢; grind⟩
  exact hseen [] .nil

/-- The coordinates of agents that are listed once are listed once. -/
theorem nodup_coordinates {moved : List AgentRef} (h : moved.Nodup) :
    (moved.flatMap fun a => [(a, xSlot), (a, ySlot)]).Nodup := by
  rw [List.nodup_flatMap]
  refine ⟨fun a _ => by simp [xSlot, ySlot], h.imp fun hne => ?_⟩
  intro p hp hq
  simp at hp hq
  grind

theorem mem_coordinates {moved : List AgentRef} {a : AgentRef} {slot : Nat} :
    (a, slot) ∈ (moved.flatMap fun a => [(a, xSlot), (a, ySlot)])
      ↔ a ∈ moved ∧ (slot = xSlot ∨ slot = ySlot) := by
  simp
  grind

theorem laidOut_of_ok {written : List (AgentRef × Nat)}
    (h : w.layoutSpring nodes links springs s = .ok (written, w') s') :
    w.LaidOut nodes links written w' := by
  obtain ⟨pulls, pushes, hpulls, hpushes, rfl, rfl⟩ := layoutSpring_eq_ok h
  have hmobile := mobile_of_moves hpulls hpushes
  have hlisted : ∀ a, a ∈ movedAgents (pulls ++ pushes)
      ↔ (∃ link ∈ links.agents, w.Pulls nodes link a)
        ∨ 2 ≤ nodes.agents.length ∧ a ∈ nodes.agents := by
    intro a
    rw [mem_movedAgents, exists_mem_append, mem_agents_springMoves links.agents a hpulls,
      mem_agents_repulsionMoves nodes.agents a hpushes]
  generalize pulls ++ pushes = moves at hmobile hlisted ⊢
  refine ⟨⟨movedAgents moves, rfl, hlisted⟩, nodup_coordinates (nodup_movedAgents moves), ?_, ?_,
    alive_foldl_shift moves w⟩
  · rintro ⟨a, slot⟩ hp
    obtain ⟨mv, hmv, rfl⟩ := (mem_movedAgents moves a).1 (mem_coordinates.1 hp).1
    obtain ⟨hnode, r, hr, halive, -⟩ := hmobile mv hmv
    exact ⟨hnode, isAlive_iff.2 ⟨r, hr, halive⟩⟩
  · intro a slot hp
    rw [mem_coordinates, mem_movedAgents] at hp
    cases hr : w.record? a with
    | none => rw [stored?, stored?, record?_foldl_shift_none moves w a hr, hr]
    | some r =>
      obtain ⟨r', hr', -, -, hvalues⟩ := record?_foldl_shift moves w a hr
      rw [stored?, stored?, hr', hr]
      apply hvalues
      by_cases hmoved : ∃ mv ∈ moves, mv.agent = a
      · exact .inr (not_or.1 fun hslot => hp ⟨hmoved, hslot⟩)
      · exact .inl fun mv hmv hagent => hmoved ⟨mv, hmv, hagent⟩

/-- Calls leave a world able to lay out springs, or not. -/
theorem springs_applyAll (w : World) (ops : List Operation) :
    (w.applyAll ops).springs = w.springs := by
  induction ops generalizing w with
  | nil => rfl
  | cons op ops ih =>
    exact (ih (w.apply op)).trans (apply_induction (P := fun v => v.springs = w.springs)
      (fun _ _ _ h => h) (fun _ _ _ h => h) (fun _ _ h => h) op rfl)

/-- A reachable world can lay out springs. Its turtles have coordinates and its links have ends. -/
theorem Reachable.equipped (h : w.Reachable) : w.springs = true
    ∧ ySlot < (w.table .turtle).size ∧ secondEndSlot < (w.table .link).size := by
  obtain ⟨spec, start, s, ops, hstart, rfl⟩ := h.called
  obtain ⟨-, -, rfl⟩ := ofSpec_eq_applyAll hstart
  have htables := (frame_applyAll ((build spec).applyAll spec.setup) ops).1.trans
    (frame_applyAll (build spec) spec.setup).1
  rw [springs_applyAll, springs_applyAll, table, table, htables]
  simp [build, WorldSpec.tables, PerKind.get, turtleVariables, linkVariables, ySlot, secondEndSlot]

/-- A layout of turtles and links that fails has changed no world, neither in place nor otherwise, and
it fails because some node or link is dead or missing. A layout that succeeds leaves what it
reports. -/
theorem layoutInPlace_allOrNothing (h : w.Reachable) (nodes links : AgentSet)
    (hnodes : ∀ a ∈ nodes.agents, a.kind = .turtle) (hlinks : ∀ a ∈ links.agents, a.kind = .link)
    (springs : Springs) (s : Stream) :
    (∀ f w' s', layoutInPlace nodes links springs (w, s) = .error f (w', s') →
      w' = w ∧ w.layoutSpring nodes links springs s = .error f s'
        ∧ ∃ a, (a ∈ nodes.agents ∨ a ∈ links.agents) ∧ w.live a = .error f)
      ∧ ∀ written w' s', layoutInPlace nodes links springs (w, s) = .ok written (w', s') →
        w.layoutSpring nodes links springs s = .ok (written, w') s'
          ∧ w.LaidOut nodes links written w' := by
  obtain ⟨hsprings, hturtle, hlink⟩ := h.equipped
  have hfails : Draw.FailsWith (fun f => ∃ a, (a ∈ nodes.agents ∨ a ∈ links.agents)
      ∧ w.live a = .error f) (w.layoutSpring nodes links springs) := by
    refine failsWith_layoutSpring (by simp [hsprings]) (fun link hl => ?_) fun a ha => ?_
    · rw [← hlinks link hl] at hlink
      exact fun f hf => ⟨link, .inr hl, failsWith_ends? h.regular hlink f hf⟩
    · rw [← hnodes a ha] at hturtle
      exact fun f hf => ⟨a, .inl ha, failsWith_position h.regular hturtle f hf⟩
  rw [layoutInPlace_eq]
  cases hlaid : w.layoutSpring nodes links springs s with
  | error f s' =>
    refine ⟨?_, by rintro _ _ _ ⟨⟩⟩
    rintro _ _ _ ⟨⟩
    exact ⟨rfl, rfl, hfails s f s' hlaid⟩
  | ok out s' =>
    refine ⟨by rintro _ _ _ ⟨⟩, ?_⟩
    rintro _ _ _ ⟨⟩
    exact ⟨rfl, laidOut_of_ok hlaid⟩

/-- Two turtles and the link between them can be laid out. With a turtle that has died they cannot,
and then nothing changes. -/
theorem layoutInPlace_allOrNothing_hub :
    (∃ written w' s', layoutInPlace ⟨.turtle, [.turtle 0, .turtle 1], true⟩ ⟨.link, [.link 0], true⟩
        ⟨1, 1, 1⟩ (hubWorld, .ofSeed 0) = .ok written (w', s')
      ∧ hubWorld.LaidOut ⟨.turtle, [.turtle 0, .turtle 1], true⟩ ⟨.link, [.link 0], true⟩ written w')
      ∧ ∃ f s', layoutInPlace ⟨.turtle, [.turtle 0, .turtle 1, .turtle 2], true⟩ (.empty .link)
        ⟨1, 1, 1⟩ (hubWorld.apply (.kill (.turtle 2)), .ofSeed 0)
          = .error f (hubWorld.apply (.kill (.turtle 2)), s') := by
  obtain ⟨s, hs⟩ := ofSpec_hub
  have hreachable : hubWorld.Reachable := .start hs
  constructor
  · obtain ⟨herror, hok⟩ := layoutInPlace_allOrNothing hreachable
      ⟨.turtle, [.turtle 0, .turtle 1], true⟩ ⟨.link, [.link 0], true⟩
      (by decide) (by decide) ⟨1, 1, 1⟩ (.ofSeed 0)
    cases hrun : layoutInPlace ⟨.turtle, [.turtle 0, .turtle 1], true⟩ ⟨.link, [.link 0], true⟩
        ⟨1, 1, 1⟩ (hubWorld, .ofSeed 0) with
    | ok written after => exact ⟨written, after.1, after.2, rfl, (hok _ _ _ hrun).2⟩
    | error f after =>
      obtain ⟨-, -, a, ha, hlive⟩ := herror f after.1 after.2 hrun
      have hall : ∀ a ∈ [AgentRef.turtle 0, .turtle 1, .link 0], hubWorld.isAlive a = true := by
        decide +kernel
      obtain ⟨r, hr, halive⟩ := isAlive_iff.1 (hall a (by simpa [or_assoc] using ha))
      cases (live_of_record? hr halive).symm.trans hlive
  · obtain ⟨herror, hok⟩ := layoutInPlace_allOrNothing (hreachable.apply (.kill (.turtle 2)))
      ⟨.turtle, [.turtle 0, .turtle 1, .turtle 2], true⟩ (.empty .link)
      (by decide) (by decide) ⟨1, 1, 1⟩ (.ofSeed 0)
    cases hrun : layoutInPlace ⟨.turtle, [.turtle 0, .turtle 1, .turtle 2], true⟩ (.empty .link)
        ⟨1, 1, 1⟩ (hubWorld.apply (.kill (.turtle 2)), .ofSeed 0) with
    | ok written after =>
      obtain ⟨⟨moved, rfl, hmoved⟩, -, hnodes, -⟩ := (hok _ _ _ hrun).2
      have hlisted := mem_coordinates.2 ⟨(hmoved (.turtle 2)).2 (.inr (by decide)), .inl rfl⟩
      have hdead : (hubWorld.apply (.kill (.turtle 2))).isAlive (.turtle 2) = false := by
        decide +kernel
      cases hdead.symm.trans (hnodes _ hlisted).2
    | error f after =>
      obtain ⟨hsame, -⟩ := herror f after.1 after.2 hrun
      exact ⟨f, after.2, by rw [← hsame]⟩

end World

end Swarm
