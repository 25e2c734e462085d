import Swarm.Proofs.Draw
import Swarm.World.Spec

/-!
# Records under the operations of a world

Each operation of a world is described by the record it leaves for every agent. Tables stay as they
are throughout.

## Main definitions

* `Record.put`, `Record.moved`: a record after a write and after a move
* `World.newborn`: the record of the next turtle
* `World.stored?`: the value in a slot, of live and dead agents alike

## Main results

* `World.record?_store`, `World.record?_remove`, `World.record?_createTurtle`,
  `World.record?_shift`: the records after a write, a death, a birth and a move
* `World.ofSpec_induction`: what is true of the worlds of descriptions
* `World.layoutSpring_ok`: what a layout that succeeds has checked and done
* `World.failsWith_layoutSpring`: how a layout fails
-/

namespace Swarm

namespace Record

/-- The record with a value in a slot. -/
def put (r : Record) (slot : Nat) (v : Value) : Record :=
  { r with values := r.values.modify slot fun _ => v }

@[simp]
theorem size_put (r : Record) (slot : Nat) (v : Value) :
    (r.put slot v).values.size = r.values.size := by
  simp [put]

theorem getElem?_put_self {r : Record} {slot : Nat} (v : Value) (h : slot < r.values.size) :
    (r.put slot v).values[slot]? = some v := by
  simp [put, h, Array.getElem_modify]

theorem getElem?_put_of_ne (r : Record) {slot other : Nat} (v : Value) (h : other ≠ slot) :
    (r.put slot v).values[other]? = r.values[other]? := by
  simp [put, Array.getElem?_modify, Ne.symm h]

/-- The record of an agent at other coordinates. -/
def moved (r : Record) (x y : Float) : Record :=
  (r.put xSlot (.number x)).put ySlot (.number y)

@[simp]
theorem size_moved (r : Record) (x y : Float) : (r.moved x y).values.size = r.values.size := by
  simp [moved]

theorem getElem?_moved_of_ne (r : Record) (x y : Float) {slot : Nat} (hx : slot ≠ xSlot)
    (hy : slot ≠ ySlot) : (r.moved x y).values[slot]? = r.values[slot]? := by
  rw [moved, getElem?_put_of_ne _ _ hy, getElem?_put_of_ne _ _ hx]

end Record

namespace World

-- ════════════════════════════════════════════════════════════════════════
-- Writes
-- ════════════════════════════════════════════════════════════════════════

theorem record?_store (w : World) (a : AgentRef) (slot : Nat) (v : Value) (b : AgentRef) :
    (w.store a slot v).record? b =
      if b = a then (w.record? a).map fun r => r.put slot v else w.record? b := by
  split
  · next h =>
    subst h
    exact record?_modifyRecord_self w b _
  · next h => exact record?_modifyRecord_of_ne w _ h

/-- A record that may be read. -/
theorem live_eq_ok {w : World} {a : AgentRef} {r : Record} (h : w.live a = .ok r) :
    w.record? a = some r ∧ r.alive = true := by
  rw [live] at h
  cases hr : w.record? a with
  | none =>
    rw [hr] at h
    cases h
  | some r' =>
    rw [hr] at h
    dsimp only at h
    split at h
    · next alive =>
      cases h
      exact ⟨rfl, alive⟩
    · cases h

theorem live_of_record? {w : World} {a : AgentRef} {r : Record} (h : w.record? a = some r)
    (alive : r.alive = true) : w.live a = .ok r := by
  simp [live, h, alive]

/-- A write is accepted only in a slot of the table and only for a live agent. -/
theorem accept_eq_ok {w : World} {a : AgentRef} {slot : Nat} {v stored : Value}
    (h : w.accept a slot v = .ok stored) :
    ∃ declared r, (w.table a.kind)[slot]? = some declared ∧ w.record? a = some r ∧ r.alive = true
      ∧ declared.domain.stored declared.name v = .ok stored := by
  rw [accept] at h
  cases ht : (w.table a.kind)[slot]? with
  | none =>
    rw [ht] at h
    cases h
  | some declared =>
    rw [ht] at h
    dsimp only at h
    split at h
    · cases h
    · cases hl : w.live a with
      | error f =>
        rw [hl] at h
        cases h
      | ok r =>
        rw [hl] at h
        obtain ⟨hr, alive⟩ := live_eq_ok hl
        exact ⟨declared, r, rfl, hr, alive, h⟩

-- ════════════════════════════════════════════════════════════════════════
-- Births
-- ════════════════════════════════════════════════════════════════════════

theorem record?_append (w : World) (kind : AgentKind) (r : Record) (b : AgentRef) :
    (w.append kind r).record? b =
      if b = ⟨kind, (w.records.get kind).size⟩ then some r else w.record? b := by
  obtain ⟨bk, bi⟩ := b
  by_cases hk : bk = kind
  · subst hk
    simp [record?, append, Array.getElem?_push]
  · simp [record?, append, PerKind.get_modify_of_ne _ _ hk, hk]

/-- The next agent of a kind has no record yet. -/
theorem record?_next (w : World) (kind : AgentKind) :
    w.record? ⟨kind, (w.records.get kind).size⟩ = none := by
  simp [record?]

/-- The record of the next turtle, with the color and the heading that a stream gives. -/
def newborn (w : World) (s : Random.Stream) : Record :=
  ((w.fresh .turtle).put whoSlot (.number (Float.ofNat w.records.turtle.size)) |>.put colorSlot
    (.number (colorOfDraw (s.below 14).1))).put headingSlot
      (.number (Float.ofNat ((s.below 14).2.below 360).1))

theorem createTurtle_fst (w : World) (s : Random.Stream) :
    (w.createTurtle s).1 = w.append .turtle (w.newborn s) := by
  simp only [createTurtle, newborn, Record.put]

@[simp]
theorem size_newborn (w : World) (s : Random.Stream) :
    (w.newborn s).values.size = (w.table .turtle).size := by
  simp [newborn, fresh]

theorem record?_createTurtle (w : World) (s : Random.Stream) (b : AgentRef) :
    (w.createTurtle s).1.record? b =
      if b = .turtle w.records.turtle.size then some (w.newborn s) else w.record? b := by
  rw [createTurtle_fst]
  exact record?_append w .turtle (w.newborn s) b

/-- What a birth of one turtle keeps, the births of several keep. -/
theorem growTurtles_induction {P : World → Prop}
    (step : ∀ w s, P w → P (createTurtle w s).1) (count : Nat) (w : World) (s : Random.Stream)
    (h : P w) : P (growTurtles count w s).1 := by
  induction count generalizing w s with
  | zero => exact h
  | succ count ih => exact ih _ _ (step w s h)

/-- Births keep the agents that are there. -/
theorem record?_createTurtles_of_some {w : World} {a : AgentRef} {r : Record}
    (h : w.record? a = some r) (count : Nat) (s : Random.Stream) :
    (w.createTurtles count s).2.1.record? a = some r := by
  refine growTurtles_induction (P := fun w => w.record? a = some r) (fun w s hw => ?_)
    count w s h
  have hne : a ≠ .turtle w.records.turtle.size := by
    rintro rfl
    have hnone : w.record? (.turtle w.records.turtle.size) = none := record?_next w .turtle
    rw [hnone] at hw
    cases hw
  rw [record?_createTurtle, if_neg hne, hw]

/-- A link that was made stands at the end of the registry and has two slots set. -/
theorem createLink_ok {w w' : World} {first second a : AgentRef}
    (h : w.createLink first second = .ok (a, w')) :
    w' = w.append .link (((w.fresh .link).put firstEndSlot (.agent first)).put secondEndSlot
      (.agent second)) := by
  rw [createLink] at h
  split at h
  · cases h
  · split at h
    · cases h
    · cases h
      rfl

-- ════════════════════════════════════════════════════════════════════════
-- Worlds of descriptions
-- ════════════════════════════════════════════════════════════════════════

/-- Before the first birth there are the observer and the patches. -/
theorem record?_build {spec : WorldSpec} {a : AgentRef} {r : Record}
    (h : (build spec).record? a = some r) :
    (a = .observer ∧ r = (build spec).fresh .observer)
      ∨ ∃ id, a = .patch id ∧ r = patchRecord ((build spec).fresh .patch) spec.width id := by
  obtain ⟨kind, id⟩ := a
  cases kind with
  | observer =>
    cases id with
    | zero =>
      cases h
      exact .inl ⟨rfl, rfl⟩
    | succ id => simp [record?, build, PerKind.get] at h
  | turtle => simp [record?, build, PerKind.get] at h
  | link => simp [record?, build, PerKind.get] at h
  | patch =>
    simp only [record?, build, PerKind.get, List.getElem?_toArray, List.getElem?_map,
      Option.map_eq_some_iff] at h
    obtain ⟨place, hplace, rfl⟩ := h
    obtain ⟨_, rfl⟩ := List.getElem?_eq_some_iff.1 hplace
    exact .inr ⟨id, rfl, by rw [List.getElem_range]; rfl⟩

/-- The record of a patch is a new one with the place of the patch in it. -/
theorem patchRecord_eq (blank : Record) (width id : Nat) :
    patchRecord blank width id =
      (blank.put xSlot (.number (Float.ofNat (id % width)))).put ySlot
        (.number (Float.ofNat (id / width))) :=
  rfl

/-- What a new link keeps, several keep. -/
theorem linkPairs_induction {P : World → Prop}
    (step : ∀ {w w' : World} {first second a : AgentRef}, P w →
      w.createLink first second = .ok (a, w') → P w') (pairs : List (Nat × Nat)) :
    ∀ {w w' : World}, P w → w.linkPairs pairs = .ok w' → P w' := by
  induction pairs with
  | nil =>
    intro w w' h hl
    cases hl
    exact h
  | cons p rest ih =>
    intro w w' h hl
    obtain ⟨⟨a, w₁⟩, hone, hrest⟩ := Except.bind_eq_ok hl
    exact ih (step h hone) hrest

/-- The world of a description has patches, and comes from the bare grid by births and links. -/
theorem ofSpec_eq_ok {spec : WorldSpec} {w : World} {s : Random.Stream}
    (h : ofSpec spec = .ok (w, s)) :
    spec.width ≠ 0 ∧ spec.height ≠ 0 ∧
      (growTurtles spec.turtles (build spec)
        (.ofSeed (UInt64.ofNat spec.seed))).1.linkPairs spec.links = .ok w := by
  rw [ofSpec] at h
  by_cases empty : spec.width = 0 ∨ spec.height = 0
  · rw [if_pos empty] at h
    cases h
  · rw [if_neg empty] at h
    obtain ⟨w₁, hlinks, h⟩ := Except.bind_eq_ok h
    cases h
    exact ⟨fun h => empty (.inl h), fun h => empty (.inr h), hlinks⟩

/-- What holds of the bare grid and is kept by births and links holds of the worlds of
descriptions. -/
theorem ofSpec_induction {P : World → Prop} {spec : WorldSpec} {w : World} {s : Random.Stream}
    (h : ofSpec spec = .ok (w, s)) (grid : P (build spec))
    (turtle : ∀ w s, P w → P (createTurtle w s).1)
    (link : ∀ {w w' : World} {first second a : AgentRef}, P w →
      w.createLink first second = .ok (a, w') → P w') : P w := by
  obtain ⟨_, _, hlinks⟩ := ofSpec_eq_ok h
  exact linkPairs_induction link spec.links
    (growTurtles_induction turtle spec.turtles _ _ grid) hlinks

-- ════════════════════════════════════════════════════════════════════════
-- Deaths
-- ════════════════════════════════════════════════════════════════════════

theorem record?_dropLinks (w : World) (a b : AgentRef) :
    (w.dropLinks a).record? b = (w.record? b).map fun r =>
      if b.kind = .link ∧ (r.refersTo firstEndSlot a || r.refersTo secondEndSlot a) then
        { r with alive := false }
      else r := by
  by_cases hk : b.kind = .link
  · simp [record?, dropLinks, hk]
  · simp [record?, dropLinks, PerKind.get_modify_of_ne _ _ hk, hk]

/-- A death changes liveness and nothing else. -/
theorem record?_remove (w : World) (a b : AgentRef) :
    ∃ alive : Record → Bool,
      (w.remove a).record? b = (w.record? b).map fun r => { r with alive := alive r } := by
  have hone : ∃ alive : Record → Bool, (w.modifyRecord a fun r => { r with alive := false }).record? b
      = (w.record? b).map fun r => { r with alive := alive r } := by
    by_cases h : b = a
    · subst h
      exact ⟨fun _ => false, record?_modifyRecord_self w b _⟩
    · refine ⟨Record.alive, ?_⟩
      rw [record?_modifyRecord_of_ne w _ h]
      cases w.record? b <;> rfl
  obtain ⟨alive, hone⟩ := hone
  unfold remove
  dsimp only
  split
  · -- the links of a turtle die with it
    rw [record?_dropLinks, hone, Option.map_map]
    refine ⟨fun r => if b.kind = .link ∧ (r.refersTo firstEndSlot a || r.refersTo secondEndSlot a)
      then false else alive r, ?_⟩
    congr 1
    funext r
    dsimp only [Function.comp]
    split
    · next hr => rw [if_pos (by simpa [Record.refersTo] using hr)]
    · next hr => rw [if_neg (by simpa [Record.refersTo] using hr)]
  · exact ⟨alive, hone⟩

@[simp]
theorem tables_remove (w : World) (a : AgentRef) : (w.remove a).tables = w.tables := by
  unfold remove
  dsimp only
  split <;> rfl

-- ════════════════════════════════════════════════════════════════════════
-- Moves
-- ════════════════════════════════════════════════════════════════════════

theorem record?_shift (w : World) (mv : Move) (b : AgentRef) :
    ∃ x y : Record → Float, (w.shift mv).record? b =
      if b = mv.agent then (w.record? b).map fun r => r.moved (x r) (y r) else w.record? b := by
  refine ⟨fun r => keepInside w.width (r.coordinate xSlot + mv.dx),
    fun r => keepInside w.height (r.coordinate ySlot + mv.dy), ?_⟩
  split
  · next h =>
    subst h
    exact record?_modifyRecord_self w _ _
  · next h => exact record?_modifyRecord_of_ne w _ h

theorem tables_foldl_shift (moves : List Move) (w : World) :
    (moves.foldl shift w).tables = w.tables := by
  induction moves generalizing w with
  | nil => rfl
  | cons mv rest ih => exact ih (w.shift mv)

/-- A member of the node set that lives and has coordinates. -/
def Mobile (w : World) (nodes : AgentSet) (a : AgentRef) : Prop :=
  a ∈ nodes.agents ∧ ∃ r, w.record? a = some r ∧ r.alive = true ∧ ySlot < r.values.size

theorem mobile_of_position {w : World} {nodes : AgentSet} {a : AgentRef} {p : Float × Float}
    (ha : a ∈ nodes.agents) (h : w.position a = .ok p) : w.Mobile nodes a := by
  obtain ⟨r, hl, h⟩ := Except.bind_eq_ok h
  obtain ⟨hr, alive⟩ := live_eq_ok hl
  split at h
  · cases h
  · next hs => exact ⟨ha, r, hr, alive, by omega⟩

/-- Springs move members of the node set only. -/
theorem mobile_of_springMoves {w : World} {nodes : AgentSet} {springs : Springs}
    (links : List AgentRef) :
    ∀ {s s' : Random.Stream} {moves : List Move},
      w.springMoves nodes springs links s = .ok moves s' → ∀ mv ∈ moves, w.Mobile nodes mv.agent := by
  induction links with
  | nil =>
    intro s s' moves h
    obtain ⟨rfl, _⟩ := Draw.pure_eq_ok h
    simp
  | cons link rest ih =>
    intro s s' moves h
    obtain ⟨found, s₁, _, h⟩ := Draw.bind_eq_ok h
    cases found with
    | none => exact ih h
    | some ends =>
      obtain ⟨a, b⟩ := ends
      dsimp only at h
      split at h
      · next hin =>
        simp only [Bool.and_eq_true, List.contains_iff_mem] at hin
        obtain ⟨p, s₂, hp, h⟩ := Draw.bind_eq_ok h
        obtain ⟨q, s₃, hq, h⟩ := Draw.bind_eq_ok h
        obtain ⟨o, s₄, _, h⟩ := Draw.bind_eq_ok h
        obtain ⟨more, s₅, hmore, h⟩ := Draw.bind_eq_ok h
        obtain ⟨rfl, _⟩ := Draw.pure_eq_ok h
        intro mv hmv
        rcases List.mem_cons.1 hmv with rfl | hmv
        · exact mobile_of_position hin.1 (Draw.ofExcept_eq_ok hp).1
        · rcases List.mem_cons.1 hmv with rfl | hmv
          · exact mobile_of_position hin.2 (Draw.ofExcept_eq_ok hq).1
          · exact ih hmore mv hmv
      · exact ih h

theorem mobile_of_repulsionOf {w : World} {nodes : AgentSet} {springs : Springs} {a : AgentRef}
    (ha : a ∈ nodes.agents) (others : List AgentRef) :
    (∀ b ∈ others, b ∈ nodes.agents) → ∀ {moves : List Move},
      w.repulsionOf springs a others = .ok moves → ∀ mv ∈ moves, w.Mobile nodes mv.agent := by
  induction others with
  | nil =>
    intro _ moves h
    cases h
    simp
  | cons b rest ih =>
    intro hin moves h
    obtain ⟨p, hp, h⟩ := Except.bind_eq_ok h
    obtain ⟨q, hq, h⟩ := Except.bind_eq_ok h
    obtain ⟨more, hmore, h⟩ := Except.bind_eq_ok h
    cases h
    intro mv hmv
    rcases List.mem_cons.1 hmv with rfl | hmv
    · exact mobile_of_position ha hp
    · rcases List.mem_cons.1 hmv with rfl | hmv
      · exact mobile_of_position (hin b (by simp)) hq
      · exact ih (fun c hc => hin c (by simp [hc])) hmore mv hmv

/-- Repulsion moves members of the node set only. -/
theorem mobile_of_repulsionMoves {w : World} {nodes : AgentSet} {springs : Springs}
    (members : List AgentRef) :
    (∀ b ∈ members, b ∈ nodes.agents) → ∀ {moves : List Move},
      w.repulsionMoves springs members = .ok moves → ∀ mv ∈ moves, w.Mobile nodes mv.agent := by
  induction members with
  | nil =>
    intro _ moves h
    cases h
    simp
  | cons a rest ih =>
    intro hin moves h
    have hrest : ∀ b ∈ rest, b ∈ nodes.agents := fun b hb => hin b (by simp [hb])
    obtain ⟨near, hnear, h⟩ := Except.bind_eq_ok h
    obtain ⟨far, hfar, h⟩ := Except.bind_eq_ok h
    cases h
    intro mv hmv
    rcases List.mem_append.1 hmv with hmv | hmv
    · exact mobile_of_repulsionOf (hin a (by simp)) rest hrest hnear mv hmv
    · exact ih hrest hfar mv hmv

/-- All moves of a layout are of live members of the node set. -/
theorem mobile_of_moves {w : World} {nodes links : AgentSet} {springs : Springs}
    {s s' : Random.Stream} {pulls pushes : List Move}
    (hpulls : w.springMoves nodes springs links.agents s = .ok pulls s')
    (hpushes : w.repulsionMoves springs nodes.agents = .ok pushes) :
    ∀ mv ∈ pulls ++ pushes, w.Mobile nodes mv.agent := by
  intro mv hmv
  rcases List.mem_append.1 hmv with hmv | hmv
  · exact mobile_of_springMoves links.agents hpulls mv hmv
  · exact mobile_of_repulsionMoves nodes.agents (fun _ hb => hb) hpushes mv hmv

/-- A layout that succeeds has computed the moves of the springs, then those of repulsion, and makes
them one after another. It lists both coordinates of every agent that was moved. -/
theorem layoutSpring_eq_ok {w w' : World} {nodes links : AgentSet} {springs : Springs}
    {s s' : Random.Stream} {written : List (AgentRef × Nat)}
    (h : w.layoutSpring nodes links springs s = .ok (written, w') s') :
    ∃ pulls pushes, w.springMoves nodes springs links.agents s = .ok pulls s'
      ∧ w.repulsionMoves springs nodes.agents = .ok pushes
      ∧ w' = (pulls ++ pushes).foldl shift w
      ∧ written = (movedAgents (pulls ++ pushes)).flatMap fun a => [(a, xSlot), (a, ySlot)] := by
  rw [layoutSpring] at h
  split at h
  · cases h
  obtain ⟨pulls, s₂, hpulls, hrest⟩ := Draw.bind_eq_ok h
  obtain ⟨pushes, s₃, hdrawn, hend⟩ := Draw.bind_eq_ok hrest
  obtain ⟨hpushes, rfl⟩ := Draw.ofExcept_eq_ok hdrawn
  obtain ⟨hout, rfl⟩ := Draw.pure_eq_ok hend
  cases hout
  exact ⟨pulls, pushes, hpulls, hpushes, rfl, rfl⟩

/-- A layout that succeeds is a list of moves of live members of the node set, made one after
another, and lists both coordinates of every agent that was moved. -/
theorem layoutSpring_ok {w w' : World} {nodes links : AgentSet} {springs : Springs}
    {s s' : Random.Stream} {written : List (AgentRef × Nat)}
    (h : w.layoutSpring nodes links springs s = .ok (written, w') s') :
    ∃ moves : List Move, (∀ mv ∈ moves, w.Mobile nodes mv.agent) ∧ w' = moves.foldl shift w
      ∧ written = (movedAgents moves).flatMap fun a => [(a, xSlot), (a, ySlot)] := by
  obtain ⟨pulls, pushes, hpulls, hpushes, rfl, rfl⟩ := layoutSpring_eq_ok h
  exact ⟨pulls ++ pushes, mobile_of_moves hpulls hpushes, rfl, rfl⟩

/-- A layout computes all moves before it makes the first one. -/
theorem layoutSpring_apply {w : World} {nodes links : AgentSet} {springs : Springs}
    (h : w.springs = true) (s : Random.Stream) :
    w.layoutSpring nodes links springs s =
      match w.springMoves nodes springs links.agents s with
      | .error f s' => .error f s'
      | .ok pulls s' =>
        match w.repulsionMoves springs nodes.agents with
        | .error f => .error f s'
        | .ok pushes => .ok ((movedAgents (pulls ++ pushes)).flatMap fun a =>
            [(a, xSlot), (a, ySlot)], (pulls ++ pushes).foldl shift w) s' := by
  rw [layoutSpring, if_neg (by simp [h])]
  show (w.springMoves nodes springs links.agents >>= _) s = _
  rw [Draw.bind_apply]
  cases w.springMoves nodes springs links.agents s with
  | error f s' => rfl
  | ok pulls s' => cases w.repulsionMoves springs nodes.agents <;> rfl

section FailsWith

variable {P : Fault → Prop} {w : World} {nodes links : AgentSet} {springs : Springs}

theorem failsWith_springMoves (links : List AgentRef)
    (hends : ∀ link ∈ links, Except.FailsWith P (w.ends? link))
    (hnodes : ∀ a ∈ nodes.agents, Except.FailsWith P (w.position a)) :
    Draw.FailsWith P (w.springMoves nodes springs links) := by
  induction links with
  | nil => exact Draw.failsWith_pure []
  | cons link rest ih =>
    have hrest := ih fun l hl => hends l (by simp [hl])
    rw [springMoves]
    apply (Draw.failsWith_ofExcept (hends link (by simp))).bind
    intro ends
    split
    · exact hrest
    · next a b =>
      split
      · next hin =>
        simp only [Bool.and_eq_true, List.contains_iff_mem] at hin
        apply (Draw.failsWith_ofExcept (hnodes a hin.1)).bind
        intro p
        apply (Draw.failsWith_ofExcept (hnodes b hin.2)).bind
        intro q
        have hoffset : Draw.FailsWith P (offset p q) := by
          unfold offset
          dsimp only
          split
          · exact (Draw.failsWith_ofStream _).bind fun _ => Draw.failsWith_pure _
          · exact Draw.failsWith_pure _
        exact hoffset.bind fun _ => hrest.bind fun _ => Draw.failsWith_pure _
      · exact hrest

theorem failsWith_repulsionOf {a : AgentRef} (ha : Except.FailsWith P (w.position a))
    (others : List AgentRef) (hothers : ∀ b ∈ others, Except.FailsWith P (w.position b)) :
    Except.FailsWith P (w.repulsionOf springs a others) := by
  induction others with
  | nil => exact Except.failsWith_ok []
  | cons b rest ih =>
    have hrest := ih fun c hc => hothers c (by simp [hc])
    exact ha.bind fun _ => (hothers b (by simp)).bind fun _ =>
      hrest.bind fun _ => Except.failsWith_ok _

theorem failsWith_repulsionMoves (members : List AgentRef)
    (hmembers : ∀ a ∈ members, Except.FailsWith P (w.position a)) :
    Except.FailsWith P (w.repulsionMoves springs members) := by
  induction members with
  | nil => exact Except.failsWith_ok []
  | cons a rest ih =>
    have hrest : ∀ b ∈ rest, Except.FailsWith P (w.position b) :=
      fun b hb => hmembers b (by simp [hb])
    exact (failsWith_repulsionOf (hmembers a (by simp)) rest hrest).bind fun _ =>
      (ih hrest).bind fun _ => Except.failsWith_ok _

/-- A layout fails as the look at a link or at a node does, or because there are no springs. -/
theorem failsWith_layoutSpring (hsprings : w.springs = false → P (.ofCause .noSprings))
    (hends : ∀ link ∈ links.agents, Except.FailsWith P (w.ends? link))
    (hnodes : ∀ a ∈ nodes.agents, Except.FailsWith P (w.position a)) :
    Draw.FailsWith P (w.layoutSpring nodes links springs) := by
  intro s f s' h
  by_cases available : w.springs = true
  · rw [layoutSpring_apply available] at h
    cases hpulls : w.springMoves nodes springs links.agents s with
    | error e s₁ =>
      rw [hpulls] at h
      cases h
      exact failsWith_springMoves links.agents hends hnodes s _ _ hpulls
    | ok pulls s₁ =>
      rw [hpulls] at h
      cases hpushes : w.repulsionMoves springs nodes.agents with
      | error e =>
        rw [hpushes] at h
        cases h
        exact failsWith_repulsionMoves nodes.agents hnodes _ hpushes
      | ok pushes =>
        rw [hpushes] at h
        cases h
  · rw [layoutSpring, if_pos (by simp [available])] at h
    cases h
    exact hsprings (by simpa using available)

end FailsWith

/-- The agents that were moved, in a list of moves added to those seen before. -/
theorem mem_foldl_seen (moves : List Move) (seen : List AgentRef) (a : AgentRef) :
    a ∈ moves.foldl (fun seen m => if seen.contains m.agent then seen else seen ++ [m.agent]) seen
      ↔ a ∈ seen ∨ ∃ mv ∈ moves, mv.agent = a := by
  induction moves generalizing seen with
  | nil => simp
  | cons mv rest ih =>
    rw [List.foldl_cons, ih]
    by_cases hc : seen.contains mv.agent
    · rw [if_pos hc]
      have hm : mv.agent ∈ seen := by simpa using hc
      constructor
      · rintro (h | ⟨x, hx, rfl⟩)
        · exact .inl h
        · exact .inr ⟨x, by simp [hx], rfl⟩
      · rintro (h | ⟨x, hx, rfl⟩)
        · exact .inl h
        · rcases List.mem_cons.1 hx with rfl | hx
          · exact .inl hm
          · exact .inr ⟨x, hx, rfl⟩
    · rw [if_neg hc, List.mem_append, List.mem_singleton, or_assoc]
      refine or_congr_right ⟨?_, ?_⟩
      · rintro (rfl | ⟨x, hx, rfl⟩)
        · exact ⟨mv, by simp, rfl⟩
        · exact ⟨x, by simp [hx], rfl⟩
      · rintro ⟨x, hx, rfl⟩
        rcases List.mem_cons.1 hx with rfl | hx
        · exact .inl rfl
        · exact .inr ⟨x, hx, rfl⟩

theorem mem_movedAgents (moves : List Move) (a : AgentRef) :
    a ∈ movedAgents moves ↔ ∃ mv ∈ moves, mv.agent = a := by
  rw [movedAgents, mem_foldl_seen]
  simp

/-- Moves keep every record in its place, change the coordinates of the agents they name and
nothing else. -/
theorem record?_foldl_shift (moves : List Move) (w : World) (b : AgentRef) {r : Record}
    (h : w.record? b = some r) :
    ∃ r', (moves.foldl shift w).record? b = some r' ∧ r'.values.size = r.values.size
      ∧ r'.alive = r.alive
      ∧ ∀ slot, ((∀ mv ∈ moves, mv.agent ≠ b) ∨ slot ≠ xSlot ∧ slot ≠ ySlot) →
          r'.values[slot]? = r.values[slot]? := by
  induction moves generalizing w r with
  | nil => exact ⟨r, h, rfl, rfl, fun _ _ => rfl⟩
  | cons mv rest ih =>
    obtain ⟨x, y, hs⟩ := record?_shift w mv b
    by_cases hb : b = mv.agent
    · rw [if_pos hb, h] at hs
      obtain ⟨r', hr', hsize, halive, hslots⟩ := ih (w.shift mv) hs
      refine ⟨r', hr', by simpa using hsize, halive, fun slot hslot => ?_⟩
      rcases hslot with hno | ⟨hx, hy⟩
      · exact absurd hb.symm (hno mv (by simp))
      · rw [hslots slot (.inr ⟨hx, hy⟩), Record.getElem?_moved_of_ne _ _ _ hx hy]
    · rw [if_neg hb, h] at hs
      obtain ⟨r', hr', hsize, halive, hslots⟩ := ih (w.shift mv) hs
      refine ⟨r', hr', hsize, halive, fun slot hslot => hslots slot ?_⟩
      rcases hslot with hno | hxy
      · exact .inl fun x hx => hno x (by simp [hx])
      · exact .inr hxy

theorem record?_foldl_shift_none (moves : List Move) (w : World) (b : AgentRef)
    (h : w.record? b = none) : (moves.foldl shift w).record? b = none := by
  induction moves generalizing w with
  | nil => exact h
  | cons mv rest ih =>
    obtain ⟨x, y, hs⟩ := record?_shift w mv b
    apply ih (w.shift mv)
    rw [hs, h]
    split <;> rfl

/-- Moves leave everybody as alive as they were. -/
theorem alive_foldl_shift (moves : List Move) (w : World) (b : AgentRef) :
    ((moves.foldl shift w).record? b).map Record.alive = (w.record? b).map Record.alive := by
  cases hr : w.record? b with
  | none => rw [record?_foldl_shift_none moves w b hr]
  | some r =>
    obtain ⟨r', hr', -, halive, -⟩ := record?_foldl_shift moves w b hr
    rw [hr']
    exact congrArg some halive

-- ════════════════════════════════════════════════════════════════════════
-- Reading back
-- ════════════════════════════════════════════════════════════════════════

/-- The value in a slot, of live and dead agents alike. -/
def stored? (w : World) (a : AgentRef) (slot : Nat) : Option Value :=
  (w.record? a).bind fun r => r.values[slot]?

theorem getVariable_of_record? {w : World} {a : AgentRef} {r : Record} {slot : Nat}
    (hr : w.record? a = some r) (alive : r.alive = true) (hs : slot < r.values.size) :
    ∃ v, w.getVariable a slot = .ok v ∧ w.stored? a slot = some v := by
  refine ⟨r.values[slot], ?_, ?_⟩
  · rw [getVariable, live_of_record? hr alive]
    simp only [bind, Except.bind, Array.getElem?_eq_getElem hs]
  · simp [stored?, hr, hs]

/-- A live agent with a slot for each coordinate has a position. -/
theorem position_of_record? {w : World} {a : AgentRef} {r : Record} (hr : w.record? a = some r)
    (alive : r.alive = true) (hs : ySlot < r.values.size) :
    w.position a = .ok (r.coordinate xSlot, r.coordinate ySlot) := by
  rw [position, live_of_record? hr alive]
  show (if r.values.size ≤ ySlot then throw _ else pure _) = _
  rw [if_neg (Nat.not_le.2 hs)]
  rfl

/-- The slots that a layout has written can be read after it. -/
theorem readable_of_layoutSpring {w w' : World} {nodes links : AgentSet} {springs : Springs}
    {s s' : Random.Stream} {written : List (AgentRef × Nat)}
    (h : w.layoutSpring nodes links springs s = .ok (written, w') s') :
    ∀ p ∈ written, ∃ v, w'.getVariable p.1 p.2 = .ok v ∧ w'.stored? p.1 p.2 = some v := by
  obtain ⟨moves, hmobile, rfl, rfl⟩ := layoutSpring_ok h
  intro p hp
  obtain ⟨a, ha, hp⟩ := List.mem_flatMap.1 hp
  obtain ⟨mv, hmv, rfl⟩ := (mem_movedAgents moves a).1 ha
  obtain ⟨_, r, hr, alive, hy⟩ := hmobile mv hmv
  obtain ⟨r', hr', hsize, halive, _⟩ := record?_foldl_shift moves w mv.agent hr
  have hx : xSlot < r'.values.size := by
    rw [hsize]
    exact Nat.lt_trans (by decide) hy
  have hslot : p = (mv.agent, xSlot) ∨ p = (mv.agent, ySlot) := by simpa using hp
  rcases hslot with rfl | rfl
  · exact getVariable_of_record? hr' (halive.trans alive) hx
  · exact getVariable_of_record? hr' (halive.trans alive) (hsize.symm ▸ hy)

end World

end Swarm
