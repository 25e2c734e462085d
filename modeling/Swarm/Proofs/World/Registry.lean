import Swarm.Proofs.World.Variables

/-!
# The registry

Five calls change a world, in any order and with any arguments: births, links, deaths, writes and
layouts. Whatever their order, an agent keeps its number and its record for ever, nobody comes back
to life, and the registry stays well-formed: the observer and the patches live, a turtle's number is
in its record, the live agents of a kind are listed by number, a turtle takes its links with it, and
every live turtle stands on a patch.

## Main definitions

* `Operation.Addresses`: the slots that a call is asked to write
* `World.Retains`: records stay where they are
* `World.Populated`: who is there from the start, and which number a turtle has
* `World.Stands`, `World.EndsIn`: a turtle on a patch, a link with an end
* `World.WellFormed`: the registry as programs see it

## Main results

* `World.retains_applyAll`: what calls keep of every record
* `World.Populated.applyAll`: what they keep of the registry
* `World.isAlive_remove_turtle`: who survives the death of a turtle
* `World.Populated.mem_agents`, `World.pairwise_agents`: who is listed, and in which order
* `World.Populated.stands`: a live turtle stands on a patch, whatever its coordinates hold
* `World.registry_wellFormed`: the registry is well-formed in every world
-/

namespace Swarm

open Swarm.Random (Stream)

/-- The slots that the arguments of a call name. A call need not write all of them. -/
def Operation.Addresses : Operation → AgentRef → Nat → Prop
  | .write a slot _, b, other => b = a ∧ other = slot
  | .layout nodes _ _ _, b, other => b ∈ nodes.agents ∧ (other = xSlot ∨ other = ySlot)
  | _, _, _ => False

theorem Record.refersTo_iff {r : Record} {slot : Nat} {a : AgentRef} :
    r.refersTo slot a = true ↔ r.values[slot]? = some (.agent a) := by
  rw [refersTo]
  split
  · next b hb => simp [hb]
  · next hb => exact ⟨by rintro ⟨⟩, fun h => absurd h (hb a)⟩

namespace World

variable {w w' : World} {spec : WorldSpec}

-- ════════════════════════════════════════════════════════════════════════
-- Records stay
-- ════════════════════════════════════════════════════════════════════════

/-- Every record of `w` is in `w'` under its number. Who lives there lived before, and a slot that
none of the calls addresses holds what it held. -/
def Retains (w : World) (ops : List Operation) (w' : World) : Prop :=
  ∀ a r, w.record? a = some r → ∃ r', w'.record? a = some r' ∧ (r'.alive = true → r.alive = true)
    ∧ ∀ slot, (∀ op ∈ ops, ¬ op.Addresses a slot) → r'.values[slot]? = r.values[slot]?

theorem record?_apply_of_some {a : AgentRef} {r : Record} (hr : w.record? a = some r)
    (op : Operation) :
    ∃ r', (w.apply op).record? a = some r' ∧ (r'.alive = true → r.alive = true)
      ∧ ∀ slot, ¬ op.Addresses a slot → r'.values[slot]? = r.values[slot]? := by
  have happlied := w.applied_apply op
  generalize w.apply op = w' at happlied ⊢
  cases happlied with
  | failed => exact ⟨r, hr, id, fun _ _ => rfl⟩
  | create => exact ⟨r, record?_createTurtles_of_some hr _ _, id, fun _ _ => rfl⟩
  | link hlink =>
    refine ⟨r, ?_, id, fun _ _ => rfl⟩
    rw [createLink_ok hlink, record?_append, if_neg, hr]
    rintro rfl
    rw [record?_next] at hr
    cases hr
  | @kill victim =>
    obtain ⟨alive, hremove⟩ := record?_remove w victim a
    rw [hr] at hremove
    obtain ⟨r₀, hr₀, -, halive⟩ := values_remove hremove
    cases hr.symm.trans hr₀
    exact ⟨_, hremove, fun h => (halive h).1, fun _ _ => rfl⟩
  | @write b slot v stored haccept =>
    by_cases hb : a = b
    · subst hb
      refine ⟨r.put slot stored, by rw [record?_store, if_pos rfl, hr]; rfl, id, ?_⟩
      intro other hother
      exact Record.getElem?_put_of_ne r stored fun hslot => hother ⟨rfl, hslot⟩
    · exact ⟨r, by rw [record?_store, if_neg hb, hr], id, fun _ _ => rfl⟩
  | @layout nodes links springs stream moves hnodes =>
    obtain ⟨r', hr', -, halive, hvalues⟩ := record?_foldl_shift moves w a hr
    refine ⟨r', hr', fun h => halive ▸ h, fun slot hslot => hvalues slot ?_⟩
    by_cases ha : a ∈ nodes.agents
    · exact .inr (not_or.1 fun hplace => hslot ⟨ha, hplace⟩)
    · exact .inl fun mv hmv hagent => ha (hagent ▸ hnodes mv hmv)

theorem retains_applyAll (w : World) (ops : List Operation) : w.Retains ops (w.applyAll ops) := by
  induction ops generalizing w with
  | nil => exact fun _ r hr => ⟨r, hr, id, fun _ _ => rfl⟩
  | cons op ops ih =>
    intro a r hr
    obtain ⟨r₁, hr₁, halive₁, hslots₁⟩ := record?_apply_of_some hr op
    obtain ⟨r', hr', halive, hslots⟩ := ih (w.apply op) a r₁ hr₁
    refine ⟨r', hr', halive₁ ∘ halive, fun slot hslot => ?_⟩
    rw [hslots slot fun o ho => hslot o (by simp [ho]), hslots₁ slot (hslot op (by simp))]

-- ════════════════════════════════════════════════════════════════════════
-- Who is there
-- ════════════════════════════════════════════════════════════════════════

/-- A kill that succeeds is one of a live turtle or link. -/
theorem kill_eq_ok {a : AgentRef} (h : w.kill a = .ok w') :
    (a.kind = .turtle ∨ a.kind = .link) ∧ w' = w.remove a := by
  obtain ⟨_, hmortal, hw⟩ := Except.bind_eq_ok h
  cases hw
  refine ⟨?_, rfl⟩
  obtain ⟨kind, id⟩ := a
  cases kind with
  | turtle => exact .inl rfl
  | link => exact .inr rfl
  | _ => cases hmortal

/-- A death of a turtle or a link leaves the observer and the patches alone. -/
theorem record?_remove_of_kind {victim b : AgentRef}
    (hvictim : victim.kind = .turtle ∨ victim.kind = .link)
    (hb : b.kind = .observer ∨ b.kind = .patch) : (w.remove victim).record? b = w.record? b := by
  have hne : b ≠ victim := by
    rintro rfl
    rcases hvictim with h | h <;> simp [h] at hb
  have hlink : b.kind ≠ .link := by
    intro h
    simp [h] at hb
  unfold remove
  dsimp only
  split
  · rw [record?_dropLinks, record?_modifyRecord_of_ne w _ hne]
    simp [hlink]
  · exact record?_modifyRecord_of_ne w _ hne

theorem alive_apply_of_kind {b : AgentRef} (hb : b.kind = .observer ∨ b.kind = .patch)
    (op : Operation) :
    ((w.apply op).record? b).map Record.alive = (w.record? b).map Record.alive := by
  have happend {v : World} {kind : AgentKind} (r : Record) (hkind : kind = .turtle ∨ kind = .link) :
      (v.append kind r).record? b = v.record? b := by
    rw [record?_append, if_neg]
    rintro rfl
    rcases hkind with rfl | rfl <;> simp at hb
  cases op with
  | create count stream =>
    refine congrArg _ (growTurtles_induction (P := fun v => v.record? b = w.record? b) ?_ _ _ _ rfl)
    intro v s hv
    rw [createTurtle_fst, happend _ (.inl rfl), hv]
  | link first second =>
    rw [apply]
    split
    · next hlink => rw [createLink_ok hlink, happend _ (.inr rfl)]
    · rfl
  | kill victim =>
    rw [apply]
    split
    · next hkill =>
      obtain ⟨hkind, rfl⟩ := kill_eq_ok hkill
      rw [record?_remove_of_kind hkind hb]
    · rfl
  | write a slot v =>
    rw [apply]
    split
    · next hwrite =>
      obtain ⟨stored, -, hw⟩ := Except.bind_eq_ok hwrite
      cases hw
      exact alive_store w a slot stored b
    · rfl
  | layout nodes links springs stream =>
    rw [apply]
    split
    · next hlaid =>
      obtain ⟨moves, -, rfl, -⟩ := layoutSpring_ok hlaid
      exact alive_foldl_shift moves w b
    · rfl

/-- No call writes the number of a turtle. -/
theorem not_writes_who {op : Operation} {i : Nat} {v : Value} :
    ¬ op.Writes w (.turtle i) whoSlot v := by
  generalize hwho : whoSlot = slot
  rintro (haccept | _ | _)
  · obtain ⟨_, _, hfixed, _⟩ := accept_eq_ok_iff.1 haccept
    exact hfixed ⟨rfl, hwho.symm⟩
  · exact absurd hwho (by decide)
  · exact absurd hwho (by decide)

/-- Each turtle has its number in its record. -/
def Numbered (w : World) : Prop :=
  ∀ i r, w.record? (.turtle i) = some r → r.values[whoSlot]? = some (.number (Float.ofNat i))

theorem Numbered.createTurtle (h : w.Numbered) (hwho : whoSlot < (w.table .turtle).size)
    (s : Stream) : (w.createTurtle s).1.Numbered := by
  intro i r hr
  rw [record?_createTurtle] at hr
  split at hr
  · next hi =>
    cases hi
    cases hr
    rw [newborn, Record.getElem?_put_of_ne _ _ (by decide), Record.getElem?_put_of_ne _ _ (by decide)]
    exact Record.getElem?_put_self _ (by simpa [fresh] using hwho)
  · exact h i r hr

/-- The number of a turtle is set when it is born and never written. -/
theorem Numbered.apply (h : w.Numbered) (hregular : w.Regular)
    (hwho : whoSlot < (w.table .turtle).size) (op : Operation) : (w.apply op).Numbered := by
  by_cases hcreate : ∃ count stream, op = .create count stream
  · obtain ⟨count, stream, rfl⟩ := hcreate
    refine (growTurtles_induction (P := fun v => v.tables = w.tables ∧ v.Numbered) ?_ _ _ _
      ⟨rfl, h⟩).2
    rintro v s ⟨htables, hv⟩
    refine ⟨by rw [createTurtle_fst]; exact htables, hv.createTurtle ?_ s⟩
    rw [table, htables]
    exact hwho
  · intro i r' hr'
    have hsize : whoSlot < r'.values.size := by
      rw [hregular.apply op _ r' hr', table, (w.frame_apply op).1]
      exact hwho
    rcases record?_apply w op _ r' hr' with ⟨r, hr, -, hvalues⟩ | ⟨-, hbears⟩
    · have hnumber := Array.getElem?_eq_getElem hsize
      rcases hvalues whoSlot _ hnumber with hold | hwrites
      · rw [hnumber, ← hold]
        exact h i r hr
      · exact absurd hwrites not_writes_who
    · cases hbears
      exact absurd ⟨_, _, rfl⟩ hcreate

/-- The observer and the patches of a description are there and live, no other observer and no other
patch was made, and each turtle has its number in its record. -/
structure Populated (spec : WorldSpec) (w : World) : Prop where
  regular : w.Regular
  tables : w.tables = spec.tables
  width : w.width = spec.width
  height : w.height = spec.height
  observer : ∀ i, (w.record? ⟨.observer, i⟩).map Record.alive = if i = 0 then some true else none
  patches : ∀ i, (w.record? (.patch i)).map Record.alive =
    if i < spec.width * spec.height then some true else none
  who : w.Numbered

theorem Populated.isAlive_patch (h : w.Populated spec) {i : Nat}
    (hi : i < spec.width * spec.height) : w.isAlive (.patch i) = true := by
  have halive := h.patches i
  rw [if_pos hi] at halive
  obtain ⟨r, hr, halive⟩ := Option.map_eq_some_iff.1 halive
  exact isAlive_iff.2 ⟨r, hr, halive⟩

theorem Populated.isAlive_observer (h : w.Populated spec) {i : Nat} :
    w.isAlive ⟨.observer, i⟩ = true ↔ i = 0 := by
  have halive := h.observer i
  rw [isAlive_iff]
  cases hr : w.record? ⟨.observer, i⟩ <;> simp_all

/-- The table of turtles has the built-in variables. -/
theorem Populated.who_lt (h : w.Populated spec) : whoSlot < (w.table .turtle).size := by
  rw [table, h.tables]
  simp [WorldSpec.tables, PerKind.get, turtleVariables, whoSlot]

theorem Populated.apply (h : w.Populated spec) (op : Operation) : (w.apply op).Populated spec := by
  obtain ⟨htables, hwidth, hheight⟩ := w.frame_apply op
  refine ⟨h.regular.apply op, htables.trans h.tables, hwidth.trans h.width,
    hheight.trans h.height, fun i => ?_, fun i => ?_, h.who.apply h.regular h.who_lt op⟩
  · rw [alive_apply_of_kind (.inl rfl), h.observer]
  · rw [alive_apply_of_kind (.inr rfl), h.patches]

theorem Populated.applyAll (h : w.Populated spec) (ops : List Operation) :
    (w.applyAll ops).Populated spec := by
  induction ops generalizing w with
  | nil => exact h
  | cons op ops ih => exact ih (h.apply op)

/-- A value in a slot that is not the number of a turtle changes nothing of this. -/
theorem Populated.store (h : w.Populated spec) (a : AgentRef) {slot : Nat} (v : Value)
    (hslot : slot ≠ whoSlot) : (w.store a slot v).Populated spec := by
  refine ⟨h.regular.store a slot v, h.tables, h.width, h.height, fun i => ?_, fun i => ?_,
    fun i r' hr' => ?_⟩
  · rw [alive_store, h.observer]
  · rw [alive_store, h.patches]
  · rw [record?_store] at hr'
    split at hr'
    · next ha =>
      obtain ⟨r, hr, rfl⟩ := Option.map_eq_some_iff.1 hr'
      rw [Record.getElem?_put_of_ne r v hslot.symm]
      exact h.who i r (ha ▸ hr)
    · exact h.who i r' hr'

theorem populated_build (spec : WorldSpec) : (build spec).Populated spec := by
  refine ⟨regular_build spec, rfl, rfl, rfl, fun i => ?_, fun i => ?_, fun i r hr => ?_⟩
  · cases i with
    | zero => rfl
    | succ i => simp [record?, build, PerKind.get]
  · simp only [record?, build, PerKind.get, AgentRef.patch, List.getElem?_toArray,
      List.getElem?_map, Option.map_map]
    split
    · next hi => simp [hi, patchRecord, fresh]
    · next hi => simp [hi]
  · simp [record?, build, PerKind.get, AgentRef.turtle] at hr

-- ════════════════════════════════════════════════════════════════════════
-- The live agents of a kind
-- ════════════════════════════════════════════════════════════════════════

theorem mem_liveFrom (rs : List Record) (n id : Nat) :
    id ∈ liveFrom n rs ↔ ∃ i r, rs[i]? = some r ∧ r.alive = true ∧ id = n + i := by
  induction rs generalizing n with
  | nil => simp [liveFrom]
  | cons r rest ih =>
    have hcons : (∃ i r', (r :: rest)[i]? = some r' ∧ r'.alive = true ∧ id = n + i)
        ↔ (r.alive = true ∧ id = n) ∨ id ∈ liveFrom (n + 1) rest := by
      rw [ih]
      constructor
      · rintro ⟨_ | i, r', hr', halive, rfl⟩
        · cases hr'
          exact .inl ⟨halive, rfl⟩
        · exact .inr ⟨i, r', hr', halive, by omega⟩
      · rintro (⟨halive, rfl⟩ | ⟨i, r', hr', halive, rfl⟩)
        · exact ⟨0, r, rfl, halive, rfl⟩
        · exact ⟨i + 1, r', hr', halive, by omega⟩
    rw [hcons, liveFrom]
    split <;> simp_all

theorem pairwise_liveFrom (rs : List Record) (n : Nat) : (liveFrom n rs).Pairwise (· < ·) := by
  induction rs generalizing n with
  | nil => exact .nil
  | cons r rest ih =>
    rw [liveFrom]
    split
    · refine .cons (fun id hid => ?_) (ih (n + 1))
      obtain ⟨i, _, _, _, rfl⟩ := (mem_liveFrom rest (n + 1) id).1 hid
      omega
    · exact ih (n + 1)

theorem agents_eq {kind : AgentKind} (h : kind ≠ .observer) :
    (w.agents kind).agents = (liveFrom 0 (w.records.get kind).toList).map (AgentRef.mk kind) := by
  cases kind with
  | observer => exact absurd rfl h
  | _ => rfl

/-- The agents of a kind are those that live. -/
theorem Populated.mem_agents (h : w.Populated spec) (kind : AgentKind) (a : AgentRef) :
    a ∈ (w.agents kind).agents ↔ a.kind = kind ∧ w.isAlive a = true := by
  by_cases hkind : kind = .observer
  · subst hkind
    show a ∈ [AgentRef.observer] ↔ _
    obtain ⟨kind, id⟩ := a
    constructor
    · intro ha
      cases List.mem_singleton.1 ha
      exact ⟨rfl, h.isAlive_observer.2 rfl⟩
    · rintro ⟨rfl, halive⟩
      rw [h.isAlive_observer.1 halive]
      exact List.mem_singleton_self _
  · obtain ⟨kind', id⟩ := a
    simp only [agents_eq hkind, List.mem_map, mem_liveFrom, isAlive_iff, record?]
    constructor
    · rintro ⟨_, ⟨i, r, hr, halive, rfl⟩, hmk⟩
      cases hmk
      exact ⟨rfl, r, by simpa using hr, halive⟩
    · rintro ⟨rfl, r, hr, halive⟩
      exact ⟨id, ⟨id, r, by simpa using hr, halive, by omega⟩, rfl⟩

/-- They are listed by number, each once. -/
theorem pairwise_agents (w : World) (kind : AgentKind) :
    (w.agents kind).agents.Pairwise fun a b => a.id < b.id := by
  by_cases hkind : kind = .observer
  · subst hkind
    exact List.pairwise_singleton _ _
  · rw [agents_eq hkind]
    exact List.pairwise_map.2 (pairwise_liveFrom _ 0)

-- ════════════════════════════════════════════════════════════════════════
-- The death of a turtle
-- ════════════════════════════════════════════════════════════════════════

/-- The link has the agent as an end. -/
def EndsIn (w : World) (link a : AgentRef) : Prop :=
  link.kind = .link ∧ (w.stored? link firstEndSlot = some (.agent a)
    ∨ w.stored? link secondEndSlot = some (.agent a))

/-- Everybody survives but the turtle and the links that end in it. -/
theorem isAlive_remove_turtle {t : Nat} {b : AgentRef} :
    (w.remove (.turtle t)).isAlive b = true
      ↔ w.isAlive b = true ∧ b ≠ .turtle t ∧ ¬ w.EndsIn b (.turtle t) := by
  have hremove : w.remove (.turtle t) =
      (w.modifyRecord (.turtle t) fun r => { r with alive := false }).dropLinks (.turtle t) := rfl
  rw [isAlive_iff, isAlive_iff, hremove, record?_dropLinks]
  by_cases hb : b = .turtle t
  · subst hb
    rw [record?_modifyRecord_self]
    cases w.record? (.turtle t) <;> simp
  · rw [record?_modifyRecord_of_ne w _ hb]
    cases hr : w.record? b with
    | none => simp
    | some r =>
      have hends : w.EndsIn b (.turtle t) ↔ b.kind = .link ∧
          (r.refersTo firstEndSlot (.turtle t) || r.refersTo secondEndSlot (.turtle t)) = true := by
        rw [EndsIn, stored?, stored?, hr, Bool.or_eq_true, Record.refersTo_iff, Record.refersTo_iff]
        rfl
      rw [hends]
      simp only [Option.map_some, Option.some.injEq, exists_eq_left']
      split
      · next hlink => exact ⟨by rintro ⟨⟩, fun h => absurd hlink h.2.2⟩
      · next hlink => exact ⟨fun h => ⟨h, hb, hlink⟩, And.left⟩

-- ════════════════════════════════════════════════════════════════════════
-- The patch under a turtle
-- ════════════════════════════════════════════════════════════════════════

theorem gridLine_lt {size : Nat} (h : size ≠ 0) (x : Float) : gridLine size x < size := by
  have hmin : gridLine size x ≤ size - 1 := Nat.min_le_right _ _
  omega

/-- The turtle stands on a patch of the grid, which is there and lives. -/
def Stands (w : World) (turtle : AgentRef) : Prop :=
  ∃ px py, px < w.width ∧ py < w.height ∧ w.patchHere turtle = .ok (.patch (py * w.width + px))
    ∧ w.isAlive (.patch (py * w.width + px)) = true

theorem Populated.stands (h : w.Populated spec) (hwidth : spec.width ≠ 0)
    (hheight : spec.height ≠ 0) {t : Nat} (halive : w.isAlive (.turtle t) = true) :
    w.Stands (.turtle t) := by
  obtain ⟨r, hr, halive⟩ := isAlive_iff.1 halive
  have hsize : ySlot < r.values.size := by
    rw [h.regular _ r hr]
    exact Nat.lt_trans (by decide) h.who_lt
  have hposition := position_of_record? hr halive hsize
  have hpx := gridLine_lt (h.width ▸ hwidth) (r.coordinate xSlot)
  have hpy := gridLine_lt (h.height ▸ hheight) (r.coordinate ySlot)
  refine ⟨_, _, hpx, hpy, by rw [patchHere, hposition]; rfl, h.isAlive_patch ?_⟩
  rw [← h.width, ← h.height]
  calc gridLine w.height (r.coordinate ySlot) * w.width + gridLine w.width (r.coordinate xSlot)
    _ < gridLine w.height (r.coordinate ySlot) * w.width + w.width := Nat.add_lt_add_left hpx _
    _ = (gridLine w.height (r.coordinate ySlot) + 1) * w.width := (Nat.succ_mul _ _).symm
    _ ≤ w.height * w.width := Nat.mul_le_mul_right _ hpy
    _ = w.width * w.height := Nat.mul_comm _ _

-- ════════════════════════════════════════════════════════════════════════
-- Every world
-- ════════════════════════════════════════════════════════════════════════

/-- The registry of a grid, as programs see it. -/
structure WellFormed (spec : WorldSpec) (w : World) : Prop extends Populated spec w where
  members : ∀ kind a, a ∈ (w.agents kind).agents ↔ a.kind = kind ∧ w.isAlive a = true
  increasing : ∀ kind, (w.agents kind).agents.Pairwise fun a b => a.id < b.id
  deaths : ∀ t, w.isAlive (.turtle t) = true → ∃ w', w.kill (.turtle t) = .ok w' ∧
    ∀ b, w'.isAlive b = true ↔ w.isAlive b = true ∧ b ≠ .turtle t ∧ ¬ w.EndsIn b (.turtle t)
  /-- Also with any other values for coordinates, numbers or not. -/
  standing : ∀ t, w.isAlive (.turtle t) = true → w.Stands (.turtle t) ∧
    ∀ x y, ((w.store (.turtle t) xSlot x).store (.turtle t) ySlot y).Stands (.turtle t)

theorem Populated.wellFormed (h : w.Populated spec) (hwidth : spec.width ≠ 0)
    (hheight : spec.height ≠ 0) : w.WellFormed spec where
  toPopulated := h
  members := h.mem_agents
  increasing := w.pairwise_agents
  deaths _ halive := ⟨_, kill_turtle halive, fun _ => isAlive_remove_turtle⟩
  standing t halive := by
    refine ⟨h.stands hwidth hheight halive, fun x y => ?_⟩
    have hmoved := (h.store (.turtle t) x (by decide : xSlot ≠ whoSlot)).store (.turtle t) y
      (by decide : ySlot ≠ whoSlot)
    exact hmoved.stands hwidth hheight (isAlive_store (isAlive_store halive))

/-- Whatever calls are made on the world of a description, its registry is well-formed, and whatever
calls are made after them, no record of it is lost, renumbered or brought back to life. -/
theorem registry_wellFormed {spec : WorldSpec} {w : World} {s : Stream}
    (h : ofSpec spec = .ok (w, s)) (ops more : List Operation) :
    (w.applyAll ops).WellFormed spec
      ∧ (w.applyAll ops).Retains more ((w.applyAll ops).applyAll more) := by
  obtain ⟨hwidth, hheight, rfl⟩ := ofSpec_eq_applyAll h
  refine ⟨?_, retains_applyAll _ more⟩
  have hpopulated := ((populated_build spec).applyAll spec.setup).applyAll ops
  exact hpopulated.wellFormed hwidth hheight

theorem registry_wellFormed_hub :
    ∃ s, ofSpec hub = .ok (hubWorld, s)
      ∧ (hubWorld.applyAll repointing).WellFormed hub
      ∧ (hubWorld.applyAll repointing).Retains straying
        ((hubWorld.applyAll repointing).applyAll straying) := by
  obtain ⟨s, hs⟩ := ofSpec_hub
  exact ⟨s, hs, registry_wellFormed hs repointing straying⟩

end World

end Swarm
