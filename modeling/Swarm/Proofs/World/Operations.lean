import Swarm.Proofs.World.Reachable

/-!
# Sequences of operations

The calls that change a world, made one after another with any arguments. A call that fails leaves
the world as it was. Every record after a call is a record from before, with some values written,
or the record of an agent that was born; the world of a description is itself reached by such calls
from the bare grid.

## Main definitions

* `Operation`: a call with its arguments
* `World.apply`, `World.applyAll`: the world after a call, and after several
* `World.Applied`: what a call does
* `Operation.Writes`, `Operation.Bears`: the values that a call writes, and the records it adds
* `World.Called`: a world that calls lead to from a description

## Main results

* `World.applied_apply`: every call does one of these
* `World.record?_apply`: where the records after a call come from
* `World.isAlive_apply`: a turtle dies only when it is killed
* `World.ofSpec_eq_applyAll`: the world of a description
-/

namespace Swarm

open Swarm.Random (Stream)

/-- A call that may change a world. -/
inductive Operation where
  | create (count : Nat) (stream : Stream)
  | link (first second : AgentRef)
  | kill (victim : AgentRef)
  | write (a : AgentRef) (slot : Nat) (v : Value)
  | layout (nodes links : AgentSet) (springs : Springs) (stream : Stream)

namespace World

/-- The world after a call. -/
def apply (w : World) : Operation → World
  | .create count stream => (w.createTurtles count stream).2.1
  | .link first second =>
    match w.createLink first second with
    | .ok (_, w') => w'
    | .error _ => w
  | .kill victim =>
    match w.kill victim with
    | .ok w' => w'
    | .error _ => w
  | .write a slot v =>
    match w.setVariable a slot v with
    | .ok w' => w'
    | .error _ => w
  | .layout nodes links springs stream =>
    match w.layoutSpring nodes links springs stream with
    | .ok (_, w') _ => w'
    | .error _ _ => w

/-- The world after several calls. -/
def applyAll (w : World) (ops : List Operation) : World :=
  ops.foldl apply w

end World

namespace Operation

/-- A value that an operation on `w` may leave in a slot: one that was accepted there, or a
coordinate inside the grid for a node of a layout. -/
inductive Writes (w : World) : Operation → AgentRef → Nat → Value → Prop where
  | write {a : AgentRef} {slot : Nat} {v stored : Value} : w.accept a slot v = .ok stored →
    Writes w (.write a slot v) a slot stored
  | abscissa {nodes links : AgentSet} {springs : Springs} {stream : Stream} {a : AgentRef}
    (x : Float) : a ∈ nodes.agents → Writes w (.layout nodes links springs stream) a xSlot
      (.number (World.keepInside w.width x))
  | ordinate {nodes links : AgentSet} {springs : Springs} {stream : Stream} {a : AgentRef}
    (y : Float) : a ∈ nodes.agents → Writes w (.layout nodes links springs stream) a ySlot
      (.number (World.keepInside w.height y))

/-- A record that an operation on `w` may add. -/
inductive Bears (w : World) : Operation → AgentRef → Record → Prop where
  | turtle {count : Nat} {stream s : Stream} {v : World} (id : Nat) : v.tables = w.tables →
    Bears w (.create count stream) (.turtle id) (v.newborn s)
  | link {first second : AgentRef} (id : Nat) : w.canLink first = true →
    w.canLink second = true → Bears w (.link first second) (.link id)
      (((w.fresh .link).put firstEndSlot (.agent first)).put secondEndSlot (.agent second))

end Operation

/-- The value read from a slot is the one that was put there. -/
theorem Record.eq_of_getElem?_put {r : Record} {slot : Nat} {v u : Value}
    (h : (r.put slot v).values[slot]? = some u) : u = v := by
  obtain ⟨hlt, _⟩ := Array.getElem?_eq_some_iff.1 h
  rw [getElem?_put_self v (by simpa using hlt)] at h
  exact (Option.some.inj h).symm

namespace World

variable {w : World}

theorem stored?_eq_agent {a b : AgentRef} {slot : Nat}
    (h : (w.stored? a slot).bind Value.agent? = some b) : w.stored? a slot = some (.agent b) := by
  obtain ⟨v, hv, hagent⟩ := Option.bind_eq_some_iff.1 h
  cases v <;> simp_all [Value.agent?]

theorem exists_stored?_eq_number {a : AgentRef} {slot : Nat}
    (h : ((w.stored? a slot).bind Value.number?).isSome = true) :
    ∃ x, w.stored? a slot = some (.number x) := by
  obtain ⟨x, hx⟩ := Option.isSome_iff_exists.1 h
  obtain ⟨v, hv, hnumber⟩ := Option.bind_eq_some_iff.1 hx
  cases v <;> simp_all [Value.number?]

theorem stored?_eq_nobody {a : AgentRef} {slot : Nat}
    (h : (w.stored? a slot).any Value.isNobody = true) : w.stored? a slot = some .nobody := by
  obtain ⟨v, hv, hnobody⟩ := (Option.any_eq_true _ _).1 h
  cases v <;> simp_all [Value.isNobody]

-- ════════════════════════════════════════════════════════════════════════
-- What a call does
-- ════════════════════════════════════════════════════════════════════════

/-- What a call does to a world. A call that fails does nothing. -/
inductive Applied (w : World) : Operation → World → Prop where
  | failed {op : Operation} : Applied w op w
  | create {count : Nat} {stream : Stream} :
    Applied w (.create count stream) (w.createTurtles count stream).2.1
  | link {first second a : AgentRef} {w' : World} : w.createLink first second = .ok (a, w') →
    Applied w (.link first second) w'
  | kill {victim : AgentRef} : Applied w (.kill victim) (w.remove victim)
  | write {a : AgentRef} {slot : Nat} {v stored : Value} : w.accept a slot v = .ok stored →
    Applied w (.write a slot v) (w.store a slot stored)
  | layout {nodes links : AgentSet} {springs : Springs} {stream : Stream} {moves : List Move} :
    (∀ mv ∈ moves, mv.agent ∈ nodes.agents) →
    Applied w (.layout nodes links springs stream) (moves.foldl shift w)

theorem applied_apply (w : World) (op : Operation) : w.Applied op (w.apply op) := by
  cases op with
  | create count stream => exact .create
  | link first second =>
    rw [apply]
    split
    · next h => exact .link h
    · exact .failed
  | kill victim =>
    rw [apply]
    split
    · next h =>
      obtain ⟨_, _, hw⟩ := Except.bind_eq_ok h
      cases hw
      exact .kill
    · exact .failed
  | write a slot v =>
    rw [apply]
    split
    · next h =>
      obtain ⟨stored, hstored, hw⟩ := Except.bind_eq_ok h
      cases hw
      exact .write hstored
    · exact .failed
  | layout nodes links springs stream =>
    rw [apply]
    split
    · next h =>
      obtain ⟨moves, hmobile, rfl, _⟩ := layoutSpring_ok h
      exact .layout fun mv hmv => (hmobile mv hmv).1
    · exact .failed

-- ════════════════════════════════════════════════════════════════════════
-- Records
-- ════════════════════════════════════════════════════════════════════════

/-- The records of `w'` are those of `w`, with values that `op` writes, or such that `op` adds. -/
def Follows (w : World) (op : Operation) (w' : World) : Prop :=
  ∀ b r', w'.record? b = some r' →
    (∃ r, w.record? b = some r ∧ (r'.alive = true → r.alive = true) ∧
      ∀ slot v, r'.values[slot]? = some v → r.values[slot]? = some v ∨ op.Writes w b slot v)
    ∨ w.record? b = none ∧ op.Bears w b r'

theorem follows_self (w : World) (op : Operation) : w.Follows op w :=
  fun _ r hr => .inl ⟨r, hr, id, fun _ _ hv => .inl hv⟩

theorem follows_create (w : World) (count : Nat) (stream : Stream) :
    w.Follows (.create count stream) (w.createTurtles count stream).2.1 := by
  -- the worlds in between keep the tables and all records of `w`
  have h : (growTurtles count w stream).1.tables = w.tables
      ∧ (∀ b, (growTurtles count w stream).1.record? b = none → w.record? b = none)
      ∧ w.Follows (.create count stream) (growTurtles count w stream).1 := by
    apply growTurtles_induction (P := fun v => v.tables = w.tables
      ∧ (∀ b, v.record? b = none → w.record? b = none) ∧ w.Follows (.create count stream) v)
    · rintro v s ⟨htables, hnone, hv⟩
      refine ⟨by rw [createTurtle_fst]; exact htables, fun b hb => ?_, fun b r' hr' => ?_⟩
      · rw [record?_createTurtle] at hb
        split at hb
        · cases hb
        · exact hnone b hb
      · rw [record?_createTurtle] at hr'
        split at hr'
        · next hb =>
          subst hb
          cases hr'
          exact .inr ⟨hnone _ (v.record?_next .turtle), .turtle _ htables⟩
        · exact hv b r' hr'
    · exact ⟨rfl, fun _ hb => hb, w.follows_self _⟩
  exact h.2.2

theorem follows_link {w' : World} {first second a : AgentRef}
    (h : w.createLink first second = .ok (a, w')) : w.Follows (.link first second) w' := by
  have hends : w.canLink first = true ∧ w.canLink second = true := by
    rw [createLink] at h
    split at h
    · cases h
    · split at h
      · cases h
      · next hfirst hsecond => exact ⟨by simpa using hfirst, by simpa using hsecond⟩
  rw [createLink_ok h]
  intro b r' hr'
  rw [record?_append] at hr'
  split at hr'
  · next hb =>
    subst hb
    cases hr'
    exact .inr ⟨w.record?_next .link, .link _ hends.1 hends.2⟩
  · exact .inl ⟨r', hr', id, fun _ _ hv => .inl hv⟩

/-- After a death records have the values they had. What still lives lived before, and is no link
that ended in a turtle that died. -/
theorem values_remove {a b : AgentRef} {r' : Record} (h : (w.remove a).record? b = some r') :
    ∃ r, w.record? b = some r ∧ r'.values = r.values ∧ (r'.alive = true → r.alive = true ∧
      (a.kind = .turtle → b.kind = .link →
        (r.refersTo firstEndSlot a || r.refersTo secondEndSlot a) = false)) := by
  have hone {r' : Record} (h : (w.modifyRecord a fun r => { r with alive := false }).record? b =
      some r') : ∃ r, w.record? b = some r ∧ r'.values = r.values
        ∧ (r'.alive = true → r.alive = true) := by
    by_cases hb : b = a
    · subst hb
      rw [record?_modifyRecord_self] at h
      obtain ⟨r, hr, rfl⟩ := Option.map_eq_some_iff.1 h
      exact ⟨r, hr, rfl, fun dead => by cases dead⟩
    · rw [record?_modifyRecord_of_ne w _ hb] at h
      exact ⟨r', h, rfl, id⟩
  unfold remove at h
  dsimp only at h
  split at h
  · rw [record?_dropLinks] at h
    obtain ⟨r₁, hr₁, rfl⟩ := Option.map_eq_some_iff.1 h
    obtain ⟨r, hr, hvalues, halive⟩ := hone hr₁
    refine ⟨r, hr, ?_, ?_⟩
    · split <;> exact hvalues
    · split
      · exact fun dead => by cases dead
      · next hrefers =>
        refine fun h => ⟨halive h, fun _ hkind => ?_⟩
        simpa [hkind, Record.refersTo, hvalues] using hrefers
  · next hkind =>
    obtain ⟨r, hr, hvalues, halive⟩ := hone h
    exact ⟨r, hr, hvalues, fun h => ⟨halive h, fun hturtle => absurd hturtle hkind⟩⟩

theorem follows_kill (w : World) (victim : AgentRef) :
    w.Follows (.kill victim) (w.remove victim) := by
  intro b r' hr'
  obtain ⟨r, hr, hvalues, halive⟩ := values_remove hr'
  exact .inl ⟨r, hr, fun h => (halive h).1, fun slot v hv => .inl (hvalues ▸ hv)⟩

theorem follows_write {a : AgentRef} {slot : Nat} {v stored : Value}
    (h : w.accept a slot v = .ok stored) :
    w.Follows (.write a slot v) (w.store a slot stored) := by
  intro b r' hr'
  rw [record?_store] at hr'
  split at hr'
  · next hb =>
    subst hb
    obtain ⟨r, hr, rfl⟩ := Option.map_eq_some_iff.1 hr'
    refine .inl ⟨r, hr, id, fun other u hu => ?_⟩
    by_cases hother : other = slot
    · subst hother
      cases Record.eq_of_getElem?_put hu
      exact .inr (.write h)
    · rw [Record.getElem?_put_of_ne r stored hother] at hu
      exact .inl hu
  · exact .inl ⟨r', hr', id, fun _ _ hu => .inl hu⟩

/-- A value after a move was there before, or is a coordinate inside the grid. -/
theorem getElem?_shift (w : World) (mv : Move) {b : AgentRef} {r' : Record}
    (h : (w.shift mv).record? b = some r') :
    ∃ r, w.record? b = some r ∧ r'.alive = r.alive ∧ ∀ slot v, r'.values[slot]? = some v →
      r.values[slot]? = some v ∨ mv.agent = b ∧
        ((slot = xSlot ∧ ∃ x, v = .number (keepInside w.width x))
          ∨ slot = ySlot ∧ ∃ y, v = .number (keepInside w.height y)) := by
  by_cases hb : b = mv.agent
  · subst hb
    rw [shift, record?_modifyRecord_self] at h
    obtain ⟨r, hr, rfl⟩ := Option.map_eq_some_iff.1 h
    refine ⟨r, hr, rfl, fun slot v hv => ?_⟩
    simp only [Array.getElem?_modify] at hv
    split at hv
    · next hy =>
      split at hv
      · next hx => exact absurd (hx.trans hy.symm) (by decide)
      · obtain ⟨u, _, rfl⟩ := Option.map_eq_some_iff.1 hv
        exact .inr ⟨rfl, .inr ⟨hy.symm, _, rfl⟩⟩
    · split at hv
      · next hx =>
        obtain ⟨u, _, rfl⟩ := Option.map_eq_some_iff.1 hv
        exact .inr ⟨rfl, .inl ⟨hx.symm, _, rfl⟩⟩
      · exact .inl hv
  · rw [shift, record?_modifyRecord_of_ne w _ hb] at h
    exact ⟨r', h, rfl, fun _ _ hv => .inl hv⟩

/-- A value after moves was there before, or is a coordinate inside the grid of an agent that was
moved. -/
theorem getElem?_foldl_shift (moves : List Move) (w : World) (b : AgentRef) {r' : Record}
    (h : (moves.foldl shift w).record? b = some r') :
    ∃ r, w.record? b = some r ∧ r'.alive = r.alive ∧ ∀ slot v, r'.values[slot]? = some v →
      r.values[slot]? = some v ∨ (∃ mv ∈ moves, mv.agent = b) ∧
        ((slot = xSlot ∧ ∃ x, v = .number (keepInside w.width x))
          ∨ slot = ySlot ∧ ∃ y, v = .number (keepInside w.height y)) := by
  induction moves generalizing w with
  | nil => exact ⟨r', h, rfl, fun _ _ hv => .inl hv⟩
  | cons mv rest ih =>
    obtain ⟨r₁, hr₁, halive, hvalues⟩ := ih (w.shift mv) h
    obtain ⟨r, hr, halive₁, hvalues₁⟩ := getElem?_shift w mv hr₁
    refine ⟨r, hr, halive.trans halive₁, fun slot v hv => ?_⟩
    rcases hvalues slot v hv with hv | ⟨⟨m, hm, rfl⟩, hplace⟩
    · rcases hvalues₁ slot v hv with hv | ⟨hmv, hplace⟩
      · exact .inl hv
      · exact .inr ⟨⟨mv, by simp, hmv⟩, hplace⟩
    · exact .inr ⟨⟨m, by simp [hm], rfl⟩, hplace⟩

theorem follows_layout {nodes links : AgentSet} {springs : Springs} {stream : Stream}
    {moves : List Move} (h : ∀ mv ∈ moves, mv.agent ∈ nodes.agents) :
    w.Follows (.layout nodes links springs stream) (moves.foldl shift w) := by
  intro b r' hr'
  obtain ⟨r, hr, halive, hvalues⟩ := getElem?_foldl_shift moves w b hr'
  refine .inl ⟨r, hr, halive ▸ id, fun slot v hv => ?_⟩
  rcases hvalues slot v hv with hold | ⟨⟨mv, hmv, rfl⟩, ⟨rfl, x, rfl⟩ | ⟨rfl, y, rfl⟩⟩
  · exact .inl hold
  · exact .inr (.abscissa x (h mv hmv))
  · exact .inr (.ordinate y (h mv hmv))

/-- Every record after a call is one from before, with values that the call writes, or one that the
call adds. -/
theorem record?_apply (w : World) (op : Operation) : w.Follows op (w.apply op) := by
  have happlied := w.applied_apply op
  generalize w.apply op = w' at happlied ⊢
  cases happlied with
  | failed => exact w.follows_self op
  | create => exact w.follows_create _ _
  | link h => exact follows_link h
  | kill => exact w.follows_kill _
  | write h => exact follows_write h
  | layout h => exact follows_layout h

-- ════════════════════════════════════════════════════════════════════════
-- What every call keeps
-- ════════════════════════════════════════════════════════════════════════

/-- What holds of a world, of its copy with one more turtle or link, after one store, death or move,
holds after every call. -/
theorem apply_induction {P : World → Prop} (append : ∀ w kind r, P w → P (w.append kind r))
    (modify : ∀ w a f, P w → P (w.modifyRecord a f)) (drop : ∀ w a, P w → P (w.dropLinks a))
    (op : Operation) (h : P w) : P (w.apply op) := by
  have happlied := w.applied_apply op
  generalize w.apply op = w' at happlied ⊢
  cases happlied with
  | failed => exact h
  | create =>
    refine growTurtles_induction (fun v s hv => ?_) _ w _ h
    rw [createTurtle_fst]
    exact append v .turtle _ hv
  | link hlink =>
    rw [createLink_ok hlink]
    exact append w .link _ h
  | kill =>
    unfold remove
    dsimp only
    split
    · exact drop _ _ (modify _ _ _ h)
    · exact modify _ _ _ h
  | write => exact modify _ _ _ h
  | @layout _ _ _ _ moves hnodes =>
    clear hnodes
    induction moves generalizing w with
    | nil => exact h
    | cons mv rest ih => exact ih (modify _ _ _ h)

/-- Tables and extent stay. -/
theorem frame_apply (w : World) (op : Operation) :
    (w.apply op).tables = w.tables ∧ (w.apply op).width = w.width
      ∧ (w.apply op).height = w.height :=
  apply_induction (P := fun v => v.tables = w.tables ∧ v.width = w.width ∧ v.height = w.height)
    (fun _ _ _ h => h) (fun _ _ _ h => h) (fun _ _ h => h) op ⟨rfl, rfl, rfl⟩

theorem frame_applyAll (w : World) (ops : List Operation) :
    (w.applyAll ops).tables = w.tables ∧ (w.applyAll ops).width = w.width
      ∧ (w.applyAll ops).height = w.height := by
  induction ops generalizing w with
  | nil => exact ⟨rfl, rfl, rfl⟩
  | cons op ops ih =>
    obtain ⟨htables, hwidth, hheight⟩ := ih (w.apply op)
    obtain ⟨htable, hwide, hhigh⟩ := w.frame_apply op
    exact ⟨htables.trans htable, hwidth.trans hwide, hheight.trans hhigh⟩

theorem Regular.apply (h : w.Regular) (op : Operation) : (w.apply op).Regular := by
  have happlied := w.applied_apply op
  generalize w.apply op = w' at happlied ⊢
  cases happlied with
  | failed => exact h
  | create => exact h.createTurtles _ _
  | link hlink => exact h.createLink hlink
  | kill => exact h.remove _
  | write => exact h.store _ _ _
  | layout => exact h.foldl_shift _

theorem Regular.applyAll (h : w.Regular) (ops : List Operation) : (w.applyAll ops).Regular := by
  induction ops generalizing w with
  | nil => exact h
  | cons op ops ih => exact ih (h.apply op)

theorem Reachable.apply (h : w.Reachable) (op : Operation) : (w.apply op).Reachable := by
  cases op with
  | create count stream => exact h.birth count stream
  | link first second =>
    rw [World.apply]
    split
    · next hlink => exact h.link hlink
    · exact h
  | kill victim =>
    rw [World.apply]
    split
    · next hkill => exact h.death hkill
    · exact h
  | write a slot v =>
    rw [World.apply]
    split
    · next hwrite => exact h.write hwrite
    · exact h
  | layout nodes links springs stream =>
    rw [World.apply]
    split
    · next hlaid => exact h.layout hlaid
    · exact h

theorem Reachable.applyAll (h : w.Reachable) (ops : List Operation) :
    (w.applyAll ops).Reachable := by
  induction ops generalizing w with
  | nil => exact h
  | cons op ops ih => exact ih (h.apply op)

/-- Some calls lead to the world from that of a description. -/
def Called (w : World) : Prop :=
  ∃ (spec : WorldSpec) (start : World) (s : Stream) (ops : List Operation),
    ofSpec spec = .ok (start, s) ∧ w = start.applyAll ops

theorem Called.apply (h : w.Called) (op : Operation) : (w.apply op).Called := by
  obtain ⟨spec, start, s, ops, hstart, rfl⟩ := h
  exact ⟨spec, start, s, ops ++ [op], hstart, by simp [World.applyAll]⟩

/-- Operations that succeed are calls. -/
theorem Reachable.called (h : w.Reachable) : w.Called := by
  induction h with
  | start hstart => exact ⟨_, _, _, [], hstart, rfl⟩
  | @write _ _ a slot v _ hwrite ih => simpa [World.apply, hwrite] using ih.apply (.write a slot v)
  | birth count s _ ih => exact ih.apply (.create count s)
  | @link _ _ first second _ _ hlink ih =>
    simpa [World.apply, hlink] using ih.apply (.link first second)
  | @death _ _ a _ hkill ih => simpa [World.apply, hkill] using ih.apply (.kill a)
  | @layout _ _ nodes links springs s _ _ _ hlaid ih =>
    simpa [World.apply, hlaid] using ih.apply (.layout nodes links springs s)

-- ════════════════════════════════════════════════════════════════════════
-- Liveness
-- ════════════════════════════════════════════════════════════════════════

theorem isAlive_iff {a : AgentRef} :
    w.isAlive a = true ↔ ∃ r, w.record? a = some r ∧ r.alive = true := by
  rw [isAlive]
  cases w.record? a with
  | none => simp
  | some r => simp

/-- A live turtle can be killed. -/
theorem kill_turtle {t : Nat} (h : w.isAlive (.turtle t) = true) :
    w.kill (.turtle t) = .ok (w.remove (.turtle t)) := by
  obtain ⟨r, hr, halive⟩ := isAlive_iff.1 h
  have hmortal : w.mortal (.turtle t) = .ok () := by
    show (w.live (.turtle t)).map (fun _ => ()) = .ok ()
    rw [live_of_record? hr halive]
    rfl
  rw [kill, hmortal]
  rfl

theorem isAlive_append {a : AgentRef} (kind : AgentKind) (r : Record) (h : w.isAlive a = true) :
    (w.append kind r).isAlive a = true := by
  obtain ⟨r₀, hr₀, halive⟩ := isAlive_iff.1 h
  refine isAlive_iff.2 ⟨r₀, ?_, halive⟩
  rw [record?_append, if_neg, hr₀]
  rintro rfl
  rw [record?_next] at hr₀
  cases hr₀

theorem record?_remove_turtle {t : Nat} {victim : AgentRef} (h : AgentRef.turtle t ≠ victim) :
    (w.remove victim).record? (.turtle t) = w.record? (.turtle t) := by
  unfold remove
  dsimp only
  split
  · rw [record?_dropLinks, record?_modifyRecord_of_ne w _ h]
    cases w.record? (.turtle t) with
    | none => rfl
    | some r => simp [AgentRef.turtle]
  · exact record?_modifyRecord_of_ne w _ h

theorem isAlive_store {a b : AgentRef} {slot : Nat} {v : Value} (h : w.isAlive a = true) :
    (w.store b slot v).isAlive a = true := by
  obtain ⟨r, hr, halive⟩ := isAlive_iff.1 h
  rw [isAlive_iff, record?_store]
  split
  · next ha =>
    refine ⟨r.put slot v, ?_, halive⟩
    rw [← ha, hr]
    rfl
  · exact ⟨r, hr, halive⟩

/-- A turtle dies only when it is killed. -/
theorem isAlive_apply {t : Nat} (h : w.isAlive (.turtle t) = true) (op : Operation) :
    (w.apply op).isAlive (.turtle t) = true ∨ op = .kill (.turtle t) := by
  have happlied := w.applied_apply op
  generalize w.apply op = w' at happlied ⊢
  cases happlied with
  | failed => exact .inl h
  | create =>
    refine .inl (growTurtles_induction (P := fun v => v.isAlive (.turtle t) = true) ?_ _ w _ h)
    intro v s hv
    rw [createTurtle_fst]
    exact isAlive_append _ _ hv
  | link hlink => exact .inl (createLink_ok hlink ▸ isAlive_append _ _ h)
  | @kill victim =>
    by_cases hv : AgentRef.turtle t = victim
    · exact .inr (hv ▸ rfl)
    · exact .inl (by rwa [isAlive, record?_remove_turtle hv])
  | write => exact .inl (isAlive_store h)
  | layout =>
    obtain ⟨r, hr, halive⟩ := isAlive_iff.1 h
    obtain ⟨r', hr', _, halive', _⟩ := record?_foldl_shift _ w (.turtle t) hr
    exact .inl (isAlive_iff.2 ⟨r', hr', halive'.trans halive⟩)

end World

/-- The calls that lead from the bare grid to the world of a description. -/
def WorldSpec.setup (spec : WorldSpec) : List Operation :=
  .create spec.turtles (Stream.ofSeed (UInt64.ofNat spec.seed)) ::
    spec.links.map fun p => .link (.turtle p.1) (.turtle p.2)

/-- Turtles and links are all that is made. -/
theorem WorldSpec.mem_setup {spec : WorldSpec} {op : Operation} (h : op ∈ spec.setup) :
    (∃ count stream, op = .create count stream) ∨ ∃ first second, op = .link first second := by
  rcases List.mem_cons.1 h with rfl | hlink
  · exact .inl ⟨_, _, rfl⟩
  · obtain ⟨_, _, rfl⟩ := List.mem_map.1 hlink
    exact .inr ⟨_, _, rfl⟩

namespace World

theorem linkPairs_eq_applyAll (pairs : List (Nat × Nat)) :
    ∀ {w w' : World}, w.linkPairs pairs = .ok w' →
      w' = w.applyAll (pairs.map fun p => .link (.turtle p.1) (.turtle p.2)) := by
  induction pairs with
  | nil =>
    intro w w' h
    cases h
    rfl
  | cons p rest ih =>
    intro w w' h
    obtain ⟨⟨a, w₁⟩, hone, hrest⟩ := Except.bind_eq_ok h
    rw [ih hrest]
    simp [applyAll, World.apply, hone]

/-- The world of a description comes from the bare grid by calls. -/
theorem ofSpec_eq_applyAll {spec : WorldSpec} {w : World} {s : Stream}
    (h : ofSpec spec = .ok (w, s)) :
    spec.width ≠ 0 ∧ spec.height ≠ 0 ∧ w = (build spec).applyAll spec.setup := by
  obtain ⟨wide, high, hlinks⟩ := ofSpec_eq_ok h
  exact ⟨wide, high, linkPairs_eq_applyAll spec.links hlinks⟩

end World

end Swarm
