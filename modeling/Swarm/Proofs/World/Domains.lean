import Swarm.Proofs.Number.Rounding
import Swarm.Proofs.World.Operations
import Swarm.Proofs.World.Sound

/-!
# Values and their domains

A write is checked against the domain of its variable, but records are also filled in other ways:
with the initial values that a description declares, by births, by links and by the moves of a
layout. What the built-in variables are filled with is in their domains. A declared initial value is
taken as it is, and a layout moves whatever it is given as a node, by whatever distance comes out.

## Main definitions

* `Variable.Accepts`: a value that may be written to a variable
* `World.SlotHolds`: what a slot can hold after a sequence of calls

## Main results

* `Variable.accepts_stored`: what was stored may be written again
* `World.accepts_keepInside`: a coordinate that is kept inside of the grid is in its domain
* `World.Kept.apply`, `World.Kept.applyAll`: what one call keeps, and what several keep
* `World.stored_in_domain`: what every slot holds in every world
* `World.stored_not_in_domain`: a slot can hold what its domain refuses
-/

namespace Swarm

open Swarm.Random (Stream)
open Swarm.Number (Double)

/-- The value may be written to the variable. -/
def Variable.Accepts (x : Variable) (v : Value) : Prop :=
  ∃ stored, x.domain.stored x.name v = .ok stored

/-- A value is stored as it is, but for a color, which is wrapped. -/
theorem Domain.stored_eq {d : Domain} {name : String} {v stored : Value}
    (h : d.stored name v = .ok stored) :
    stored = v ∨ d = .color ∧ ∃ y, stored = .number y := by
  cases d with
  | any =>
    cases h
    exact .inl rfl
  | number =>
    cases v with
    | number y =>
      cases h
      exact .inl rfl
    | _ => cases h
  | range low high =>
    cases v with
    | number y =>
      unfold Domain.stored at h
      dsimp only at h
      split at h
      · cases h
      · split at h
        · cases h
        · cases h
          exact .inl rfl
    | _ => cases h
  | boolean =>
    cases v with
    | boolean b =>
      cases h
      exact .inl rfl
    | _ => cases h
  | color =>
    cases v with
    | number y =>
      cases h
      exact .inr ⟨rfl, _, rfl⟩
    | _ => cases h
  | agent kind =>
    cases v with
    | nobody =>
      cases h
      exact .inl rfl
    | agent a =>
      unfold Domain.stored at h
      dsimp only at h
      split at h
      · cases h
        exact .inl rfl
      · cases h
    | _ => cases h

namespace Variable

variable {x : Variable}

theorem accepts_number {y : Float} (hx : x.domain = .number) : x.Accepts (.number y) := by
  rw [Accepts, hx]
  exact ⟨_, rfl⟩

theorem accepts_color {y : Float} (hx : x.domain = .color) : x.Accepts (.number y) := by
  rw [Accepts, hx]
  exact ⟨_, rfl⟩

theorem accepts_range {low high y : Float} (hx : x.domain = .range low high)
    (hy : Number.isFinite y = true ∧ ¬ y < low ∧ ¬ high < y) : x.Accepts (.number y) := by
  obtain ⟨hfinite, hlow, hhigh⟩ := hy
  refine ⟨.number y, ?_⟩
  rw [hx, Domain.stored]
  simp [hfinite, hlow, hhigh]

theorem accepts_agent {kind : AgentKind} {a : AgentRef} (hx : x.domain = .agent kind)
    (ha : a.kind = kind) : x.Accepts (.agent a) := by
  refine ⟨.agent a, ?_⟩
  rw [hx, Domain.stored]
  simp [ha]

/-- What was stored may be written again. -/
theorem accepts_stored {v stored : Value} (h : x.domain.stored x.name v = .ok stored) :
    x.Accepts stored := by
  rcases Domain.stored_eq h with rfl | ⟨hcolor, y, rfl⟩
  · exact ⟨stored, h⟩
  · exact accepts_color hcolor

end Variable

namespace Random.Stream

/-- Words of `width` bits, drawn until one is accepted, give a number below the bound. -/
theorem attempt_lt {width bound : Nat} (h : 0 < bound) {draw : Stream → Nat × Stream}
    (word : ∀ s, (draw s).1 < 2 ^ width) (fuel : Nat) (s : Stream) :
    (attempt width draw bound fuel s).1 < bound := by
  induction fuel generalizing s with
  | zero => exact h
  | succ fuel ih =>
    rw [attempt]
    dsimp only
    split
    · refine (Nat.div_lt_iff_lt_mul (Nat.two_pow_pos width)).2 ?_
      rw [Nat.mul_comm]
      exact Nat.mul_lt_mul_of_pos_left (word s) h
    · exact ih _

/-- A bounded draw stays below its bound. -/
theorem below_lt {bound : Nat} (h : 0 < bound) (s : Stream) : (s.below bound).1 < bound := by
  rw [below, if_neg (Nat.ne_of_gt h)]
  exact attempt_lt h (fun s => UInt64.toNat_lt s.next64.1) _ s

end Random.Stream

-- ════════════════════════════════════════════════════════════════════════
-- Coordinates and headings
-- ════════════════════════════════════════════════════════════════════════

section Coordinates

variable {size : Nat} (hsize : size ≠ 0) (hword : size ≤ Number.wordMax)
include hsize hword

/-- The upper bound of a coordinate is finite, and neither below zero nor below the lower bound. -/
theorem coordinate_bounds : Number.isFinite (Float.ofNat size - 0.5) = true
    ∧ ¬ Float.ofNat size - 0.5 < 0 ∧ ¬ Float.ofNat size - 0.5 < -0.5 := by
  have hlt : size < 2 ^ 64 := Nat.lt_of_le_of_lt hword (by decide)
  exact Number.finite_of_spans (Number.spans_sub_half (Number.spans_ofNat hsize hlt))

/-- A coordinate that is kept inside of the grid is in its domain, unless it is undefined. -/
theorem accepts_keepInside {x : Variable} (hx : x.domain = coordinateDomain size) (y : Float) :
    x.Accepts (.number (World.keepInside size y))
      ∨ Double.ofFloat (World.keepInside size y) = .nan := by
  obtain ⟨hfinite, -, horder⟩ := coordinate_bounds hsize hword
  exact (Number.clamp_inside (by decide +kernel) hfinite horder y).imp_left
    (Variable.accepts_range hx)

/-- The middle of the first grid line is in the domain. -/
theorem accepts_zero {x : Variable} (hx : x.domain = coordinateDomain size) :
    x.Accepts .zero := by
  obtain ⟨hfinite, hzero, _⟩ := coordinate_bounds hsize hword
  exact Variable.accepts_range hx ⟨by decide +kernel, by decide +kernel, hzero⟩

end Coordinates

/-- A heading that is drawn is in its domain. -/
theorem accepts_heading {x : Variable} (hx : x.domain = .range 0 360) (s : Stream) :
    x.Accepts (.number (Float.ofNat (s.below 360).1)) := by
  have hlt : (s.below 360).1 < 360 := Random.Stream.below_lt (by decide) s
  have hless : ¬ Float.ofNat 360 < Float.ofNat (s.below 360).1 :=
    Number.not_ofNat_lt (Nat.le_of_lt hlt) (by decide)
  refine Variable.accepts_range hx ⟨?_, Number.not_ofNat_lt (Nat.zero_le _) (by omega), hless⟩
  by_cases hzero : (s.below 360).1 = 0
  · rw [hzero]
    decide +kernel
  · exact (Number.finite_of_spans (Number.spans_ofNat hzero (by omega))).1

-- ════════════════════════════════════════════════════════════════════════
-- Slots
-- ════════════════════════════════════════════════════════════════════════

/-- The operation lays the agent out. -/
def Operation.LaysOut : Operation → AgentRef → Prop
  | .layout nodes _ _ _, a => a ∈ nodes.agents
  | _, _ => False

/-- A description whose extent is positive and fits a word. -/
structure WorldSpec.Sized (spec : WorldSpec) : Prop where
  width : spec.width ≠ 0
  height : spec.height ≠ 0
  widthWord : spec.width ≤ Number.wordMax
  heightWord : spec.height ≤ Number.wordMax

namespace World

/-- What a slot of an agent can hold that is declared as `x`: a value in the domain of `x`, an
initial value that the description gives, or a number that a layout has put there. Of the last kind
are any numbers for the observer and for links, and only undefined ones for turtles. -/
inductive SlotHolds (spec : WorldSpec) (laidOut : AgentRef → Prop) (a : AgentRef) (slot : Nat)
    (x : Variable) : Value → Prop where
  | accepted {v : Value} : x.Accepts v → SlotHolds spec laidOut a slot x v
  | initial : x ∈ spec.declared → SlotHolds spec laidOut a slot x x.initial
  | moved {y : Float} : laidOut a → slot = xSlot ∨ slot = ySlot →
    a.kind = .observer ∨ a.kind = .link ∨ a.kind = .turtle ∧ Double.ofFloat y = .nan →
    SlotHolds spec laidOut a slot x (.number y)

theorem SlotHolds.mono {spec : WorldSpec} {laidOut laidOut' : AgentRef → Prop} {a : AgentRef}
    {slot : Nat} {x : Variable} {v : Value} (h : SlotHolds spec laidOut a slot x v)
    (hmono : laidOut a → laidOut' a) : SlotHolds spec laidOut' a slot x v := by
  cases h with
  | accepted h => exact .accepted h
  | initial h => exact .initial h
  | moved hlaid hslot hkind => exact .moved (hmono hlaid) hslot hkind

/-- A world with the tables and the extent of a description, whose records hold one value for each
variable. -/
structure Kept (spec : WorldSpec) (laidOut : AgentRef → Prop) (w : World) : Prop where
  tables : w.tables = spec.tables
  width : w.width = spec.width
  height : w.height = spec.height
  regular : w.Regular
  values : ∀ a r, w.record? a = some r → ∀ slot v, r.values[slot]? = some v →
    ∀ x, (spec.tables.get a.kind)[slot]? = some x → SlotHolds spec laidOut a slot x v

variable {spec : WorldSpec} {laidOut : AgentRef → Prop} {w : World}

/-- The built-in variables start in their domains. -/
theorem accepts_initial (hsize : spec.Sized) {kind : AgentKind} {slot : Nat} {x : Variable}
    (hx : (spec.tables.get kind)[slot]? = some x) : x ∈ spec.declared ∨ x.Accepts x.initial := by
  have hbuiltin : ∀ x ∈ turtleVariables spec.width spec.height ++ patchVariables ++ linkVariables,
      x.Accepts x.initial := by
    intro x hx
    simp only [turtleVariables, patchVariables, linkVariables, List.mem_append, List.mem_cons,
      List.not_mem_nil, or_false] at hx
    rcases hx with ((rfl | rfl | rfl | rfl | rfl) | rfl | rfl | rfl | rfl) | rfl | rfl | rfl
    · exact accepts_zero hsize.width hsize.widthWord rfl
    · exact accepts_zero hsize.height hsize.heightWord rfl
    · exact ⟨_, rfl⟩
    · exact ⟨_, rfl⟩
    · exact Variable.accepts_range rfl (by decide +kernel)
    all_goals exact ⟨_, rfl⟩
  have hmem : x ∈ spec.tables.get kind := Array.mem_of_getElem? hx
  cases kind <;>
    simp only [WorldSpec.tables, PerKind.get, List.mem_toArray, List.mem_append] at hmem <;>
    simp only [WorldSpec.declared, List.mem_append] <;> grind

/-- A new record holds the initial values. -/
theorem slotHolds_fresh (hsize : spec.Sized) (htables : w.tables = spec.tables) {a : AgentRef}
    {slot : Nat} {v : Value} {x : Variable} (hx : (spec.tables.get a.kind)[slot]? = some x)
    (hv : (w.fresh a.kind).values[slot]? = some v) : SlotHolds spec laidOut a slot x v := by
  rw [fresh, table, htables, Array.getElem?_map, hx] at hv
  obtain rfl := Option.some.inj hv
  rcases accepts_initial hsize hx with hdeclared | haccepts
  · exact .initial hdeclared
  · exact .accepted haccepts

/-- A coordinate that a layout writes. -/
theorem slotHolds_keepInside (hsize : spec.Sized) {a : AgentRef} {slot size : Nat} {x : Variable}
    (hx : (spec.tables.get a.kind)[slot]? = some x)
    (hslot : slot = xSlot ∧ size = spec.width ∨ slot = ySlot ∧ size = spec.height)
    (hlaid : laidOut a) (y : Float) :
    SlotHolds spec laidOut a slot x (.number (keepInside size y)) := by
  have hcoordinate : slot = xSlot ∨ slot = ySlot := hslot.imp And.left And.left
  obtain ⟨kind, id⟩ := a
  cases kind with
  | observer => exact .moved hlaid hcoordinate (.inl rfl)
  | link => exact .moved hlaid hcoordinate (.inr (.inl rfl))
  | patch =>
    have hdomain : x.domain = .number := by
      rcases hcoordinate with rfl | rfl <;>
        · cases hx
          rfl
    exact .accepted (Variable.accepts_number hdomain)
  | turtle =>
    have hdomain : size ≠ 0 ∧ size ≤ Number.wordMax ∧ x.domain = coordinateDomain size := by
      rcases hslot with ⟨rfl, rfl⟩ | ⟨rfl, rfl⟩
      · cases hx
        exact ⟨hsize.width, hsize.widthWord, rfl⟩
      · cases hx
        exact ⟨hsize.height, hsize.heightWord, rfl⟩
    rcases accepts_keepInside hdomain.1 hdomain.2.1 hdomain.2.2 y with haccepts | hnan
    · exact .accepted haccepts
    · exact .moved hlaid hcoordinate (.inr (.inr ⟨rfl, hnan⟩))

/-- What a call writes. -/
theorem slotHolds_of_writes (hsize : spec.Sized) (h : Kept spec laidOut w) {op : Operation}
    {a : AgentRef} {slot : Nat} {v : Value} {x : Variable}
    (hx : (spec.tables.get a.kind)[slot]? = some x) (hwrites : op.Writes w a slot v) :
    SlotHolds spec op.LaysOut a slot x v := by
  cases hwrites with
  | write haccept =>
    obtain ⟨x', _, hx', -, -, hstored⟩ := accept_eq_ok haccept
    rw [table, h.tables, hx] at hx'
    cases hx'
    exact .accepted (Variable.accepts_stored hstored)
  | abscissa y hnode => exact slotHolds_keepInside hsize hx (.inl ⟨rfl, h.width⟩) hnode y
  | ordinate y hnode => exact slotHolds_keepInside hsize hx (.inr ⟨rfl, h.height⟩) hnode y

theorem kind_of_canLink {a : AgentRef} (h : w.canLink a = true) : a.kind = .turtle := by
  rw [canLink, Bool.and_eq_true, decide_eq_true_iff] at h
  exact h.1

/-- A value after a put is the value that was put, or one from before. -/
theorem slotHolds_put {a : AgentRef} {r : Record} {slot target : Nat} {u v : Value} {x : Variable}
    (hx : (spec.tables.get a.kind)[slot]? = some x)
    (hv : (r.put target u).values[slot]? = some v)
    (hput : ∀ y, (spec.tables.get a.kind)[target]? = some y → y.Accepts u)
    (hrest : r.values[slot]? = some v → SlotHolds spec laidOut a slot x v) :
    SlotHolds spec laidOut a slot x v := by
  by_cases hslot : slot = target
  · subst hslot
    rw [Record.eq_of_getElem?_put hv]
    exact .accepted (hput x hx)
  · rw [Record.getElem?_put_of_ne _ _ hslot] at hv
    exact hrest hv

/-- What a new agent starts with. -/
theorem slotHolds_of_bears (hsize : spec.Sized) (h : Kept spec laidOut w) {op : Operation}
    {a : AgentRef} {r : Record} {slot : Nat} {v : Value} {x : Variable}
    (hx : (spec.tables.get a.kind)[slot]? = some x) (hbears : op.Bears w a r)
    (hv : r.values[slot]? = some v) : SlotHolds spec laidOut a slot x v := by
  cases hbears with
  | turtle id htables =>
    refine slotHolds_put hx hv ?heading fun hv => ?_
    case heading =>
      rintro _ ⟨⟩
      exact accepts_heading rfl _
    refine slotHolds_put hx hv ?color fun hv => ?_
    case color =>
      rintro _ ⟨⟩
      exact Variable.accepts_color rfl
    refine slotHolds_put hx hv ?who fun hv => ?_
    case who =>
      rintro _ ⟨⟩
      exact Variable.accepts_number rfl
    exact slotHolds_fresh hsize (htables.trans h.tables) hx hv
  | link id hfirst hsecond =>
    refine slotHolds_put hx hv ?second fun hv => ?_
    case second =>
      rintro _ ⟨⟩
      exact Variable.accepts_agent rfl (kind_of_canLink hsecond)
    refine slotHolds_put hx hv ?first fun hv => ?_
    case first =>
      rintro _ ⟨⟩
      exact Variable.accepts_agent rfl (kind_of_canLink hfirst)
    exact slotHolds_fresh hsize h.tables hx hv

/-- One call keeps the values in their slots. -/
theorem Kept.apply (hsize : spec.Sized) (h : Kept spec laidOut w) (op : Operation) :
    Kept spec (fun a => laidOut a ∨ op.LaysOut a) (w.apply op) := by
  obtain ⟨htables, hwidth, hheight⟩ := w.frame_apply op
  refine ⟨htables.trans h.tables, hwidth.trans h.width, hheight.trans h.height,
    h.regular.apply op, fun a r' hr' slot v hv x hx => ?_⟩
  rcases record?_apply w op a r' hr' with ⟨r, hr, -, hvalues⟩ | ⟨-, hbears⟩
  · rcases hvalues slot v hv with hold | hwrites
    · exact (h.values a r hr slot v hold x hx).mono .inl
    · exact (slotHolds_of_writes hsize h hx hwrites).mono .inr
  · exact (slotHolds_of_bears hsize h hx hbears hv).mono .inl

theorem Kept.mono {laidOut' : AgentRef → Prop} (h : Kept spec laidOut w)
    (hmono : ∀ a, laidOut a → laidOut' a) : Kept spec laidOut' w where
  tables := h.tables
  width := h.width
  height := h.height
  regular := h.regular
  values a r hr slot v hv x hx := (h.values a r hr slot v hv x hx).mono (hmono a)

/-- Several calls keep the values in their slots. -/
theorem Kept.applyAll (hsize : spec.Sized) (h : Kept spec laidOut w) (ops : List Operation) :
    Kept spec (fun a => laidOut a ∨ ∃ op ∈ ops, op.LaysOut a) (w.applyAll ops) := by
  induction ops generalizing w laidOut with
  | nil => exact h.mono fun _ => .inl
  | cons op ops ih =>
    refine (ih (h.apply hsize op)).mono fun a hlaid => ?_
    rcases hlaid with (hlaid | hlays) | ⟨op', hop', hlays⟩
    · exact .inl hlaid
    · exact .inr ⟨op, by simp, hlays⟩
    · exact .inr ⟨op', by simp [hop'], hlays⟩

/-- The observer and the patches start with their initial values, the patches with their place in
the grid. -/
theorem kept_build (hsize : spec.Sized) : Kept spec (fun _ => False) (build spec) := by
  refine ⟨rfl, rfl, rfl, regular_build spec, fun a r hr slot v hv x hx => ?_⟩
  rcases record?_build hr with ⟨rfl, rfl⟩ | ⟨id, rfl, rfl⟩
  · exact slotHolds_fresh hsize rfl hx hv
  · rw [patchRecord_eq] at hv
    refine slotHolds_put hx hv ?ordinate fun hv => ?_
    case ordinate =>
      rintro _ ⟨⟩
      exact Variable.accepts_number rfl
    refine slotHolds_put hx hv ?abscissa fun hv => ?_
    case abscissa =>
      rintro _ ⟨⟩
      exact Variable.accepts_number rfl
    exact slotHolds_fresh hsize rfl hx hv

/-- In every world each slot holds a value that its domain accepts, an initial value that the
description declares, or a number that a layout has put there. -/
theorem stored_in_domain {spec : WorldSpec} {w : World} {s : Stream}
    (h : ofSpec spec = .ok (w, s)) (hwidth : spec.width ≤ Number.wordMax)
    (hheight : spec.height ≤ Number.wordMax) (ops : List Operation) {a : AgentRef} {r : Record}
    (hr : (w.applyAll ops).record? a = some r) {slot : Nat} {v : Value}
    (hv : r.values[slot]? = some v) :
    ∃ x, ((w.applyAll ops).table a.kind)[slot]? = some x
      ∧ SlotHolds spec (fun a => ∃ op ∈ ops, op.LaysOut a) a slot x v := by
  obtain ⟨hcolumns, hrows, rfl⟩ := ofSpec_eq_applyAll h
  have hsize : spec.Sized := ⟨hcolumns, hrows, hwidth, hheight⟩
  have hsetup : ∀ a, ¬ ∃ op ∈ spec.setup, op.LaysOut a := by
    rintro a ⟨op, hop, hlays⟩
    rcases WorldSpec.mem_setup hop with ⟨_, _, rfl⟩ | ⟨_, _, rfl⟩ <;> exact hlays
  have hkept := ((kept_build hsize).applyAll hsize spec.setup).applyAll hsize ops
  have hslot : slot < ((((build spec).applyAll spec.setup).applyAll ops).table a.kind).size := by
    obtain ⟨hlt, _⟩ := Array.getElem?_eq_some_iff.1 hv
    rwa [← hkept.regular a r hr]
  obtain ⟨x, hx⟩ : ∃ x, ((((build spec).applyAll spec.setup).applyAll ops).table a.kind)[slot]? =
      some x := ⟨_, Array.getElem?_eq_getElem hslot⟩
  refine ⟨x, hx, (hkept.values a r hr slot v hv x ?_).mono ?_⟩
  · rw [← hkept.tables]
    exact hx
  · rintro ((hnever | hlaid) | hlaid)
    · exact hnever.elim
    · exact absurd hlaid (hsetup a)
    · exact hlaid

/-- A global variable for numbers that starts as nobody, and two turtles with two links. -/
def loose : WorldSpec :=
  { WorldSpec.default with
    globals := [⟨"g", .number, .nobody⟩], turtles := 2, links := [(0, 1), (1, 0)] }

def looseWorld : World :=
  (build loose).applyAll loose.setup

/-- The links are laid out as if they were turtles. -/
def sliding : List Operation :=
  [.layout (looseWorld.agents .link) (looseWorld.agents .link) ⟨1, 1, 1⟩ (.ofSeed 0)]

theorem ofSpec_loose : ∃ s, ofSpec loose = .ok (looseWorld, s) :=
  ⟨_, rfl⟩

theorem number_of_sliding :
    ∃ r y, (looseWorld.applyAll sliding).record? (.link 0) = some r ∧ r.alive = true
      ∧ r.values[firstEndSlot]? = some (.number y) := by
  have hlive : (looseWorld.applyAll sliding).isAlive (.link 0) = true := by decide +kernel
  have hnumber : ∃ y, (looseWorld.applyAll sliding).stored? (.link 0) firstEndSlot
      = some (.number y) := exists_stored?_eq_number (by decide +kernel)
  obtain ⟨r, hr, halive⟩ := isAlive_iff.1 hlive
  obtain ⟨y, hy⟩ := hnumber
  rw [stored?, hr, Option.bind_some] at hy
  exact ⟨r, y, hr, halive, hy⟩

theorem stored_in_domain_loose :
    ∃ s r v x, ofSpec loose = .ok (looseWorld, s) ∧ loose.width ≤ Number.wordMax
      ∧ loose.height ≤ Number.wordMax
      ∧ (looseWorld.applyAll sliding).record? (.link 0) = some r
      ∧ r.values[firstEndSlot]? = some v
      ∧ ((looseWorld.applyAll sliding).table .link)[firstEndSlot]? = some x
      ∧ SlotHolds loose (fun a => ∃ op ∈ sliding, op.LaysOut a) (.link 0) firstEndSlot x v := by
  obtain ⟨s, hs⟩ := ofSpec_loose
  obtain ⟨r, y, hr, -, hv⟩ := number_of_sliding
  obtain ⟨x, hx, hholds⟩ := stored_in_domain hs (by decide) (by decide) sliding hr hv
  exact ⟨s, r, _, x, hs, by decide, by decide, hr, hv, hx, hholds⟩

/-- A slot can hold what its domain refuses: a global variable its initial value, and the end of a
link a number that a layout has put there. -/
theorem stored_not_in_domain :
    (∃ s, ofSpec loose = .ok (looseWorld, s))
      ∧ (∃ r x, looseWorld.record? .observer = some r ∧ r.alive = true
        ∧ r.values[0]? = some .nobody ∧ (looseWorld.table .observer)[0]? = some x
        ∧ ¬ x.Accepts .nobody)
      ∧ ∃ r x y, (looseWorld.applyAll sliding).record? (.link 0) = some r ∧ r.alive = true
        ∧ r.values[firstEndSlot]? = some (.number y)
        ∧ ((looseWorld.applyAll sliding).table .link)[firstEndSlot]? = some x
        ∧ ¬ x.Accepts (.number y) := by
  have htables : looseWorld.tables = loose.tables := (frame_applyAll (build loose) loose.setup).1
  refine ⟨ofSpec_loose, ?_, ?_⟩
  · have hlive : looseWorld.isAlive .observer = true := by decide +kernel
    have hnobody : looseWorld.stored? .observer 0 = some .nobody :=
      stored?_eq_nobody (by decide +kernel)
    obtain ⟨r, hr, halive⟩ := isAlive_iff.1 hlive
    rw [stored?, hr, Option.bind_some] at hnobody
    refine ⟨r, ⟨"g", .number, .nobody⟩, hr, halive, hnobody, ?_, by rintro ⟨_, ⟨⟩⟩⟩
    rw [table, htables]
    rfl
  · obtain ⟨r, y, hr, halive, hv⟩ := number_of_sliding
    refine ⟨r, ⟨"end1", .agent .turtle, .nobody⟩, y, hr, halive, hv, ?_,
      by rintro ⟨_, ⟨⟩⟩⟩
    rw [table, (frame_applyAll looseWorld sliding).1, htables]
    rfl

end World

end Swarm
