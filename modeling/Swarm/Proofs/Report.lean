import Swarm.Proofs.Program.Fits
import Swarm.Proofs.World.Sound

/-!
# Expressions that were checked

An expression that was checked gives a well-kinded value or fails in a way that may surface,
whatever the world holds.

## Main definitions

* `View.Sound`: what an expression may rely on

## Main results

* `Expr.report_yields`: how a checked expression may end
-/

namespace Swarm

/-- What a checked expression may rely on. -/
structure View.Sound (sc : Scope) (v : View) : Prop where
  world : v.world.Sound
  slots : ∀ kind, sc.slots kind = (v.world.table kind).size
  locals : v.frame.locals.size = sc.procedure.locals
  kinded : ∀ x ∈ v.frame.locals, x.wellKinded = true

section Arguments

variable {forgiving : Bool}

theorem Argument.yields_mismatch {α : Type} {Q : α → Prop} (primitive expected : String)
    (v : Value) : Except.Yields forgiving Q (mismatch primitive expected v) :=
  Fault.tolerable_ofCause nofun

theorem Argument.yields_number (primitive : String) (v : Value) :
    Except.Yields forgiving (fun _ => True) (number primitive v) := by
  rw [number]
  split
  · trivial
  · exact yields_mismatch _ _ _

theorem Argument.yields_boolean (primitive : String) (v : Value) :
    Except.Yields forgiving (fun _ => True) (boolean primitive v) := by
  rw [boolean]
  split
  · trivial
  · exact yields_mismatch _ _ _

theorem Argument.yields_count (primitive : String) (v : Value) :
    Except.Yields forgiving (fun _ => True) (count primitive v) :=
  (yields_number primitive v).bind fun _ _ => trivial

theorem Argument.yields_agentset (primitive : String) {v : Value} (hv : v.wellKinded = true) :
    Except.Yields forgiving AgentSet.WellKinded (agentset primitive v) := by
  unfold agentset Value.agentset?
  cases v with
  | agentset s => exact Value.wellKinded_agentset.1 hv
  | _ => exact yields_mismatch _ _ _

theorem Argument.yields_agents (primitive : String) (v : Value) :
    Except.Yields forgiving (fun _ => True) (agents primitive v) := by
  unfold agents
  split
  · trivial
  · trivial
  · exact yields_mismatch _ _ _

end Arguments

theorem Frame.yields_get {forgiving : Bool} {f : Frame} {slot : Nat} (hs : slot < f.locals.size)
    (hk : ∀ x ∈ f.locals, x.wellKinded = true) :
    Except.Yields forgiving (fun v => v.wellKinded = true) (f.get slot) := by
  rw [get]
  rw [Array.getElem?_eq_getElem hs]
  exact hk _ (Array.getElem_mem hs)

theorem Random.Stream.mem_of_pick {α : Type} {xs : List α} {x : α} {s : Stream}
    (h : (pick xs s).1 = some x) : x ∈ xs := by
  rw [pick] at h
  split at h
  · cases h
  · exact List.mem_of_getElem? h

namespace Reporter

variable {sc : Scope} {v : View}

/-- A reporter without arguments. -/
theorem report0_yields (h : v.Sound sc) {r : Reporter} {position : Position} (harity : r.arity = 0)
    (hcheck : sc.checkReporter r position = .ok ())
    (hconst : ∀ x, r = .constant x → x.wellKinded = true) :
    Except.Yields sc.forgiving (fun x => x.wellKinded = true) (r.report0 v position) := by
  cases r with
  | getVariable kind slot =>
    have hslot : slot < (v.world.table kind).size := h.slots kind ▸ Scope.checkVariable_eq_ok hcheck
    apply (h.world.target v.agent kind _).bind
    intro a ha
    exact h.world.getVariable (ha ▸ hslot)
  | constant x => exact hconst x rfl
  | getLocal slot =>
    exact Frame.yields_get (h.locals ▸ Scope.checkLocal_eq_ok hcheck) h.kinded
  | self =>
    unfold report0
    dsimp only
    split
    · exact Fault.tolerable_ofCause nofun
    · rfl
  | turtles => exact Value.wellKinded_agentset.2 (World.wellKinded_agents _ _)
  | patches => exact Value.wellKinded_agentset.2 (World.wellKinded_agents _ _)
  | links => exact Value.wellKinded_agentset.2 (World.wellKinded_agents _ _)
  | errorMessage => rfl
  | unknown name =>
    -- an unresolved name passes the check only where such names are let through
    have hforgiving : sc.forgiving = true := by
      by_cases hf : sc.forgiving
      · exact hf
      · simp [Scope.checkReporter, hf] at hcheck
    rw [hforgiving]
    exact Fault.tolerable_unresolved name position
  | _ => simp [arity] at harity

theorem pickOne_yields {forgiving : Bool} {w : World} {token : String} {a : Value}
    (ha : a.wellKinded = true) :
    Draw.Yields forgiving (fun x => x.wellKinded = true) (pickOne w token a) := by
  unfold pickOne
  split
  · apply (Draw.yields_ofStream (P := fun _ => True) _ fun _ => trivial).bind
    intro found _
    split
    · exact Draw.yields_pure rfl
    · exact Draw.yields_pure rfl
  · exact Draw.yields_throw (Fault.tolerable_ofCause nofun)
  · next items _ =>
    refine (Draw.yields_ofStream (P := fun found => ∀ x, found = some x → x.wellKinded = true) _
      fun s x hx => Value.wellKinded_of_mem ha (Random.Stream.mem_of_pick hx)).bind fun found hf => ?_
    split
    · exact Draw.yields_pure (hf _ rfl)
    · exact Draw.yields_pure rfl
  · exact Draw.yields_ofExcept (Argument.yields_mismatch _ _ _)

/-- A reporter applied to one value. -/
theorem report1_yields {forgiving : Bool} {w : World} {r : Reporter} {a : Value}
    (harity : r.arity = 1) (ha : a.wellKinded = true) :
    Draw.Yields forgiving (fun x => x.wellKinded = true) (r.report1 w a) := by
  cases r with
  | count =>
    exact (Draw.yields_ofExcept (Argument.yields_agentset _ ha)).bind fun _ _ => Draw.yields_pure rfl
  | random =>
    apply (Draw.yields_ofExcept (Argument.yields_number _ a)).bind
    intro x _
    have hdraw : Draw.Yields forgiving (fun _ => True) (randomInteger x) := by
      unfold randomInteger
      dsimp only
      split
      · exact (Draw.yields_ofStream (P := fun _ => True) _ fun _ => trivial).bind fun _ _ =>
          Draw.yields_pure trivial
      · split
        · exact (Draw.yields_ofStream (P := fun _ => True) _ fun _ => trivial).bind fun _ _ =>
            Draw.yields_pure trivial
        · exact Draw.yields_pure trivial
    exact hdraw.bind fun _ _ => Draw.yields_pure rfl
  | randomFloat =>
    apply (Draw.yields_ofExcept (Argument.yields_number _ a)).bind
    intro x _
    exact (Draw.yields_ofStream (P := fun _ => True) _ fun _ => trivial).bind fun _ _ =>
      Draw.yields_pure rfl
  | oneOf => exact pickOne_yields ha
  | not =>
    exact (Draw.yields_ofExcept (Argument.yields_boolean _ a)).bind fun _ _ => Draw.yields_pure rfl
  | _ => simp [arity] at harity

/-- A reporter applied to two values. -/
theorem report2_yields {forgiving : Bool} {r : Reporter} (a b : Value) (harity : r.arity = 2) :
    Except.Yields forgiving (fun x => x.wellKinded = true) (r.report2 a b) := by
  have hnumbers {f : Float → Float → Except Fault Value}
      (hf : ∀ x y, Except.Yields forgiving (fun x => x.wellKinded = true) (f x y)) :
      Except.Yields forgiving (fun x => x.wellKinded = true) (do
        let x ← Argument.number r.token a
        let y ← Argument.number r.token b
        f x y) :=
    (Argument.yields_number _ a).bind fun x _ => (Argument.yields_number _ b).bind fun y _ => hf x y
  cases r with
  | equal => rfl
  | and =>
    apply (Argument.yields_boolean _ a).bind
    intro x _
    split
    · exact (Argument.yields_boolean _ b).bind fun _ _ => rfl
    · rfl
  | or =>
    apply (Argument.yields_boolean _ a).bind
    intro x _
    split
    · rfl
    · exact (Argument.yields_boolean _ b).bind fun _ _ => rfl
  | plus => exact hnumbers fun _ _ => rfl
  | minus => exact hnumbers fun _ _ => rfl
  | mult => exact hnumbers fun _ _ => rfl
  | lt => exact hnumbers fun _ _ => rfl
  | gt => exact hnumbers fun _ _ => rfl
  | div =>
    apply hnumbers
    intro x y
    show Except.Yields forgiving _
      (if y == 0 then .error (Fault.ofCause .divisionByZero) else .ok (Value.number (x / y)))
    split
    · exact Fault.tolerable_ofCause nofun
    · rfl
  | _ => simp [arity] at harity

/-- What a reporter makes of its first argument alone: its value, or nothing if it goes on to the
second one. Only `and` and `or` can be decided by then. -/
def early (r : Reporter) (x : Value) : Except Fault (Option Value) :=
  match r with
  | .and => do
    let t ← Argument.boolean (token .and) x
    return if t then none else some (.boolean false)
  | .or => do
    let t ← Argument.boolean (token .or) x
    return if t then some (.boolean true) else none
  | _ => .ok none

theorem early_of_strict {r : Reporter} (hand : r ≠ .and) (hor : r ≠ .or) (x : Value) :
    r.early x = .ok none := by
  cases r with
  | and => exact absurd rfl hand
  | or => exact absurd rfl hor
  | _ => rfl

theorem early_yields {forgiving : Bool} (r : Reporter) (x : Value) :
    Except.Yields forgiving (fun o => ∀ z, o = some z → z.wellKinded = true) (r.early x) := by
  cases r with
  | and =>
    refine (Argument.yields_boolean _ x).bind fun t _ z hz => ?_
    cases t with
    | true => cases hz
    | false =>
      cases hz
      rfl
  | or =>
    refine (Argument.yields_boolean _ x).bind fun t _ z hz => ?_
    cases t with
    | true =>
      cases hz
      rfl
    | false => cases hz
  | _ => exact fun z hz => by cases hz

end Reporter

namespace Expr

variable {sc : Scope} {v : View}

theorem checkExpr_eq_ok {r : Reporter} {args : List Expr} {position : Position}
    (h : sc.checkExpr ⟨r, args, position⟩ = .ok ()) :
    args.length = r.arity ∧ sc.checkReporter r position = .ok () ∧ sc.checkExprs args = .ok () := by
  rw [Scope.checkExpr] at h
  obtain ⟨_, hcount, h⟩ := Except.bind_eq_ok h
  obtain ⟨_, hreporter, h⟩ := Except.bind_eq_ok h
  exact ⟨Scope.checkCount_eq_ok hcount, hreporter, h⟩

theorem checkExpr_of_mem {e : Expr} {es : List Expr} (h : sc.checkExprs es = .ok ())
    (he : e ∈ es) : sc.checkExpr e = .ok () := by
  induction es with
  | nil => cases he
  | cons d rest ih =>
    rw [Scope.checkExprs] at h
    obtain ⟨_, hone, hrest⟩ := Except.bind_eq_ok h
    rcases List.mem_cons.1 he with rfl | he
    · exact hone
    · exact ih hrest he

theorem mem_constants_of_arg {e : Expr} {r : Reporter} {args : List Expr} {position : Position}
    (he : e ∈ args) {x : Value} (hx : x ∈ e.constants) :
    x ∈ (⟨r, args, position⟩ : Expr).constants := by
  rw [constants]
  exact List.mem_append_right _ (mem_constantsOf he hx)

theorem report_nil (r : Reporter) (position : Position) :
    report v ⟨r, [], position⟩ =
      Draw.mapFault (v.bindReporter r position) (Draw.ofExcept (r.report0 v position)) := by
  cases r <;> rfl

theorem report_one (r : Reporter) (a : Expr) (position : Position) :
    report v ⟨r, [a], position⟩ = Draw.mapFault (v.bindReporter r position) (do
      let x ← report v a
      r.report1 v.world x) := by
  cases r <;> rfl

/-- A reporter with two arguments looks at the first one before the second is evaluated. -/
theorem report_two (r : Reporter) (a b : Expr) (position : Position) :
    report v ⟨r, [a, b], position⟩ = Draw.mapFault (v.bindReporter r position) (do
      let x ← report v a
      match ← Draw.ofExcept (r.early x) with
      | some z => return z
      | none =>
        let y ← report v b
        Draw.ofExcept (r.report2 x y)) := by
  -- an `and` or `or` that goes on asks for the truth of the second argument
  have hcondition (token : String) :
      (do
        let y ← report v b
        return .boolean (← Draw.ofExcept (Argument.boolean token y)) : Draw Value)
      = (do
        let y ← report v b
        Draw.ofExcept (Argument.boolean token y >>= fun t => .ok (.boolean t))) := by
    congr 1
    funext y
    cases Argument.boolean token y <;> rfl
  by_cases hand : r = .and
  · subst hand
    show Draw.mapFault _ _ = _
    congr 2
    funext x
    cases hx : Argument.boolean (Reporter.token .and) x with
    | error f =>
      simp only [Reporter.early, hx]
      rfl
    | ok t =>
      simp only [Reporter.early, Reporter.report2, hx]
      cases t with
      | true => exact hcondition _
      | false => rfl
  by_cases hor : r = .or
  · subst hor
    show Draw.mapFault _ _ = _
    congr 2
    funext x
    cases hx : Argument.boolean (Reporter.token .or) x with
    | error f =>
      simp only [Reporter.early, hx]
      rfl
    | ok t =>
      simp only [Reporter.early, Reporter.report2, hx]
      cases t with
      | true => rfl
      | false => exact hcondition _
  · simp only [Reporter.early_of_strict hand hor]
    rw [report]
    · rfl
    · exact hand
    · exact hor

/-- A checked expression gives a well-kinded value, or a fault that may surface. -/
theorem report_yields (h : v.Sound sc) :
    ∀ e : Expr, sc.checkExpr e = .ok () → (∀ x ∈ e.constants, x.wellKinded = true) →
      Draw.Yields sc.forgiving (fun x => x.wellKinded = true) (e.report v)
  | ⟨r, [], position⟩, hc, hk => by
    obtain ⟨harity, hreporter, _⟩ := checkExpr_eq_ok hc
    rw [report_nil]
    refine (Draw.yields_ofExcept (Reporter.report0_yields h harity.symm hreporter ?_)).mapFault
      fun e he => View.tolerable_bind v _ _ he
    rintro x rfl
    exact hk x (by simp [constants, constant?])
  | ⟨r, [a], position⟩, hc, hk => by
    obtain ⟨harity, _, hargs⟩ := checkExpr_eq_ok hc
    have ha := report_yields h a (checkExpr_of_mem hargs (by simp))
      fun x hx => hk x (mem_constants_of_arg (by simp) hx)
    rw [report_one]
    exact (ha.bind fun x hx => Reporter.report1_yields harity.symm hx).mapFault
      fun e he => View.tolerable_bind v _ _ he
  | ⟨r, [a, b], position⟩, hc, hk => by
    obtain ⟨harity, _, hargs⟩ := checkExpr_eq_ok hc
    have ha := report_yields h a (checkExpr_of_mem hargs (by simp))
      fun x hx => hk x (mem_constants_of_arg (by simp) hx)
    have hb := report_yields h b (checkExpr_of_mem hargs (by simp))
      fun x hx => hk x (mem_constants_of_arg (by simp) hx)
    rw [report_two]
    refine Draw.Yields.mapFault (ha.bind fun x _ => ?_) fun e he => View.tolerable_bind v _ _ he
    apply (Draw.yields_ofExcept (r.early_yields x)).bind
    rintro (_ | z) hz
    · exact hb.bind fun y _ => Draw.yields_ofExcept (Reporter.report2_yields x y harity.symm)
    · exact Draw.yields_pure (hz z rfl)
  | ⟨r, a :: b :: c :: rest, position⟩, hc, _ => by
    obtain ⟨harity, _, _⟩ := checkExpr_eq_ok hc
    have hle : r.arity ≤ 2 := by cases r <;> simp [Reporter.arity]
    simp only [List.length_cons] at harity
    omega

end Expr

end Swarm
