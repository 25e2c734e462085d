import Swarm.Proofs.Provenance.Site
import Swarm.Proofs.Raised

/-!
# Where the fault of an expression arose

A fault passes through every expression around the one that raised it, and each of them could record
it. This is what the records are compared with: an expression raises a fault of its own if the
arguments it needs have values and the reporter fails on them. Which arguments are needed depends on
the first one for `and` and `or`.

## Main definitions

* `Reporter.NeedsSecond`: whether the second argument is evaluated
* `Expr.Raises`: the innermost expression that raised a fault, and the fault as it was raised

## Main results

* `Expr.Raises.report_eq`: the fault is recorded with the expression that raised it
* `Expr.raises_of_report`: every fault was raised by some expression
-/

namespace Swarm

open Swarm.Random (Stream)

theorem View.bind_eq (v : View) (primitive : String) (position : Position) (f : Fault) :
    v.bind primitive position f = (v.site primitive position).bind f := by
  unfold View.bind
  split
  · rfl
  · next closed => exact (Site.bind_of_closed _ (by simpa using closed)).symm

/-- The place of a reporter evaluated by the viewing agent. -/
def View.siteOf (v : View) (r : Reporter) (position : Position) : Site :=
  v.site (r.describe v.world.variableName) position

theorem View.bindReporter_eq (v : View) (r : Reporter) (position : Position) (f : Fault) :
    v.bindReporter r position f = (v.siteOf r position).bind f :=
  v.bind_eq _ position f

/-- An expression passes a recorded fault on as it is. -/
theorem View.bindReporter_bind (v : View) (r : Reporter) (position : Position) (site : Site)
    (f : Fault) : v.bindReporter r position (site.bind f) = site.bind f := by
  rw [bindReporter_eq, Site.bind_of_closed _ (Site.isOpen_bind site f)]

/-- The second argument is evaluated, given the value of the first: `and` is not decided by true,
and `or` is not decided by false. -/
def Reporter.NeedsSecond (r : Reporter) (x : Value) : Prop :=
  (r = .and → Argument.boolean r.token x = .ok true)
    ∧ (r = .or → Argument.boolean r.token x = .ok false)

theorem Reporter.early_eq_none {r : Reporter} {x : Value} :
    r.early x = .ok none ↔ r.NeedsSecond x := by
  by_cases hand : r = .and
  · subst hand
    cases hx : Argument.boolean (token .and) x with
    | error f => simp [early, NeedsSecond, hx, bind, Except.bind]
    | ok t => cases t <;> simp [early, NeedsSecond, hx, bind, Except.bind, pure, Except.pure]
  by_cases hor : r = .or
  · subst hor
    cases hx : Argument.boolean (token .or) x with
    | error f => simp [early, NeedsSecond, hx, bind, Except.bind]
    | ok t => cases t <;> simp [early, NeedsSecond, hx, bind, Except.bind, pure, Except.pure]
  · simp [early_of_strict hand hor, NeedsSecond, hand, hor]

theorem Reporter.early_eq_error {r : Reporter} {x : Value} {f : Fault} :
    r.early x = .error f ↔ (r = .and ∨ r = .or) ∧ Argument.boolean r.token x = .error f := by
  by_cases hand : r = .and
  · subst hand
    cases hx : Argument.boolean (token .and) x <;>
      simp [early, hx, bind, Except.bind, pure, Except.pure]
  by_cases hor : r = .or
  · subst hor
    cases hx : Argument.boolean (token .or) x <;>
      simp [early, hx, bind, Except.bind, pure, Except.pure]
  · simp [early_of_strict hand hor, hand, hor]

namespace Expr

variable {v : View}

/-- Evaluated from a stream on, an expression fails, and the fault was raised at a site: by the
expression itself, or by the one of its arguments that was being evaluated. -/
inductive Raises (v : View) : Expr → Stream → Site → Fault → Prop where
  | nullary {r : Reporter} {position : Position} {s : Stream} {f : Fault} :
    r.report0 v position = .error f →
    Raises v ⟨r, [], position⟩ s (v.siteOf r position) f
  | unary {r : Reporter} {a : Expr} {position : Position} {s s₁ s₂ : Stream} {x : Value}
      {f : Fault} :
    a.report v s = .ok x s₁ → r.report1 v.world x s₁ = .error f s₂ →
    Raises v ⟨r, [a], position⟩ s (v.siteOf r position) f
  | condition {r : Reporter} {a b : Expr} {position : Position} {s s₁ : Stream} {x : Value}
      {f : Fault} :
    r = .and ∨ r = .or → a.report v s = .ok x s₁ → Argument.boolean r.token x = .error f →
    Raises v ⟨r, [a, b], position⟩ s (v.siteOf r position) f
  | binary {r : Reporter} {a b : Expr} {position : Position} {s s₁ s₂ : Stream} {x y : Value}
      {f : Fault} :
    a.report v s = .ok x s₁ → r.NeedsSecond x → b.report v s₁ = .ok y s₂ →
    r.report2 x y = .error f →
    Raises v ⟨r, [a, b], position⟩ s (v.siteOf r position) f
  | miscounted {r : Reporter} {args : List Expr} {position : Position} {s : Stream} :
    2 < args.length →
    Raises v ⟨r, args, position⟩ s (v.siteOf r position)
      (.ofDefect (.argumentCount r.token args.length))
  | inFirst {r : Reporter} {a : Expr} {rest : List Expr} {position : Position} {s : Stream}
      {site : Site} {f : Fault} :
    rest.length ≤ 1 → Raises v a s site f →
    Raises v ⟨r, a :: rest, position⟩ s site f
  | inSecond {r : Reporter} {a b : Expr} {position : Position} {s s₁ : Stream} {x : Value}
      {site : Site} {f : Fault} :
    a.report v s = .ok x s₁ → r.NeedsSecond x → Raises v b s₁ site f →
    Raises v ⟨r, [a, b], position⟩ s site f

/-- A fault is raised without a trail. -/
theorem Raises.plain {e : Expr} {s : Stream} {site : Site} {f : Fault} (h : Raises v e s site f) :
    f.Plain := by
  induction h with
  | nullary hf => exact Reporter.plain_report0 v _ _ _ hf
  | unary _ hf => exact Reporter.plain_report1 v.world _ _ _ _ _ hf
  | condition _ _ hf => exact Argument.plain_boolean _ _ _ hf
  | binary _ _ _ hf => exact Reporter.plain_report2 _ _ _ _ hf
  | miscounted _ => exact ⟨_, rfl, rfl⟩
  | inFirst _ _ ih => exact ih
  | inSecond _ _ _ ih => exact ih

-- ════════════════════════════════════════════════════════════════════════
-- Expressions with failing arguments
-- ════════════════════════════════════════════════════════════════════════

section Arguments

variable {r : Reporter} {a b : Expr} {position : Position} {s s₁ s₂ : Stream} {x y : Value}
  {f : Fault}

/-- A first argument that fails ends the evaluation. -/
theorem report_of_first_error {rest : List Expr} (short : rest.length ≤ 1)
    (ha : a.report v s = .error f s₁) :
    report v ⟨r, a :: rest, position⟩ s = .error (v.bindReporter r position f) s₁ := by
  match rest, short with
  | [], _ =>
    rw [report_one, Draw.mapFault, Draw.bind_apply, ha]
  | [b], _ =>
    rw [report_two, Draw.mapFault, Draw.bind_apply, ha]

/-- Once the second argument is needed, the reporter is applied to both. -/
theorem report_of_needsSecond (ha : a.report v s = .ok x s₁) (hneeds : r.NeedsSecond x) :
    report v ⟨r, [a, b], position⟩ s =
      Draw.mapFault (v.bindReporter r position)
        (b.report v >>= fun y => Draw.ofExcept (r.report2 x y)) s₁ := by
  rw [report_two, Draw.mapFault, Draw.mapFault, Draw.bind_apply, ha]
  simp only [Reporter.early_eq_none.2 hneeds]
  rfl

/-- A first argument that is no truth value ends the evaluation of `and` and `or`. -/
theorem report_of_condition_error (hr : r = .and ∨ r = .or) (ha : a.report v s = .ok x s₁)
    (hx : Argument.boolean r.token x = .error f) :
    report v ⟨r, [a, b], position⟩ s = .error (v.bindReporter r position f) s₁ := by
  rw [report_two, Draw.mapFault, Draw.bind_apply, ha]
  simp only [Reporter.early_eq_error.2 ⟨hr, hx⟩]
  rfl

/-- A reporter that its first argument decides has a value. -/
theorem report_of_decided {z : Value} (ha : a.report v s = .ok x s₁)
    (decided : r.early x = .ok (some z)) :
    report v ⟨r, [a, b], position⟩ s = .ok z s₁ := by
  rw [report_two, Draw.mapFault, Draw.bind_apply, ha]
  simp only [decided]
  rfl

/-- Too many arguments are a defect. -/
theorem report_of_many {args : List Expr} (h : 2 < args.length) :
    report v ⟨r, args, position⟩ s =
      .error (v.bindReporter r position (.ofDefect (.argumentCount r.token args.length))) s := by
  match args, h with
  | a :: b :: c :: rest, _ =>
    rw [report, Draw.mapFault]
    · rfl
    all_goals simp

end Arguments

-- ════════════════════════════════════════════════════════════════════════
-- Every fault was raised somewhere
-- ════════════════════════════════════════════════════════════════════════

/-- A fault comes out of the expression as it was recorded where it was raised. -/
theorem Raises.report_eq {e : Expr} {s : Stream} {site : Site} {f : Fault}
    (h : Raises v e s site f) : ∃ s', e.report v s = .error (site.bind f) s' := by
  induction h with
  | nullary hf =>
    rw [report_nil, Draw.mapFault, hf, ← View.bindReporter_eq]
    exact ⟨_, rfl⟩
  | unary ha hf =>
    rw [report_one, Draw.mapFault, Draw.bind_apply, ha]
    simp only [hf, View.bindReporter_eq]
    exact ⟨_, rfl⟩
  | condition hr ha hx =>
    rw [report_of_condition_error hr ha hx, View.bindReporter_eq]
    exact ⟨_, rfl⟩
  | binary ha hneeds hb hf =>
    rw [report_of_needsSecond ha hneeds, Draw.mapFault, Draw.bind_apply, hb]
    simp only [hf, View.bindReporter_eq]
    exact ⟨_, rfl⟩
  | miscounted hargs =>
    rw [report_of_many hargs, View.bindReporter_eq]
    exact ⟨_, rfl⟩
  | inFirst short _ ih =>
    obtain ⟨s', ha⟩ := ih
    rw [report_of_first_error short ha, View.bindReporter_bind]
    exact ⟨_, rfl⟩
  | inSecond ha hneeds _ ih =>
    obtain ⟨s', hb⟩ := ih
    rw [report_of_needsSecond ha hneeds, Draw.mapFault, Draw.bind_apply, hb]
    simp only [View.bindReporter_bind]
    exact ⟨_, rfl⟩

/-- An expression that fails on its second argument or with both of them. -/
theorem raises_of_needsSecond {r : Reporter} {a b : Expr} {position : Position}
    {s s₁ s' : Stream} {x : Value} {f : Fault}
    (ihb : ∀ s f s', b.report v s = .error f s' → ∃ site raised, Raises v b s site raised)
    (ha : a.report v s = .ok x s₁) (hneeds : r.NeedsSecond x)
    (h : report v ⟨r, [a, b], position⟩ s = .error f s') :
    ∃ site raised, Raises v ⟨r, [a, b], position⟩ s site raised := by
  rw [report_of_needsSecond ha hneeds, Draw.mapFault, Draw.bind_apply] at h
  cases hb : b.report v s₁ with
  | error g s₂ =>
    obtain ⟨site, raised, hraises⟩ := ihb s₁ g s₂ hb
    exact ⟨site, raised, .inSecond ha hneeds hraises⟩
  | ok y s₂ =>
    cases hf : r.report2 x y with
    | error g => exact ⟨_, g, .binary ha hneeds hb hf⟩
    | ok z =>
      simp only [hb, hf] at h
      cases h

/-- Every fault of an expression was raised by it or by an argument. -/
theorem raises_of_report : ∀ (e : Expr) (s : Stream) (f : Fault) (s' : Stream),
    e.report v s = .error f s' → ∃ site raised, Raises v e s site raised
  | ⟨r, [], position⟩, s, f, s', h => by
    cases hr : r.report0 v position with
    | error g => exact ⟨_, g, .nullary hr⟩
    | ok x =>
      rw [report_nil, Draw.mapFault, hr] at h
      cases h
  | ⟨r, [a], position⟩, s, f, s', h => by
    cases ha : a.report v s with
    | error g s₁ =>
      obtain ⟨site, raised, hraises⟩ := raises_of_report a s g s₁ ha
      exact ⟨site, raised, .inFirst (by simp) hraises⟩
    | ok x s₁ =>
      cases hr : r.report1 v.world x s₁ with
      | error g s₂ => exact ⟨_, g, .unary ha hr⟩
      | ok y s₂ =>
        rw [report_one, Draw.mapFault, Draw.bind_apply, ha] at h
        simp only [hr] at h
        cases h
  | ⟨r, [a, b], position⟩, s, f, s', h => by
    have ihb := raises_of_report b
    cases ha : a.report v s with
    | error g s₁ =>
      obtain ⟨site, raised, hraises⟩ := raises_of_report a s g s₁ ha
      exact ⟨site, raised, .inFirst (by simp) hraises⟩
    | ok x s₁ =>
      cases hearly : r.early x with
      | error g =>
        obtain ⟨hr, hx⟩ := Reporter.early_eq_error.1 hearly
        exact ⟨_, g, .condition hr ha hx⟩
      | ok o =>
        cases o with
        | none => exact raises_of_needsSecond ihb ha (Reporter.early_eq_none.1 hearly) h
        | some z =>
          rw [report_of_decided ha hearly] at h
          cases h
  | ⟨r, a :: b :: c :: rest, position⟩, s, f, s', h =>
    ⟨_, _, .miscounted (by simp)⟩

end Expr

end Swarm
