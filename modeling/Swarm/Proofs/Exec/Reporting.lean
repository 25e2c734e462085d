import Swarm.Proofs.Provenance.Expression
import Swarm.Proofs.Streams.Isolation

/-!
# Evaluation draws and does nothing else

An expression is evaluated against one view of the machine, and its draws are made from the agent's
stream as if all were one draw. Here the same is done in place: each expression looks at the machine
as its arguments left it, and each reporter that draws moves the agent's stream in the store. The
two agree, faults included, so nothing that an argument does is seen by what is evaluated after it,
except for the draws.

A stream moves only where `random`, `random-float` or `one-of` is applied to a value. Which
reporters are applied depends on the values of first arguments, because of `and` and `or`.

## Main definitions

* `Exec.reportInPlace`: evaluation that goes through the machine
* `Exec.Reports`: a computation that does to the machine what a draw does to the agent's stream
* `Expr.Applies`: a reporter that is applied to a value in the course of an evaluation
* `Expr.Exposes`: an expression that is not out of reach behind a decided `and` or `or`

## Main results

* `Exec.reports_inPlace`: evaluation in place is evaluation
* `Expr.after_report`: where no reporter that draws is applied, the stream stays where it is
* `Exec.report_only_draws`: what evaluation leaves as it was
-/

namespace Swarm

open Swarm.Random (Stream)

namespace Streams

theorem size_set (ss : Streams) (r : StreamRef) (s : Stream) :
    (ss.set r s).store.size = ss.store.size := by
  simp [set]

/-- A stream that is replaced twice. -/
theorem set_set (ss : Streams) (r : StreamRef) (s t : Stream) :
    (ss.set r s).set r t = ss.set r t := by
  refine eq_of_get_eq (by rw [size_set, size_set, size_set]) fun q hq => ?_
  by_cases h : q = r
  · subst h
    rw [size_set] at hq
    rw [get_set_self t (by rwa [size_set]), get_set_self t hq]
  · rw [get_set_of_ne _ _ h, get_set_of_ne _ _ h, get_set_of_ne _ _ h]

end Streams

-- ════════════════════════════════════════════════════════════════════════
-- Evaluation in place
-- ════════════════════════════════════════════════════════════════════════

namespace Exec

/-- Evaluate an expression by going through the machine: every reporter sees the machine that the
evaluation of its arguments left. -/
def reportInPlace (env : Environment) : Expr → Exec Value
  | ⟨reporter, args, position⟩ =>
    mapFault (fun m => (m.view env).bindReporter reporter position) <|
      match reporter, args with
      | .and, [a, b] => do
        let x ← reportInPlace env a
        if ← ofExcept (Argument.boolean (Reporter.token .and) x) then
          let y ← reportInPlace env b
          return .boolean (← ofExcept (Argument.boolean (Reporter.token .and) y))
        else return .boolean false
      | .or, [a, b] => do
        let x ← reportInPlace env a
        if ← ofExcept (Argument.boolean (Reporter.token .or) x) then return .boolean true
        else
          let y ← reportInPlace env b
          return .boolean (← ofExcept (Argument.boolean (Reporter.token .or) y))
      | r, [] => do
        let m ← get
        ofExcept (r.report0 (m.view env) position)
      | r, [a] => do
        let x ← reportInPlace env a
        let m ← get
        draw (r.report1 m.world x)
      | r, [a, b] => do
        let x ← reportInPlace env a
        let y ← reportInPlace env b
        ofExcept (r.report2 x y)
      | r, args => fail (.ofDefect (.argumentCount r.token args.length))

/-- The end of a computation that only draws: the draw ended so, from the agent's stream. -/
def drawn {α : Type} (m : Machine) : EStateM.Result Fault Stream α → Ending α
  | .ok a s => .ok a { m with streams := m.streams.set m.context.stream s }
  | .error f s => .error (.fault f) { m with streams := m.streams.set m.context.stream s }

/-- Where a draw ends does not depend on where earlier ones left the stream. -/
theorem drawn_set {α : Type} (m : Machine) (s : Stream) (r : EStateM.Result Fault Stream α) :
    drawn { m with streams := m.streams.set m.context.stream s } r = drawn m r := by
  cases r <;> simp only [drawn, Streams.set_set]

/-- On machines of which the agent has the view, and whose store has the agent's stream, the
computation does to the machine what the draw does to the stream. -/
def Reports {α : Type} (env : Environment) (v : View) (x : Exec α) (d : Draw α) : Prop :=
  ∀ m : Machine, m.view env = v → m.context.stream.index < m.streams.store.size →
    x m = drawn m (d (m.streams.get m.context.stream))

section Reports

variable {env : Environment} {v : View} {α β : Type} {x : Exec α} {d : Draw α}

theorem Reports.bind {f : α → Exec β} {g : α → Draw β} (hx : Reports env v x d)
    (hf : ∀ a, Reports env v (f a) (g a)) : Reports env v (x >>= f) (d >>= g) := by
  intro m hv hm
  rw [bind_apply, hx m hv hm, Draw.bind_apply]
  cases d (m.streams.get m.context.stream) with
  | error f s => rfl
  | ok a s =>
    -- the draws that follow start where the ones before left the stream
    have hrest := hf a { m with streams := m.streams.set m.context.stream s } hv
      (by rwa [Streams.size_set])
    rw [drawn_set, Streams.get_set_self s hm] at hrest
    exact hrest

theorem Reports.mapFault (change : View → Fault → Fault) (hx : Reports env v x d) :
    Reports env v (Exec.mapFault (fun m => change (m.view env)) x)
      (Draw.mapFault (change v) d) := by
  intro m hv hm
  subst hv
  rw [Exec.mapFault, hx m rfl hm, Draw.mapFault]
  cases d (m.streams.get m.context.stream) <;> rfl

theorem reports_ofExcept (c : Except Fault α) :
    Reports env v (ofExcept c) (Draw.ofExcept c) := by
  intro m _ _
  have hsame : { m with
      streams := m.streams.set m.context.stream (m.streams.get m.context.stream) } = m := by
    rw [Streams.set_get_self]
  cases c with
  | ok a => exact congrArg (EStateM.Result.ok a) hsame.symm
  | error f => exact congrArg (EStateM.Result.error (Stop.fault f)) hsame.symm

theorem reports_pure (a : α) : Reports env v (pure a) (pure a) :=
  reports_ofExcept (.ok a)

theorem reports_fail (f : Fault) : Reports env v (fail f : Exec α) (throw f) :=
  reports_ofExcept (.error f)

/-- A check of what the agent sees. -/
theorem reports_check (c : View → Except Fault α) :
    Reports env v (do
      let m ← get
      ofExcept (c (m.view env))) (Draw.ofExcept (c v)) := by
  intro m hv hm
  rw [get_bind, hv]
  exact reports_ofExcept (c v) m hv hm

/-- A draw that depends on what the agent sees. -/
theorem reports_draw (d : View → Draw α) :
    Reports env v (do
      let m ← get
      draw (d (m.view env))) (d v) := by
  intro m hv _
  subst hv
  rfl

end Reports

section InPlace

variable {env : Environment}

theorem reportInPlace_nil (r : Reporter) (position : Position) :
    reportInPlace env ⟨r, [], position⟩ =
      mapFault (fun m => (m.view env).bindReporter r position) (do
        let m ← get
        ofExcept (r.report0 (m.view env) position)) := by
  cases r <;> rfl

theorem reportInPlace_one (r : Reporter) (a : Expr) (position : Position) :
    reportInPlace env ⟨r, [a], position⟩ =
      mapFault (fun m => (m.view env).bindReporter r position) (do
        let x ← reportInPlace env a
        let m ← get
        draw (r.report1 m.world x)) := by
  cases r <;> rfl

theorem reportInPlace_two (r : Reporter) (a b : Expr) (position : Position) :
    reportInPlace env ⟨r, [a, b], position⟩ =
      mapFault (fun m => (m.view env).bindReporter r position) (do
        let x ← reportInPlace env a
        match ← ofExcept (r.early x) with
        | some z => return z
        | none =>
          let y ← reportInPlace env b
          ofExcept (r.report2 x y)) := by
  -- an `and` or `or` that goes on asks for the truth of the second argument
  have hcondition (token : String) :
      (do
        let y ← reportInPlace env b
        return .boolean (← ofExcept (Argument.boolean token y)) : Exec Value)
      = (do
        let y ← reportInPlace env b
        ofExcept (Argument.boolean token y >>= fun t => .ok (.boolean t))) := by
    congr 1
    funext y
    cases Argument.boolean token y <;> rfl
  by_cases hand : r = .and
  · subst hand
    show mapFault _ _ = _
    congr 2
    funext x
    cases hx : Argument.boolean (Reporter.token .and) x with
    | error f =>
      simp only [Reporter.early, hx]
      rfl
    | ok t =>
      simp only [Reporter.early, Reporter.report2, hx]
      cases t with
      | true => exact hcondition _
      | false => rfl
  by_cases hor : r = .or
  · subst hor
    show mapFault _ _ = _
    congr 2
    funext x
    cases hx : Argument.boolean (Reporter.token .or) x with
    | error f =>
      simp only [Reporter.early, hx]
      rfl
    | ok t =>
      simp only [Reporter.early, Reporter.report2, hx]
      cases t with
      | true => rfl
      | false => exact hcondition _
  · simp only [Reporter.early_of_strict hand hor]
    rw [reportInPlace]
    · rfl
    · exact hand
    · exact hor

end InPlace

/-- Evaluation in place does to the machine what evaluation does to the agent's stream. -/
theorem reports_inPlace (env : Environment) (v : View) :
    ∀ e : Expr, Reports env v (reportInPlace env e) (e.report v)
  | ⟨r, [], position⟩ => by
    rw [reportInPlace_nil, Expr.report_nil]
    exact (reports_check fun v => r.report0 v position).mapFault fun v => v.bindReporter r position
  | ⟨r, [a], position⟩ => by
    have ha := reports_inPlace env v a
    rw [reportInPlace_one, Expr.report_one]
    exact (ha.bind fun x => reports_draw fun v => r.report1 v.world x).mapFault
      fun v => v.bindReporter r position
  | ⟨r, [a, b], position⟩ => by
    have ha := reports_inPlace env v a
    have hb := reports_inPlace env v b
    rw [reportInPlace_two, Expr.report_two]
    refine Reports.mapFault (fun v => v.bindReporter r position) (ha.bind fun x => ?_)
    apply (reports_ofExcept (r.early x)).bind
    rintro (_ | z)
    · exact hb.bind fun y => reports_ofExcept _
    · exact reports_pure _
  | ⟨r, a :: b :: c :: rest, position⟩ => by
    have hdefect : Reports env v (fail (.ofDefect (.argumentCount r.token _)) : Exec Value)
        (throw (.ofDefect (.argumentCount r.token (a :: b :: c :: rest).length))) :=
      reports_fail _
    rw [reportInPlace, Expr.report]
    · exact hdefect.mapFault fun v => v.bindReporter r position
    all_goals simp

end Exec

-- ════════════════════════════════════════════════════════════════════════
-- Evaluation without draws
-- ════════════════════════════════════════════════════════════════════════

namespace Draw

variable {α β : Type}

/-- The stream at the end of a draw. -/
def after : EStateM.Result Fault Stream α → Stream
  | .ok _ s => s
  | .error _ s => s

/-- Nothing is drawn, whether the computation fails or not. -/
def Still (x : Draw α) : Prop :=
  ∀ s, after (x s) = s

theorem still_pure (a : α) : Still (pure a) :=
  fun _ => rfl

theorem still_throw (f : Fault) : Still (throw f : Draw α) :=
  fun _ => rfl

theorem still_ofExcept (x : Except Fault α) : Still (ofExcept x) := by
  intro s
  cases x <;> rfl

theorem Still.bind {x : Draw α} {f : α → Draw β} (hx : Still x) (hf : ∀ a, Still (f a)) :
    Still (x >>= f) := by
  intro s
  have hs := hx s
  rw [bind_apply]
  cases hr : x s with
  | ok a s₁ =>
    rw [hr] at hs
    exact (hf a s₁).trans hs
  | error e s₁ =>
    rw [hr] at hs
    exact hs

theorem after_mapFault (change : Fault → Fault) (x : Draw α) (s : Stream) :
    after (mapFault change x s) = after (x s) := by
  rw [mapFault]
  cases x s <;> rfl

end Draw

/-- Whether the reporter draws when it is applied to a value. -/
def Reporter.draws : Reporter → Bool
  | .random => true
  | .randomFloat => true
  | .oneOf => true
  | _ => false

/-- The other reporters do not draw, nor do they if they are applied to one value by mistake. -/
theorem Reporter.still_report1 {r : Reporter} (h : r.draws = false) (w : World) (x : Value) :
    Draw.Still (r.report1 w x) := by
  cases r with
  | random => cases h
  | randomFloat => cases h
  | oneOf => cases h
  | count => exact (Draw.still_ofExcept _).bind fun _ => Draw.still_pure _
  | not => exact (Draw.still_ofExcept _).bind fun _ => Draw.still_pure _
  | _ => exact Draw.still_throw _

namespace Expr

variable {v : View}

/-- Evaluated from a stream on, the expression applies the reporter to a value. -/
inductive Applies (v : View) : Stream → Expr → Reporter → Value → Prop where
  | itself {r : Reporter} {a : Expr} {position : Position} {s s₁ : Stream} {x : Value} :
    a.report v s = .ok x s₁ → Applies v s ⟨r, [a], position⟩ r x
  | inFirst {r q : Reporter} {a : Expr} {rest : List Expr} {position : Position} {s : Stream}
      {x : Value} :
    rest.length ≤ 1 → Applies v s a q x → Applies v s ⟨r, a :: rest, position⟩ q x
  | inSecond {r q : Reporter} {a b : Expr} {position : Position} {s s₁ : Stream} {x y : Value} :
    a.report v s = .ok x s₁ → r.NeedsSecond x → Applies v s₁ b q y →
    Applies v s ⟨r, [a, b], position⟩ q y

/-- Where no reporter that draws is applied to a value, the stream stays where it is. -/
theorem after_report : ∀ (e : Expr) (s : Stream),
    (∀ q x, e.Applies v s q x → q.draws = false) → Draw.after (e.report v s) = s
  | ⟨r, [], position⟩, s, _ => by
    rw [report_nil, Draw.after_mapFault]
    exact Draw.still_ofExcept _ s
  | ⟨r, [a], position⟩, s, h => by
    have ha := after_report a s fun q x hq => h q x (.inFirst (Nat.zero_le _) hq)
    cases hr : a.report v s with
    | error f s₁ =>
      rw [report_of_first_error (Nat.zero_le _) hr]
      rw [hr] at ha
      exact ha
    | ok x s₁ =>
      rw [hr] at ha
      rw [report_one, Draw.after_mapFault, Draw.bind_apply, hr]
      exact (Reporter.still_report1 (h r x (.itself hr)) v.world x s₁).trans ha
  | ⟨r, [a, b], position⟩, s, h => by
    have ha := after_report a s fun q x hq => h q x (.inFirst (Nat.le_refl _) hq)
    cases hr : a.report v s with
    | error f s₁ =>
      rw [report_of_first_error (Nat.le_refl _) hr]
      rw [hr] at ha
      exact ha
    | ok x s₁ =>
      rw [hr] at ha
      cases hearly : r.early x with
      | error f =>
        obtain ⟨hcondition, hx⟩ := Reporter.early_eq_error.1 hearly
        rw [report_of_condition_error hcondition hr hx]
        exact ha
      | ok o =>
        cases o with
        | some z =>
          rw [report_of_decided hr hearly]
          exact ha
        | none =>
          have hneeds := Reporter.early_eq_none.1 hearly
          have hb := after_report b s₁ fun q y hq => h q y (.inSecond hr hneeds hq)
          rw [report_of_needsSecond hr hneeds, Draw.after_mapFault, Draw.bind_apply]
          cases hrb : b.report v s₁ with
          | error f s₂ =>
            rw [hrb] at hb
            exact hb.trans ha
          | ok y s₂ =>
            rw [hrb] at hb
            exact (Draw.still_ofExcept _ s₂).trans (hb.trans ha)
  | ⟨r, a :: b :: c :: rest, position⟩, s, _ => by
    rw [report_of_many (by simp)]
    rfl

/-- The first argument decides: it is the left operand of an `and` and false, or of an `or` and
true. -/
def Decided (v : View) (s : Stream) (r : Reporter) (args : List Expr) : Prop :=
  ∃ a b s₁, args = [a, b] ∧
    (r = .and ∧ a.report v s = .ok (.boolean false) s₁
      ∨ r = .or ∧ a.report v s = .ok (.boolean true) s₁)

/-- The second argument occurs in the first, though not in the right operand of an `and` or `or`
that is decided, evaluated from the stream on. -/
inductive Exposes (v : View) (s : Stream) : Expr → Expr → Prop where
  | itself (e : Expr) : Exposes v s e e
  | argument {r : Reporter} {args : List Expr} {position : Position} {n : Nat} {a d : Expr} :
    args[n]? = some a → ¬ (n = 1 ∧ Decided v s r args) → Exposes v s a d →
    Exposes v s ⟨r, args, position⟩ d

theorem not_decided_of_needsSecond {r : Reporter} {a b : Expr} {s s₁ : Stream} {x : Value}
    (ha : a.report v s = .ok x s₁) (hneeds : r.NeedsSecond x) : ¬ Decided v s r [a, b] := by
  rintro ⟨a', b', s', hargs, h⟩
  cases hargs
  rcases h with ⟨rfl, hfalse⟩ | ⟨rfl, htrue⟩
  · cases ha.symm.trans hfalse
    cases hneeds.1 rfl
  · cases ha.symm.trans htrue
    cases hneeds.2 rfl

/-- Where no reporter that draws is in reach, none is applied. -/
theorem draws_of_applies : ∀ (e : Expr) (s : Stream),
    (∀ d, e.Exposes v s d → d.reporter.draws = false) →
    ∀ q x, e.Applies v s q x → q.draws = false
  | ⟨r, [], position⟩, s, h, q, x, hq => by
    cases hq
  | ⟨r, [a], position⟩, s, h, q, x, hq => by
    have ha := draws_of_applies a s fun d hd => h d (.argument (n := 0) rfl (by simp) hd)
    cases hq with
    | itself _ => exact h _ (.itself _)
    | inFirst _ hq => exact ha q x hq
  | ⟨r, [a, b], position⟩, s, h, q, x, hq => by
    have ha := draws_of_applies a s fun d hd => h d (.argument (n := 0) rfl (by simp) hd)
    cases hq with
    | inFirst _ hq => exact ha q x hq
    | @inSecond _ _ _ _ _ _ s₁ z _ hr hneeds hq =>
      -- the left operand drew nothing, so the right one is evaluated from the same stream
      have hsame := after_report a s ha
      rw [hr] at hsame
      obtain rfl : s₁ = s := hsame
      refine draws_of_applies b s₁ (fun d hd => h d (.argument (n := 1) rfl ?_ hd)) q x hq
      exact fun hdecided => not_decided_of_needsSecond hr hneeds hdecided.2
  | ⟨r, a :: b :: c :: rest, position⟩, s, h, q, x, hq => by
    cases hq with
    | inFirst hshort _ => simp at hshort

end Expr

namespace Exec

theorem final_drawn {α : Type} (m : Machine) (r : EStateM.Result Fault Stream α) :
    final (drawn m r) = { m with streams := m.streams.set m.context.stream (Draw.after r) } := by
  cases r <;> rfl

/-- Whatever the expression, the program and the machine, and whether or not the evaluation fails:
the world, the notices, the nesting and all registers of the running agent are afterwards what they
were, and so are all streams but the agent's own. The same comes out if every reporter goes through
the machine. If no reporter that draws is applied to a value, the machine is as it was; in
particular if none occurs, except in the right operand of an `and` whose left operand is false, or
of an `or` whose left operand is true. -/
theorem report_only_draws (env : Environment) (e : Expr) (m : Machine) :
    let after := final (report env e m)
    let own := m.streams.get m.context.stream
    after.world = m.world ∧ after.notices = m.notices ∧ after.nesting = m.nesting
      ∧ after.context = m.context
      ∧ Streams.OnlyAt m.context.stream m.streams after.streams
      ∧ (m.context.stream.index < m.streams.store.size → reportInPlace env e m = report env e m)
      ∧ ((∀ r x, e.Applies (m.view env) own r x → r.draws = false) → after = m)
      ∧ ((∀ d, e.Exposes (m.view env) own d → d.reporter.draws = false) → after = m) := by
  intro after own
  have hafter : after = { m with
      streams := m.streams.set m.context.stream (Draw.after (e.report (m.view env) own)) } :=
    final_drawn m _
  have hstill (h : ∀ r x, e.Applies (m.view env) own r x → r.draws = false) : after = m := by
    rw [hafter, Expr.after_report e own h, Streams.set_get_self]
  rw [hafter]
  exact ⟨rfl, rfl, rfl, rfl, Streams.onlyAt_set _ _ _,
    fun hm => reports_inPlace env _ e m rfl hm,
    hafter ▸ hstill, fun h => hafter ▸ hstill (Expr.draws_of_applies e own h)⟩

/-- Counting turtles applies a reporter that does not draw, and a random number in the right operand
of an `and` is out of reach if the left one is false. -/
theorem report_only_draws_observer :
    let env : Environment := ⟨⟨#[]⟩, .default⟩
    let m := observerMachine (.ofSeed 1)
    let counted : Expr := ⟨.count, [⟨.turtles, [], .zero⟩], .zero⟩
    let decided : Expr := ⟨.and, [.constant (.boolean false),
      ⟨.random, [.constant (.number 5)], .zero⟩], .zero⟩
    final (report env counted m) = m ∧ final (report env decided m) = m
      ∧ reportInPlace env decided m = report env decided m := by
  intro env m counted decided
  obtain ⟨_, _, _, _, _, _, hcounted, _⟩ := report_only_draws env counted m
  obtain ⟨_, _, _, _, _, hplace, _, hdecided⟩ := report_only_draws env decided m
  refine ⟨hcounted ?_, hdecided ?_, hplace (by decide)⟩
  · intro r x hr
    unfold counted at hr
    cases hr with
    | itself _ => rfl
    | inFirst _ hr => cases hr
  · intro d hd
    unfold decided at hd
    cases hd with
    | itself => rfl
    | @argument _ _ _ n a _ ha hreach hd =>
      match n, ha with
      | 0, ha =>
        cases ha
        cases hd with
        | itself => rfl
        | argument ha _ _ => cases ha
      | 1, _ => exact absurd ⟨rfl, _, _, _, rfl, .inl ⟨rfl, rfl⟩⟩ hreach

end Exec

end Swarm
