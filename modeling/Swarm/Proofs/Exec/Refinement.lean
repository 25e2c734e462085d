import Swarm.Proofs.Tree.Commands

/-!
# Runs with more fuel

The register of the value reported last is written by every argument and read by nothing. Machines
that differ in it alone go on in the same way, and so do runs that have more fuel, unless the one
with less runs out. Both are said by one relation between computations, which holds between parts
put together if it holds between the parts.

## Main definitions

* `Machine.unreported`: the machine without the value reported last
* `Exec.Agrees`: endings that differ in the value reported last alone
* `Exec.Below`: an ending that ran out of fuel, or that agrees with another one
* `Exec.Refines`: computations whose endings are below those of others

## Main results

* `Exec.Refines.bind`, `Exec.Refines.within`: comparing computations part by part
* `Exec.refines_execute`: instructions, given that the runs of their blocks are so related
* `Exec.refines_toCompletion`: runs with more fuel
-/

namespace Swarm

/-- The machine without the value reported last. -/
def Machine.unreported (m : Machine) : Machine :=
  { m with context := { m.context with lastReported := .nobody } }

namespace Exec

variable {α β : Type}

/-- The computations gave the same value or failed in the same way, with machines that differ in
the value reported last alone. -/
def Agrees (r r' : Ending α) : Prop :=
  settle Machine.unreported r = settle Machine.unreported r'

/-- The fuel ran out, or the endings agree. -/
def Below (r r' : Ending α) : Prop :=
  Exhausted r ∨ Agrees r r'

/-- From machines that differ in the value reported last alone, `x` runs out of fuel or ends as `y`
does. -/
def Refines (x y : Exec α) : Prop :=
  ∀ m t : Machine, m.unreported = t.unreported → Below (x m) (y t)

-- ════════════════════════════════════════════════════════════════════════
-- Endings
-- ════════════════════════════════════════════════════════════════════════

namespace Agrees

variable {r r' : Ending α} {m t : Machine}

theorem ok (a : α) (h : m.unreported = t.unreported) : Agrees (.ok a m) (.ok a t) :=
  congrArg (EStateM.Result.ok a) h

theorem error (e : Stop) (h : m.unreported = t.unreported) :
    Agrees (.error e m : Ending α) (.error e t) :=
  congrArg (EStateM.Result.error e) h

theorem ok_left {a : α} (h : Agrees (.ok a m) r') :
    ∃ t, r' = .ok a t ∧ m.unreported = t.unreported := by
  cases r' with
  | ok b t =>
    obtain ⟨rfl, ht⟩ := EStateM.Result.ok.inj h
    exact ⟨t, rfl, ht⟩
  | error e t => cases h

theorem error_left {e : Stop} (h : Agrees (.error e m) r') :
    ∃ t, r' = .error e t ∧ m.unreported = t.unreported := by
  cases r' with
  | ok b t => cases h
  | error e' t =>
    obtain ⟨rfl, ht⟩ := EStateM.Result.error.inj h
    exact ⟨t, rfl, ht⟩

theorem exhausted (h : Agrees r r') : Exhausted r ↔ Exhausted r' := by
  rw [← exhausted_settle Machine.unreported, h, exhausted_settle]

end Agrees

namespace Below

variable {x : Exec α} {y : Exec α} {m t : Machine}

/-- Endings that are changed in ways that do not look at the value reported last and do not hide
that the fuel ran out. -/
theorem map {r r' : Ending α} {g g' : Ending α → Ending β} (h : Below r r')
    (hout : Exhausted r → Exhausted (g r)) (hg : Agrees r r' → Agrees (g r) (g' r')) :
    Below (g r) (g' r') :=
  h.imp hout hg

/-- One computation after another. -/
theorem bind {f g : α → Exec β} (h : Below (x m) (y t))
    (hf : ∀ a m' t', x m = .ok a m' → y t = .ok a t' → m'.unreported = t'.unreported →
      Below (f a m') (g a t')) :
    Below ((x >>= f) m) ((y >>= g) t) := by
  rcases h with hout | h
  · exact .inl (exhausted_bind hout)
  cases hx : x m with
  | ok a m' =>
    rw [hx] at h
    obtain ⟨t', hy, hm⟩ := h.ok_left
    rw [bind_of_ok hx, bind_of_ok hy]
    exact hf a m' t' hx hy hm
  | error e m' =>
    rw [hx] at h
    obtain ⟨t', hy, hm⟩ := h.error_left
    rw [bind_of_error hx, bind_of_error hy]
    exact .inr (.error e hm)

end Below

-- ════════════════════════════════════════════════════════════════════════
-- Comparing computations part by part
-- ════════════════════════════════════════════════════════════════════════

theorem Refines.bind {x y : Exec α} {f g : α → Exec β} (hx : Refines x y)
    (hf : ∀ a, Refines (f a) (g a)) : Refines (x >>= f) (y >>= g) :=
  fun m t h => (hx m t h).bind fun a m' t' _ _ h' => hf a m' t' h'

/-- A computation that does not look at the value reported last. -/
theorem refines_of_unread {x : Exec α} (hx : ∀ m, Agrees (x m) (x m.unreported)) :
    Refines x x := by
  intro m t h
  have hm := hx m
  rw [h] at hm
  exact .inr (hm.trans (hx t).symm)

theorem refines_pure (a : α) : Refines (pure a : Exec α) (pure a) :=
  refines_of_unread fun _ => rfl

theorem refines_throw (e : Stop) : Refines (throw e : Exec α) (throw e) :=
  refines_of_unread fun _ => rfl

theorem refines_ofExcept (x : Except Fault α) : Refines (ofExcept x) (ofExcept x) := by
  cases x with
  | ok a => exact refines_pure a
  | error f => exact refines_throw _

/-- A computation that looks at the machine first, but not at the value reported last. -/
theorem refines_get {f g : Machine → Exec α} (unread : ∀ m, g m.unreported = g m)
    (h : ∀ m, Refines (f m) (g m)) : Refines ((get : Exec Machine) >>= f) (get >>= g) := by
  intro m t ht
  have heq : g t = g m := by rw [← unread t, ← ht, unread m]
  rw [get_bind, get_bind, heq]
  exact h m m t ht

/-- A computation that looks at the running agent first, but not at the value reported last. -/
theorem refines_context {f g : Context → Exec α}
    (unread : ∀ c : Context, g { c with lastReported := .nobody } = g c)
    (h : ∀ c, Refines (f c) (g c)) : Refines (context >>= f) (context >>= g) :=
  refines_get (f := fun m => f m.context) (fun m => unread m.context) fun m => h m.context

theorem refines_drawFrom (r : StreamRef) (d : Draw α) : Refines (drawFrom r d) (drawFrom r d) := by
  apply refines_of_unread
  intro m
  have hstreams : m.unreported.streams = m.streams := rfl
  unfold drawFrom
  rw [hstreams]
  cases d (m.streams.get r) <;> rfl

theorem refines_draw (d : Draw α) : Refines (draw d) (draw d) :=
  refines_context (fun _ => rfl) fun _ => refines_drawFrom _ _

theorem refines_evaluate (env : Environment) (e : Expr) :
    Refines (evaluate env e) (evaluate env e) := by
  refine Refines.bind ?_ fun v => Refines.bind ?_ fun _ => refines_pure v
  · exact refines_get (fun _ => rfl) fun _ => refines_draw _
  · exact refines_of_unread fun _ => rfl

theorem refines_evaluateAt (env : Environment) (args : List Expr) (index : Nat) :
    Refines (evaluateAt env args index) (evaluateAt env args index) := by
  rw [evaluateAt]
  split
  · exact refines_evaluate env _
  · exact refines_throw _

theorem refines_numberAt (env : Environment) (args : List Expr) (index : Nat)
    (primitive : String) :
    Refines (numberAt env args index primitive) (numberAt env args index primitive) :=
  (refines_evaluateAt env args index).bind fun _ => refines_ofExcept _

theorem refines_agentsetAt (env : Environment) (args : List Expr) (index : Nat)
    (primitive : String) :
    Refines (agentsetAt env args index primitive) (agentsetAt env args index primitive) :=
  (refines_evaluateAt env args index).bind fun _ => refines_ofExcept _

theorem refines_getLocal (slot : Nat) : Refines (getLocal slot) (getLocal slot) :=
  refines_context (fun _ => rfl) fun _ => refines_ofExcept _

theorem refines_setLocal (slot : Nat) (v : Value) : Refines (setLocal slot v) (setLocal slot v) := by
  refine refines_context (fun _ => rfl) fun _ => (refines_ofExcept _).bind fun f => ?_
  exact refines_of_unread fun _ => rfl

theorem refines_writeVariable (a : AgentRef) (slot : Nat) (v : Value) :
    Refines (writeVariable a slot v) (writeVariable a slot v) := by
  refine refines_get (fun _ => rfl) fun _ => (refines_ofExcept _).bind fun stored => ?_
  exact refines_of_unread fun _ => rfl

theorem refines_goto (ip : Nat) : Refines (goto ip) (goto ip) :=
  refines_of_unread fun _ => rfl

theorem refines_finish : Refines finish finish :=
  refines_of_unread fun _ => rfl

theorem refines_notifySlots (slots : List (AgentRef × Nat)) :
    Refines (notifySlots slots) (notifySlots slots) := by
  induction slots with
  | nil => exact refines_pure ()
  | cons p rest ih =>
    refine refines_get (fun _ => rfl) fun _ => (refines_ofExcept _).bind fun v => ?_
    exact Refines.bind (refines_of_unread fun _ => rfl) fun _ => ih

-- ════════════════════════════════════════════════════════════════════════
-- Nested jobs
-- ════════════════════════════════════════════════════════════════════════

/-- A scope whose entry and exit do not look at the value reported last. -/
theorem Refines.within {enter : Machine → Machine} {leave : Machine → Machine → Machine}
    {x y : Exec α} (h : Refines x y)
    (enters : ∀ m, (enter m).unreported = (enter m.unreported).unreported)
    (leaves : ∀ m m', (leave m m').unreported = (leave m.unreported m'.unreported).unreported) :
    Refines (Exec.within enter leave x) (Exec.within enter leave y) := by
  intro m t ht
  have hinside : (enter m).unreported = (enter t).unreported := by
    rw [enters m, ht, ← enters t]
  refine (h _ _ hinside).map (exhausted_settle _).2 fun hr => ?_
  show settle _ (settle (leave m) _) = settle _ (settle (leave t) _)
  have hleave (k k' : Machine) (hk : k.unreported = k'.unreported) :
      (leave m k).unreported = (leave t k').unreported := by
    rw [leaves m k, leaves t k', ht, hk]
  cases hx : x (enter m) with
  | ok a k =>
    rw [hx] at hr
    obtain ⟨k', hy, hk⟩ := hr.ok_left
    rw [hy]
    exact Agrees.ok a (hleave k k' hk)
  | error e k =>
    rw [hx] at hr
    obtain ⟨k', hy, hk⟩ := hr.error_left
    rw [hy]
    exact Agrees.error e (hleave k k' hk)

/-- Faults recorded without looking at the value reported last. -/
theorem Refines.mapFault {change : Machine → Fault → Fault} {x y : Exec α} (h : Refines x y)
    (unread : ∀ m, change m.unreported = change m) :
    Refines (mapFault change x) (mapFault change y) := by
  intro m t ht
  rw [mapFault_apply, mapFault_apply]
  refine (h m t ht).map (exhausted_recorded _ _).2 fun hr => ?_
  rcases hx : x m with ⟨a, k⟩ | ⟨⟨f⟩ | _, k⟩ <;> rw [hx] at hr
  · obtain ⟨k', hy, hk⟩ := hr.ok_left
    rw [hy]
    exact .ok a hk
  · obtain ⟨k', hy, hk⟩ := hr.error_left
    rw [hy]
    show Agrees (.error (.fault (change k f)) k) (.error (.fault (change k' f)) k')
    rw [← unread k, hk, unread k']
    exact .error _ hk
  · obtain ⟨k', hy, hk⟩ := hr.error_left
    rw [hy]
    exact .error _ hk

section Nested

variable {env : Environment} {run run' : Exec Unit} (hrun : Refines run run')
include hrun

theorem refines_runAgents (entry : Nat) (stream : StreamRef) (agents : List AgentRef) :
    Refines (runAgents run entry stream agents) (runAgents run' entry stream agents) := by
  induction agents with
  | nil => exact refines_pure ()
  | cons a rest ih =>
    refine refines_get (fun _ => rfl) fun m => ?_
    split
    · refine Refines.bind ?_ fun _ => ih
      rw [runAgent_eq, runAgent_eq]
      exact hrun.within (fun _ => rfl) fun _ _ => rfl
    · exact ih

theorem refines_runExclusive (s : AgentSet) (entry : Nat) (stream : StreamRef) :
    Refines (runExclusive env run s entry stream) (runExclusive env run' s entry stream) := by
  intro m t h
  have hnesting : m.nesting = t.nesting := congrArg (fun k => k.nesting) h
  rw [runExclusive_eq, runExclusive_eq, hnesting]
  split
  · exact refines_throw _ m t h
  · refine (refines_drawFrom stream _).bind (fun order => ?_) m t h
    exact (refines_runAgents hrun entry stream order).within (fun _ => rfl) fun _ _ => rfl

theorem refines_withLocalRandomness (i : Instruction) :
    Refines (withLocalRandomness env run i) (withLocalRandomness env run' i) := by
  refine refines_context (fun _ => rfl) fun c => Refines.bind ?_ fun _ => refines_goto _
  intro m t h
  have hstreams : m.streams = t.streams := congrArg (fun k => k.streams) h
  rw [withStreamCopy_eq, withStreamCopy_eq, hstreams]
  exact (refines_runExclusive hrun _ _ _).within (fun _ => rfl) (fun _ _ => rfl) m t h

theorem refines_carefully (i : Instruction) :
    Refines (carefully env run i) (carefully env run' i) := by
  rw [carefully_goto, carefully_goto]
  refine Refines.bind ?_ fun _ => refines_goto _
  refine refines_context (fun _ => rfl) fun c => ?_
  intro m t h
  rw [Tree.caught_apply, Tree.caught_apply]
  refine (refines_runExclusive hrun (.ofAgent c.agent) i.next c.stream m t h).map
    (Tree.exhausted_caughtEnding _).2 fun hr => ?_
  rcases hx : runExclusive env run (.ofAgent c.agent) i.next c.stream m with
    ⟨a, k⟩ | ⟨⟨f⟩ | _, k⟩ <;> rw [hx] at hr
  · obtain ⟨k', hy, hk⟩ := hr.ok_left
    rw [hy]
    exact .ok false hk
  · obtain ⟨k', hy, hk⟩ := hr.error_left
    rw [hy]
    unfold Tree.caughtEnding
    dsimp only
    split
    · exact .ok true (congrArg (fun k : Machine => { k with
        context := { k.context with errorMessage := some f.message } }) hk)
    · exact .error _ hk
  · obtain ⟨k', hy, hk⟩ := hr.error_left
    rw [hy]
    exact .error _ hk

theorem refines_ask (i : Instruction) (v : Value) :
    Refines (ask env run i v) (ask env run' i v) := by
  rw [ask_eq, ask_eq]
  refine refines_get (fun _ => rfl) fun m => ?_
  apply (refines_ofExcept _).bind
  intro s
  exact (refines_runExclusive hrun s _ _).bind fun _ => refines_goto _

theorem refines_createTurtles (i : Instruction) (v : Value) :
    Refines (createTurtles env run i v) (createTurtles env run' i v) := by
  rw [createTurtles_eq, createTurtles_eq]
  refine refines_context (fun _ => rfl) fun c => ?_
  apply (refines_ofExcept _).bind
  intro count
  apply Refines.bind (refines_of_unread (x := spawn count) fun _ => rfl)
  intro created
  exact (refines_runExclusive hrun created _ _).bind fun _ => refines_goto _

end Nested

-- ════════════════════════════════════════════════════════════════════════
-- Commands
-- ════════════════════════════════════════════════════════════════════════

theorem refines_leave : Refines leave leave := by
  refine refines_context (fun _ => rfl) fun c => ?_
  split
  · exact refines_finish
  · exact (refines_ofExcept _).bind fun _ => refines_of_unread fun _ => rfl

theorem refines_fillInputs (env : Environment) (args : List Expr) :
    ∀ (slot : Nat) (frame : Frame),
      Refines (fillInputs env slot args frame) (fillInputs env slot args frame) := by
  induction args with
  | nil => exact fun _ frame => refines_pure frame
  | cons e rest ih =>
    intro slot frame
    exact (refines_evaluate env e).bind fun _ => (refines_ofExcept _).bind fun f => ih (slot + 1) f

theorem refines_call (env : Environment) (i : Instruction) (index : Nat) :
    Refines (call env i index) (call env i index) := by
  apply (refines_ofExcept _).bind
  intro q
  apply (refines_fillInputs env i.args 0 _).bind
  intro frame
  refine refines_context (fun _ => rfl) fun _ => (refines_ofExcept _).bind fun _ => ?_
  exact refines_of_unread fun _ => rfl

theorem refines_die : Refines die die := by
  refine refines_get (fun _ => rfl) fun m => (refines_ofExcept _).bind fun _ => ?_
  exact Refines.bind (refines_of_unread fun _ => rfl) fun _ => refines_finish

theorem refines_checkKind (token : String) (s : AgentSet) (kind : AgentKind) :
    Refines (checkKind token s kind) (checkKind token s kind) := by
  rw [checkKind]
  split
  · exact refines_pure ()
  · exact refines_ofExcept _

theorem refines_layoutSpring (env : Environment) (i : Instruction) :
    Refines (layoutSpring env i) (layoutSpring env i) := by
  apply (refines_agentsetAt env _ _ _).bind
  intro nodes
  apply (refines_agentsetAt env _ _ _).bind
  intro links
  apply (refines_numberAt env _ _ _).bind
  intro constant
  apply (refines_numberAt env _ _ _).bind
  intro length
  apply (refines_numberAt env _ _ _).bind
  intro repulsion
  apply (refines_checkKind _ _ _).bind
  intro _
  apply (refines_checkKind _ _ _).bind
  intro _
  refine refines_get (fun _ => rfl) fun m => (refines_draw _).bind fun laid => ?_
  refine Refines.bind (refines_of_unread fun _ => rfl) fun _ => ?_
  exact (refines_notifySlots laid.1).bind fun _ => refines_goto _

theorem refines_countDown (i : Instruction) (slot : Nat) :
    Refines (countDown i slot) (countDown i slot) := by
  apply (refines_getLocal slot).bind
  intro v
  apply (refines_ofExcept _).bind
  intro left
  split
  · exact refines_goto _
  · exact (refines_setLocal _ _).bind fun _ => refines_goto _

theorem refines_branch (i : Instruction) (v : Value) (otherwise : Nat) :
    Refines (branch i v otherwise) (branch i v otherwise) := by
  rw [branch_goto]
  exact (refines_ofExcept _).bind fun _ => refines_goto _

section Instructions

variable {env : Environment} {run run' : Exec Unit} (hrun : Refines run run')
include hrun

theorem refines_performUnary (i : Instruction) (v : Value) :
    Refines (performUnary env run i v) (performUnary env run' i v) := by
  unfold performUnary
  split
  · refine refines_get (fun _ => rfl) fun m => (refines_ofExcept _).bind fun a => ?_
    exact (refines_writeVariable a _ v).bind fun _ => refines_goto _
  · exact (refines_setLocal _ v).bind fun _ => refines_goto _
  · exact (refines_setLocal _ v).bind fun _ => refines_goto _
  · exact Refines.bind (refines_of_unread fun _ => rfl) fun _ => refines_goto _
  · exact refines_ask hrun i v
  · exact refines_createTurtles hrun i v
  · exact refines_branch i v _
  · exact refines_branch i v _
  · exact refines_branch i v _
  · refine (refines_ofExcept _).bind fun count => ?_
    exact (refines_setLocal _ _).bind fun _ => refines_goto _
  · exact refines_throw _

theorem refines_perform (i : Instruction) :
    Refines (perform env run i) (perform env run' i) := by
  unfold perform
  split
  · exact (refines_evaluateAt env _ _).bind fun v => refines_performUnary hrun i v
  · split
    · exact refines_withLocalRandomness hrun i
    · exact refines_carefully hrun i
    · exact refines_call env i _
    · exact refines_leave
    · exact refines_leave
    · exact refines_die
    · exact refines_layoutSpring env i
    · exact refines_goto _
    · exact refines_countDown i _
    · exact refines_finish
    · exact refines_throw _

/-- An instruction, given the runs of its blocks. -/
theorem refines_execute (i : Instruction) :
    Refines (execute env run i) (execute env run' i) := by
  refine Refines.mapFault ?_ fun _ => rfl
  split
  · exact refines_performUnary hrun i _
  · exact refines_perform hrun i

end Instructions

theorem refines_fetch (env : Environment) : Refines (fetch env) (fetch env) := by
  apply Refines.bind (x := readHalt) (refines_of_unread fun _ => rfl)
  intro raised
  split
  · exact refines_throw _
  · exact refines_context (fun _ => rfl) fun _ => refines_ofExcept _

/-- A run that does not run out of fuel ends in the same way with more fuel. -/
theorem refines_toCompletion (env : Environment) {fuel fuel' : Nat} (h : fuel ≤ fuel') :
    Refines (toCompletion env fuel) (toCompletion env fuel') := by
  induction fuel generalizing fuel' with
  | zero =>
    intro m t ht
    cases hm : m.context.finished with
    | true =>
      have hfinished : t.context.finished = true := by
        rw [← hm]
        exact congrArg (fun k => k.context.finished) ht.symm
      rw [toCompletion_of_finished hm, toCompletion_of_finished hfinished]
      exact .inr (.ok () ht)
    | false => exact .inl (toCompletion_zero hm)
  | succ fuel ih =>
    obtain ⟨more, rfl⟩ : ∃ more, fuel' = more + 1 := ⟨fuel' - 1, by omega⟩
    have hrest : Refines (toCompletion env fuel) (toCompletion env more) := ih (by omega)
    refine refines_context (fun _ => rfl) fun c => ?_
    split
    · exact refines_pure ()
    · apply (refines_fetch env).bind
      intro i
      exact (refines_execute hrest i).bind fun _ => hrest

end Exec

end Swarm
