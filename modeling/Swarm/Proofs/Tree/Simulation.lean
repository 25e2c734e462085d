import Swarm.Proofs.Tree.Commands

/-!
# Regions of code that simulate trees

The code of a tree occupies a region of a procedure, which is entered at its start and left at its
end unless the tree is left early. `Tree.Simulates` says that the machine, started at the start of a
region, does what the tree does: it gets to the end of the region, or leaves the running call, or
ends the agent's block, or fails with the same fault. There is one rule for each way in which trees
are put together.

## Main definitions

* `Tree.Follows`: the runs of the machine do what a run of a tree did
* `Tree.Simulates`: a region of code does what a tree does

## Main results

* `Tree.Simulates.andThen`, `Tree.Simulates.step`, `Tree.Simulates.loop`, `Tree.Simulates.call`
* `Tree.runsAs_agentBlock`: a region with a terminal instruction is an agent's block
-/

namespace Swarm.Tree

open Swarm.Exec

variable {α β : Type}

/-- The running call is at a place of a procedure, not below the base of the agent's block, and
nobody will halt the run. -/
structure Ready (procedure place : Nat) (m : Machine) : Prop where
  live : m.halt = .steady false
  procedure : m.context.procedure = procedure
  ip : m.context.ip = place
  running : m.context.finished = false
  base : m.context.baseDepth ≤ m.context.frames.depth

/-- The runs of the machine from `m` do what a run of a tree did. A normal end is at the place
`stop`; a tree that ran out of fuel had at least `n` units. -/
def Follows (env : Environment) (n stop : Nat) (m : Machine) : Ending Exit → Prop
  | .ok .normal t => ∃ m', Reaches env m m' ∧ m'.core = t.core ∧ Calm m m' ∧ m'.context.ip = stop
  | .ok .stopped t => ∃ m', m'.core = t.core ∧ Calm m m'
      ∧ ∀ m'', leave m' = .ok () m'' → Reaches env m m''
  | .ok .died t => ∃ m', Reaches env m m' ∧ m'.core = t.core ∧ m'.context.finished = true
  | .error (.fault f) t => ∃ m', m'.core = t.core
      ∧ Limit (fun j => toCompletion env j m) (.error (.fault f) m')
  | .error .exhausted _ => ∀ fuel, fuel ≤ n → Exhausted (toCompletion env fuel m)

/-- The code of a procedure from `start` to `stop` does what a tree does. -/
def Simulates (env : Environment) (n procedure start stop : Nat) (tree : Exec Exit) : Prop :=
  ∀ ⦃m t : Machine⦄, m.core = t.core → Ready procedure start m → Follows env n stop m (tree t)

variable {env : Environment} {n procedure start stop : Nat} {m m' t : Machine} {i : Instruction}

theorem Ready.untouched (h : Ready procedure start m) : m.halt.upcoming = [] :=
  congrArg HaltFlag.upcoming h.live

theorem Ready.of_calm {place : Nat} (h : Ready procedure start m) (hs : Calm m m')
    (hip : m'.context.ip = place) : Ready procedure place m' where
  live := (hs.halt.eq_of_upcoming_nil h.untouched).trans h.live
  procedure := hs.procedure.trans h.procedure
  ip := hip
  running := hs.finished.trans h.running
  base := by
    rw [hs.baseDepth, hs.depth]
    exact h.base

/-- A callee starts at the start of its code. -/
theorem Entered.ready {index next : Nat} (h : Entered index next m m')
    (ready : Ready procedure start m) : Ready index 0 m' where
  live := (h.halt.eq_of_upcoming_nil ready.untouched).trans ready.live
  procedure := h.procedure
  ip := h.ip
  running := h.finished.trans ready.running
  base := by
    have hlen := h.below.length_eq
    rw [CallStack.length_frames] at hlen
    have hbase := ready.base
    rw [h.baseDepth, m'.context.frames.depth_eq, hlen]
    omega

theorem Ready.poised (h : Ready procedure start m)
    (hi : env.program.instruction procedure start = .ok i) : Poised env m i where
  live := h.live
  running := h.running
  fetched := by rw [h.procedure, h.ip, hi]

-- ════════════════════════════════════════════════════════════════════════
-- Following from a later machine
-- ════════════════════════════════════════════════════════════════════════

namespace Follows

theorem mono {n' : Nat} {r : Ending Exit} (h : Follows env n stop m r) (hn : n' ≤ n) :
    Follows env n' stop m r := by
  rcases r with ⟨_ | _ | _, t⟩ | ⟨⟨f⟩ | _, t⟩
  · exact h
  · exact h
  · exact h
  · exact h
  · exact fun fuel hfuel => h fuel (by omega)

/-- What the runs from a machine that is reached do, the runs from here do. -/
theorem of_reaches {n' : Nat} {r : Ending Exit} (hr : Reaches env m m') (hs : Calm m m')
    (hout : (∀ fuel, fuel ≤ n → Exhausted (toCompletion env fuel m')) →
      ∀ fuel, fuel ≤ n' → Exhausted (toCompletion env fuel m))
    (h : Follows env n stop m' r) : Follows env n' stop m r := by
  rcases r with ⟨_ | _ | _, t⟩ | ⟨⟨f⟩ | _, t⟩
  · obtain ⟨m₁, hr₁, hcore, hs₁, hip⟩ := h
    exact ⟨m₁, hr.trans hr₁, hcore, hs.trans hs₁, hip⟩
  · obtain ⟨m₁, hcore, hs₁, hleave⟩ := h
    exact ⟨m₁, hcore, hs.trans hs₁, fun m₂ hm₂ => hr.trans (hleave m₂ hm₂)⟩
  · obtain ⟨m₁, hr₁, hcore, hfinished⟩ := h
    exact ⟨m₁, hr.trans hr₁, hcore, hfinished⟩
  · obtain ⟨m₁, hcore, hlimit⟩ := h
    exact ⟨m₁, hcore, hr.limit hlimit⟩
  · exact hout h

end Follows

/-- The ending of an instruction whose effect ended as given and which moves after it. -/
def moved (move : β → Machine → Machine) : Ending β → Ending Unit
  | .ok b m => .ok () (move b m)
  | .error e m => .error e m

theorem exhausted_moved (move : β → Machine → Machine) (r : Ending β) :
    Exhausted (moved move r) ↔ Exhausted r := by
  rcases r with ⟨a, m'⟩ | ⟨⟨f⟩ | _, m'⟩ <;> rfl

/-- An instruction whose effect is approached by the first part of a tree. What the tree does after
it is to be followed from the machine that comes of the effect. -/
theorem follows_bind {Q : Machine → Prop} {X : Nat → Ending β} {y : Exec β} {k : β → Exec Exit}
    (move : β → Machine → Machine) (hi : Poised env m i)
    (hexec : ∀ j, execute env (toCompletion env j) i m = moved move (X j))
    (hx : Approaches n Q X (y t))
    (hk : ∀ b m₁ t₁, m₁.core = t₁.core → Q m₁ →
      Limit (fun j => execute env (toCompletion env j) i m) (.ok () (move b m₁)) →
      Follows env (n + 1) stop m (k b t₁)) :
    Follows env (n + 1) stop m ((y >>= k) t) := by
  have hlimit {r : Ending β} (h : Limit X r) :
      Limit (fun j => execute env (toCompletion env j) i m) (moved move r) := by
    simp only [hexec]
    exact h.map fun r => (exhausted_moved move r).2
  rcases hy : y t with ⟨b, t₁⟩ | ⟨⟨f⟩ | _, t₁⟩ <;> rw [hy] at hx
  · obtain ⟨r, hr, hq, hl⟩ := hx.settled id
    obtain ⟨m₁, rfl, hcore⟩ := hr.ok_right
    rw [bind_of_ok hy]
    exact hk b m₁ t₁ hcore hq (hlimit hl)
  · obtain ⟨r, hr, _, hl⟩ := hx.settled id
    obtain ⟨m₁, rfl, hcore⟩ := hr.error_right
    rw [bind_of_error hy]
    refine ⟨m₁, hcore, .succ (toCompletion_zero hi.running) ?_⟩
    simp only [toCompletion_succ hi]
    exact (hlimit hl).bind_error _
  · rw [bind_of_error hy]
    intro fuel hfuel
    cases fuel with
    | zero => exact toCompletion_zero hi.running
    | succ fuel =>
      rw [toCompletion_succ hi]
      apply exhausted_bind
      rw [hexec, exhausted_moved]
      exact hx.exhausted trivial fuel (by omega)

/-- An instruction that leaves the running call, or the agent's block at its base. -/
theorem reaches_of_leave (hi : Poised env m i) (hc : i.command = .stop ∨ i.command = .ret)
    (hk : i.known = none) (h : leave m = .ok () m') : Reaches env m m' := by
  have hperform (j : Nat) : perform env (toCompletion env j) i = leave := by
    rcases hc with hc | hc
    · simp only [perform, hc]
      rfl
    · simp only [perform, hc]
      rfl
  have hexec (j : Nat) : execute env (toCompletion env j) i m = .ok () m' := by
    rw [execute_of_known hk, hperform, located, mapFault, h]
  apply reaches_of_execute hi
  simp only [hexec]
  exact .const _

/-- An effect that succeeds is not changed by recording faults. -/
theorem eq_ok_of_located {c : Command} {position : Position} {x : Exec α} {a : α}
    (h : located env c position x m = .ok a m') : x m = .ok a m' := by
  rw [located, mapFault_apply] at h
  rcases hx : x m with ⟨b, m₁⟩ | ⟨⟨f⟩ | _, m₁⟩ <;> rw [hx] at h
  · exact h
  · cases h
  · cases h

-- ════════════════════════════════════════════════════════════════════════
-- Rules
-- ════════════════════════════════════════════════════════════════════════

namespace Simulates

theorem mono {n' : Nat} {tree : Exec Exit} (h : Simulates env n procedure start stop tree)
    (hn : n' ≤ n) : Simulates env n' procedure start stop tree :=
  fun _ _ hcore hready => (h hcore hready).mono hn

/-- An empty region. -/
theorem nil : Simulates env n procedure start start (return .normal) :=
  fun m _ hcore hready => ⟨m, .refl env m, hcore, .refl m, hready.ip⟩

/-- Two regions, one after the other. -/
theorem andThen {middle : Nat} {first second : Exec Exit}
    (h₁ : Simulates env n procedure start middle first)
    (h₂ : Simulates env n procedure middle stop second) :
    Simulates env n procedure start stop (andThen first second) := by
  intro m t hcore hready
  have hfirst := h₁ hcore hready
  rw [Tree.andThen]
  rcases ht : first t with ⟨_ | _ | _, t₁⟩ | ⟨⟨f⟩ | _, t₁⟩ <;> rw [ht] at hfirst
  · obtain ⟨m₁, hr, hcore₁, hs, hip⟩ := hfirst
    rw [bind_of_ok ht]
    exact .of_reaches hr hs hr.exhausted (h₂ hcore₁ (hready.of_calm hs hip))
  · rw [bind_of_ok ht]
    exact hfirst
  · rw [bind_of_ok ht]
    exact hfirst
  · rw [bind_of_error ht]
    exact hfirst
  · rw [bind_of_error ht]
    exact hfirst

/-- An instruction whose effect is the first part of a tree, and which moves to the regions of the
rest of the tree. -/
theorem step {X : Nat → Exec β} {y : Exec β} {k : β → Exec Exit} (target : β → Nat)
    (hi : env.program.instruction procedure start = .ok i)
    (hexec : ∀ j, execute env (toCompletion env j) i = (X j >>= fun b => goto (target b)))
    (hx : ∀ {m t : Machine}, m.core = t.core → m.halt.upcoming = [] →
      m.context.procedure = procedure → Approaches n (Calm m) (fun j => X j m) (y t))
    (hk : ∀ b, Simulates env n procedure (target b) stop (k b)) :
    Simulates env (n + 1) procedure start stop (y >>= k) := by
  intro m t hcore hready
  have hpoised := hready.poised hi
  refine follows_bind (fun b m => { m with context := { m.context with ip := target b } }) hpoised
    (fun j => ?_) (hx hcore hready.untouched hready.procedure) fun b m₁ t₁ hcore₁ hs₁ hlimit => ?_
  · rw [hexec, bind_apply]
    rcases X j m with ⟨b, m₁⟩ | ⟨e, m₁⟩ <;> rfl
  · have hs : Calm m { m₁ with context := { m₁.context with ip := target b } } :=
      hs₁.trans ⟨.of_eq rfl rfl rfl, .refl m₁.halt⟩
    exact .of_reaches (reaches_of_execute hpoised hlimit) hs (exhausted_of_execute hpoised hlimit)
      (hk b hcore₁ (hready.of_calm hs rfl))

/-- A jump. -/
theorem jump {tree : Exec Exit} (hi : env.program.instruction procedure start = .ok i)
    (hc : i.command = .goto) (hk : i.known = none)
    (h : Simulates env n procedure i.offset stop tree) :
    Simulates env n procedure start stop tree := by
  have hexec (j : Nat) : execute env (toCompletion env j) i
      = (located env i.command i.position (pure ()) >>= fun _ => goto i.offset) := by
    apply execute_of_perform (fun _ => i.offset) hk
    simp only [perform, hc]
    rfl
  have hjump : Simulates env (n + 1) procedure start stop
      (located env i.command i.position (pure ()) >>= fun _ => tree) :=
    step (fun _ => i.offset) hi hexec
      (fun hcore _ _ => (Approaches.of_blind (blind_pure ()) hcore).located _ _)
      fun _ => h
  exact hjump.mono (by omega)

/-- A loop: a check that leads into the body or out of the loop, the body, and a jump back. -/
theorem loop {X : Exec Bool} {check : Exec Bool} {inside back : Nat} {body : Exec Exit}
    {j : Instruction} (hi : env.program.instruction procedure start = .ok i)
    (hexec : ∀ k, execute env (toCompletion env k) i =
      (X >>= fun b => goto (if b then inside else stop)))
    (hcheck : ∀ {n : Nat} {m t : Machine}, m.core = t.core →
      Approaches n (Calm m) (fun _ => X m) (check t))
    (hbody : Simulates env n procedure inside back body)
    (hj : env.program.instruction procedure back = .ok j) (hc : j.command = .goto)
    (hk : j.known = none) (hoffset : j.offset = start) :
    ∀ passes, passes ≤ n + 1 →
      Simulates env passes procedure start stop (loop check body passes) := by
  intro passes
  induction passes with
  | zero =>
    intro _ m t _ hready fuel hfuel
    obtain rfl : fuel = 0 := by omega
    exact toCompletion_zero hready.running
  | succ passes ih =>
    intro hpasses
    refine step (fun b : Bool => if b then inside else stop) hi hexec
      (fun hcore _ _ => hcheck hcore) fun b => ?_
    cases b with
    | false => exact nil
    | true =>
      refine (hbody.mono (by omega)).andThen (jump hj hc hk ?_)
      rw [hoffset]
      exact ih (by omega)

/-- `stop`. -/
theorem stopped (after : Nat) (hi : env.program.instruction procedure start = .ok i)
    (hc : i.command = .stop) (hk : i.known = none) :
    Simulates env n procedure start after (return .stopped) := by
  intro m t hcore hready
  exact ⟨m, hcore, .refl m, fun _ hleave =>
    reaches_of_leave (hready.poised hi) (.inl hc) hk hleave⟩

/-- `die`. -/
theorem died (after : Nat) (hi : env.program.instruction procedure start = .ok i)
    (hc : i.command = .die) (hk : i.known = none) :
    Simulates env (n + 1) procedure start after
      (located env i.command i.position die >>= fun _ => return .died) := by
  intro m t hcore hready
  have hpoised := hready.poised hi
  have hexec (j : Nat) : execute env (toCompletion env j) i
      = located env i.command i.position die := by
    rw [execute_of_known hk]
    simp only [perform, hc]
    rfl
  refine follows_bind (Q := fun _ => True) (X := fun _ => located env i.command i.position die m)
    (fun _ m => m) hpoised (fun j => ?_) ?_ fun _ m₁ t₁ hcore₁ _ hlimit => ?_
  · rw [hexec]
    rcases located env i.command i.position die m with ⟨b, m₁⟩ | ⟨e, m₁⟩ <;> rfl
  · exact Approaches.located (X := fun _ => die) _ _ (.of_alike (alike_die hcore) trivial)
  · refine ⟨m₁, reaches_of_execute hpoised hlimit, hcore₁, ?_⟩
    obtain ⟨fuel, hdie⟩ := hlimit.reached
    rw [hexec] at hdie
    exact finished_of_die (eq_ok_of_located hdie)

/-- What is left to do once the callee was left: the caller goes on after the call. -/
theorem follows_callBody {index : Nat} {body : Exec Exit} {exit : Exit} {m₁ m₂ t₁ t₂ : Machine}
    (hin : Entered index stop m m₁) (hbase : m.context.baseDepth ≤ m.context.frames.depth)
    (hexit : exit ≠ .died) (ht : body t₁ = .ok exit t₂) (hcore : m₂.core = t₂.core)
    (hs : Calm m₁ m₂) (hleave : ∀ m₃, leave m₂ = .ok () m₃ → Reaches env m m₃) :
    Follows env n stop m (callBody body t₁) := by
  obtain ⟨m₃, t₃, hm₃, ht₃, hcore₃, hs₃, hip₃⟩ := leave_of_entered hin hbase hs hcore
  have hend : callBody body t₁ = .ok .normal t₃ := by
    rw [callBody, bind_of_ok ht]
    cases exit with
    | died => exact absurd rfl hexit
    | _ => exact bind_of_ok ht₃
  rw [hend]
  exact ⟨m₃, hleave m₃ hm₃, hcore₃, hs₃, hip₃⟩

/-- A call: the instruction that enters it, the code of the callee and the return at its end. -/
theorem call {name : String} {index length : Nat} {q : Procedure} {body : Exec Exit}
    {last : Instruction} (hi : env.program.instruction procedure start = .ok i)
    (hc : i.command = .call name index)
    (hk : i.known = none) (hq : env.program.procedure index = .ok q)
    (hbody : Simulates env n index 0 length body)
    (hlast : env.program.instruction index length = .ok last) (hret : last.command = .ret)
    (hknown : last.known = none) :
    Simulates env (n + 1) procedure start i.next
      (located env i.command i.position (enterCall env i.args (.fresh index q.locals 0)) >>= fun _ =>
        callBody body) := by
  intro m t hcore hready
  have hpoised := hready.poised hi
  have hexec (j : Nat) : execute env (toCompletion env j) i
      = located env i.command i.position (Exec.call env i index) := by
    rw [execute_of_known hk]
    simp only [perform, hc]
    rfl
  refine follows_bind (Q := fun _ => True)
    (X := fun _ => located env i.command i.position (Exec.call env i index) m)
    (fun _ m => m) hpoised (fun j => ?_) ?_ fun _ m₁ t₁ hcore₁ _ hlimit => ?_
  · rw [hexec]
    rcases located env i.command i.position (Exec.call env i index) m with ⟨b, m₁⟩ | ⟨e, m₁⟩ <;> rfl
  · exact Approaches.located (X := fun _ => Exec.call env i index) _ _
      (.of_alike (alike_call hcore hq) trivial)
  -- the callee runs on top of the caller's frames
  have hin : Entered index i.next m m₁ := by
    obtain ⟨fuel, hcall⟩ := hlimit.reached
    rw [hexec] at hcall
    exact entered_of_call (eq_ok_of_located hcall)
  have hr₁ : Reaches env m m₁ := reaches_of_execute hpoised hlimit
  have hready₁ : Ready index 0 m₁ := hin.ready hready
  have hfollows := hbody hcore₁ hready₁
  rcases ht : body t₁ with ⟨_ | _ | _, t₂⟩ | ⟨⟨f⟩ | _, t₂⟩ <;> rw [ht] at hfollows
  · obtain ⟨m₂, hr, hcore₂, hs, hip⟩ := hfollows
    refine follows_callBody hin hready.base (by decide) ht hcore₂ hs fun m₃ hm₃ => ?_
    have hpoised₂ := (hready₁.of_calm hs hip).poised hlast
    exact hr₁.trans (hr.trans (reaches_of_leave hpoised₂ (.inr hret) hknown hm₃))
  · obtain ⟨m₂, hcore₂, hs, hleave⟩ := hfollows
    exact follows_callBody hin hready.base (by decide) ht hcore₂ hs fun m₃ hm₃ =>
      hr₁.trans (hleave m₃ hm₃)
  · obtain ⟨m₂, hr, hcore₂, hfinished⟩ := hfollows
    rw [callBody, bind_of_ok ht]
    exact ⟨m₂, hr₁.trans hr, hcore₂, hfinished⟩
  · obtain ⟨m₂, hcore₂, hlimit₂⟩ := hfollows
    rw [callBody, bind_of_error ht]
    exact ⟨m₂, hcore₂, hr₁.limit hlimit₂⟩
  · rw [callBody, bind_of_error ht]
    exact exhausted_of_execute hpoised hlimit hfollows

end Simulates

-- ════════════════════════════════════════════════════════════════════════
-- Blocks of agents
-- ════════════════════════════════════════════════════════════════════════

/-- The machine whose agent ended its block. -/
def ended (m : Machine) : Machine :=
  { m with context := { m.context with finished := true } }

theorem leave_of_atBase (h : m.context.atBase = true) : leave m = .ok () (ended m) := by
  rw [leave, context_bind, h]
  rfl

/-- An instruction that ends the agent's block at its base. -/
theorem reaches_ended (hi : Poised env m i) (hc : i.command = .done ∨ i.command = .ret)
    (hk : i.known = none) (hbase : m.context.atBase = true) : Reaches env m (ended m) := by
  rcases hc with hc | hc
  · have hexec (j : Nat) : execute env (toCompletion env j) i m = .ok () (ended m) := by
      rw [execute_of_known hk, located, mapFault]
      simp only [perform, hc]
      rfl
    apply reaches_of_execute hi
    simp only [hexec]
    exact .const _
  · exact reaches_of_leave hi (.inr hc) hk (leave_of_atBase hbase)

theorem agentBlock_apply (run : List Statement → Exec Exit) (b : List Statement) (t : Machine) :
    agentBlock run b t =
      if t.halt.isRaised then .error (.fault (.ofCause .halted)) t.haltRead
      else (run b >>= fun _ => finish) t.haltRead := by
  rw [agentBlock, readHalt_bind]
  cases t.halt.isRaised with
  | false => rfl
  | true => rfl

/-- A region that is followed by a terminal instruction is an agent's block. -/
theorem runsAs_agentBlock {entry : Nat} {run : List Statement → Exec Exit} {b : List Statement}
    (h : Simulates env n procedure entry stop (run b))
    (hi : env.program.instruction procedure stop = .ok i)
    (hc : i.command = .done ∨ i.command = .ret) (hk : i.known = none) :
    RunsAs env n procedure entry (agentBlock run b) := by
  intro m t hcore untouched hp hip hbase hrunning
  have hhalt : m.halt = t.halt := congrArg (fun k => k.halt) hcore
  rw [agentBlock_apply]
  split
  · -- a halted run fails before its first instruction, and the tree before its first statement
    next halted =>
    have hread : m.haltRead.core = t.haltRead.core := congrArg Machine.haltRead hcore
    refine ⟨fun he => he.elim, fun _ =>
      ⟨_, .error _ hread, trivial, .succ (toCompletion_zero hrunning) ?_⟩⟩
    simp only [toCompletion_of_halted (hhalt ▸ halted) hrunning]
    exact .const _
  next live =>
  have hlive : m.halt = .steady false := by
    rw [HaltFlag.eq_steady_of_upcoming_nil untouched, hhalt, eq_false_of_ne_true live]
  rw [haltRead_of_untouched (hhalt ▸ untouched)]
  have hready : Ready procedure entry m := ⟨hlive, hp, hip, hrunning, by omega⟩
  have hfollows := h hcore hready
  -- what the runs end in if the block was left at `m₁`
  have hend {m₁ t₁ : Machine} {exit : Exit} (ht : run b t = .ok exit t₁)
      (hcore₁ : m₁.core = t₁.core) (hr : Reaches env m (ended m₁)) :
      Approaches n (fun _ => True) (fun j => toCompletion env j m)
        ((run b >>= fun _ => finish) t) := by
    rw [bind_of_ok ht, finish_apply]
    refine ⟨fun he => he.elim, fun _ => ⟨.ok () (ended m₁), .ok () ?_, trivial, ?_⟩⟩
    · exact congrArg ended hcore₁
    · exact hr.limit_of_finished rfl
  have hatBase {m₁ : Machine} (hs : Calm m m₁) : m₁.context.atBase = true := by
    simp only [Context.atBase, decide_eq_true_eq]
    have hdepth := hs.depth
    have hbase₁ := hs.baseDepth
    omega
  rcases ht : run b t with ⟨_ | _ | _, t₁⟩ | ⟨⟨f⟩ | _, t₁⟩ <;> rw [ht] at hfollows
  · obtain ⟨m₁, hr, hcore₁, hs, hip₁⟩ := hfollows
    have hpoised := (hready.of_calm hs hip₁).poised hi
    exact hend ht hcore₁ (hr.trans (reaches_ended hpoised hc hk (hatBase hs)))
  · obtain ⟨m₁, hcore₁, hs, hleave⟩ := hfollows
    exact hend ht hcore₁ (hleave _ (leave_of_atBase (hatBase hs)))
  · obtain ⟨m₁, hr, hcore₁, hfinished⟩ := hfollows
    have hsame : ended m₁ = m₁ := by
      rw [ended]
      rw [← hfinished]
    exact hend ht hcore₁ (hsame.symm ▸ hr)
  · obtain ⟨m₁, hcore₁, hlimit⟩ := hfollows
    rw [bind_of_error ht]
    exact ⟨fun he => he.elim, fun _ => ⟨_, .error _ hcore₁, trivial, hlimit⟩⟩
  · rw [bind_of_error ht]
    exact ⟨fun _ => hfollows, fun he => absurd trivial he⟩

end Swarm.Tree
