import Swarm.Proofs.Exec.Exhaustion
import Swarm.Proofs.Program.Forward

/-!
# Programs that lead forward come to an end

In a program that leads forward an agent goes through each procedure once, and enters calls until it
has no room for more. What it has left to do is measured by its frames and its place alone: in each
frame by the instructions after the place it goes on at, weighted so that an instruction of a caller
outweighs all of its callee. Every instruction makes the measure smaller, and the agents of a nested
job begin with less than the agent that drives the job had left. So runs need no more fuel than the
measure says, whatever the world, the sets and the draws are.

## Main definitions

* `Program.length`: the number of instructions of a procedure
* `burden`, `Cursor.burden`: what an agent has left to do

## Main results

* `Exec.burden_lt_of_moves`: every instruction makes the burden smaller
* `Exec.not_exhausted_toCompletion`, `Exec.not_exhausted_untilSwitch`: runs with enough fuel
-/

namespace Swarm

/-- The sum of the numbers, and one. -/
def total {α : Type} (f : α → Nat) (xs : List α) : Nat :=
  xs.foldr (fun x n => f x + n) 1

theorem total_pos {α : Type} (f : α → Nat) (xs : List α) : 0 < total f xs := by
  induction xs with
  | nil => exact Nat.one_pos
  | cons x rest ih => exact Nat.add_pos_right (f x) ih

/-- A total is more than any of its terms. -/
theorem lt_total {α : Type} (f : α → Nat) {x : α} {xs : List α} (h : x ∈ xs) :
    f x < total f xs := by
  induction xs with
  | nil => cases h
  | cons y rest ih =>
    show f x < f y + total f rest
    rcases List.mem_cons.1 h with rfl | hrest
    · exact Nat.lt_add_of_pos_right (total_pos f rest)
    · exact Nat.lt_of_lt_of_le (ih hrest) (Nat.le_add_left _ _)

namespace Program

/-- The number of instructions of the procedure at a place. -/
def length (program : Program) (index : Nat) : Nat :=
  (program.procedures[index]?.map fun q => q.code.size).getD 0

/-- More than the number of instructions of any procedure. -/
def breadth (program : Program) : Nat :=
  total (fun q => q.code.size) program.procedures.toList

theorem length_lt_breadth (program : Program) (index : Nat) :
    program.length index < program.breadth := by
  unfold length
  cases hq : program.procedures[index]? with
  | none => exact total_pos _ _
  | some q => exact lt_total (fun q => q.code.size) (Array.mem_toList_iff.2 (Array.mem_of_getElem? hq))

/-- What is fetched is in the code, and leads forward if the program does. -/
theorem Forward.of_instruction {program : Program} (h : program.Forward) {index ip : Nat}
    {i : Instruction} (hi : program.instruction index ip = .ok i) :
    i.Forward ip ∧ ip < program.length index := by
  unfold instruction Program.procedure at hi
  cases hq : program.procedures[index]? with
  | none =>
    rw [hq] at hi
    cases hi
  | some q =>
    simp only [hq, bind, Except.bind] at hi
    cases hcode : q.code[ip]? with
    | none =>
      rw [hcode] at hi
      cases hi
    | some j =>
      rw [hcode] at hi
      cases hi
      refine ⟨h index q ip i hq hcode, ?_⟩
      simp only [length, hq, Option.map_some, Option.getD_some]
      exact (Array.getElem?_eq_some_iff.1 hcode).1

end Program

theorem Instruction.Forward.of_names {i : Instruction} {ip place : Nat} (h : i.Forward ip)
    (names : i.Names place) : ip < place := by
  cases names with
  | next ordinary => exact h.next ordinary
  | offset used => exact h.offset used
  | alternate used => exact h.alternate used

-- ════════════════════════════════════════════════════════════════════════
-- The measure
-- ════════════════════════════════════════════════════════════════════════

/-- What an agent with these frames, of which it may have at most `room`, has left to do from a
place of the running procedure on: the instructions left in each frame, weighted by the calls that
they might still enter. -/
def burden (program : Program) (room : Nat) : List Frame → Nat → Nat
  | [], _ => 0
  | f :: below, ip =>
    (program.length f.procedure - ip) * Nat.pow program.breadth (room - (below.length + 1))
      + burden program room below f.returnIp

/-- What pending work has left to do. -/
def Cursor.burden (program : Program) (c : Cursor) : Nat :=
  Swarm.burden program c.frames.maxDepth c.frames.frames c.ip

section Burden

variable {program : Program} {room ip ip' : Nat} {f : Frame} {below fs gs : List Frame}

/-- The locals of the frame on top do not matter. -/
theorem burden_of_topLike (h : TopLike fs gs) (ip : Nat) :
    burden program room gs ip = burden program room fs ip := by
  cases fs with
  | nil =>
    cases gs with
    | nil => rfl
    | cons g below => exact h.elim
  | cons f below =>
    cases gs with
    | nil => exact h.elim
    | cons g below' =>
      obtain ⟨like, rfl⟩ := h
      rw [burden, burden, like.procedure, like.returnIp]

theorem weight_pos (program : Program) (n : Nat) : 0 < Nat.pow program.breadth n :=
  Nat.pow_pos (total_pos _ _)

/-- An instruction further on. -/
theorem burden_lt_of_lt (here : ip < program.length f.procedure) (forward : ip < ip') :
    burden program room (f :: below) ip' < burden program room (f :: below) ip := by
  have hleft : program.length f.procedure - ip' < program.length f.procedure - ip := by omega
  have hmul := Nat.mul_lt_mul_of_pos_right hleft
    (weight_pos program (room - (below.length + 1)))
  simp only [burden]
  omega

/-- A return to the frame below. -/
theorem burden_lt_of_return (here : ip < program.length f.procedure) :
    burden program room below f.returnIp < burden program room (f :: below) ip := by
  have hpos := Nat.mul_pos (Nat.sub_pos_of_lt here)
    (weight_pos program (room - (below.length + 1)))
  simp only [burden]
  omega

/-- A call, after which the caller goes on further on: all of the callee weighs less than one
instruction of the caller. -/
theorem burden_lt_of_call {g : Frame} (caller : TopLike (f :: below) fs)
    (here : ip < program.length f.procedure) (forward : ip < g.returnIp)
    (deep : fs.length + 1 ≤ room) :
    burden program room (g :: fs) 0 < burden program room (f :: below) ip := by
  have hlength : fs.length = below.length + 1 := caller.length_eq
  have hroom : room - fs.length = room - (fs.length + 1) + 1 := by omega
  have hcallee : program.length g.procedure * Nat.pow program.breadth (room - (fs.length + 1))
      < Nat.pow program.breadth (room - fs.length) := by
    rw [hroom, Nat.pow_eq, Nat.pow_eq, Nat.pow_succ, Nat.mul_comm]
    exact Nat.mul_lt_mul_of_pos_left (program.length_lt_breadth _) (weight_pos program _)
  have hcaller : (program.length f.procedure - g.returnIp + 1)
        * Nat.pow program.breadth (room - fs.length)
      ≤ (program.length f.procedure - ip) * Nat.pow program.breadth (room - fs.length) :=
    Nat.mul_le_mul_right _ (by omega)
  rw [Nat.add_mul, Nat.one_mul] at hcaller
  rw [burden, burden_of_topLike caller, burden, burden, ← hlength, Nat.sub_zero]
  omega

end Burden

namespace Exec

variable {env : Environment} {run : Exec Unit} {i : Instruction} {m m' k : Machine}

/-- An agent that goes on further on in the same call has less left to do. -/
theorem burden_lt_of_frames {program : Program}
    (here : m.context.ip < program.length m.context.procedure)
    (frames : TopLike m.context.frames.frames m'.context.frames.frames) (room : SameRoom m m')
    (forward : m.context.ip < m'.context.ip) :
    m'.context.burden program < m.context.burden program := by
  rw [Cursor.burden, room, burden_of_topLike frames]
  exact burden_lt_of_lt here forward

/-- An instruction ends the agent's block, or leaves it less to do. -/
theorem burden_lt_of_moves {program : Program} (forward : i.Forward m.context.ip)
    (here : m.context.ip < program.length m.context.procedure) (room : SameRoom m m')
    (h : Moves i m m') :
    m'.context.finished = true ∨ m'.context.burden program < m.context.burden program := by
  cases h with
  | ends finished => exact .inl finished
  | jumps frames place =>
    exact .inr (burden_lt_of_frames here frames room (forward.of_names place))
  | calls caller returnIp next ip depth =>
    right
    rw [m'.context.frames.depth_eq, room] at depth
    rw [Cursor.burden, room, ip]
    exact burden_lt_of_call caller here (returnIp ▸ forward.of_names next) depth
  | returns frames ip =>
    right
    obtain ⟨rfl, hbelow⟩ := List.cons.inj frames
    rw [Cursor.burden, room, ip, ← hbelow]
    exact burden_lt_of_return here

/-- An instruction runs out of fuel only if the run of an agent does that has less to do. -/
theorem burden_lt_of_exhausted {program : Program} (forward : i.Forward m.context.ip)
    (here : m.context.ip < program.length m.context.procedure) (framed : Keeps Framed run)
    (h : Exhausted (execute env run i m)) :
    ∃ k, k.context.burden program < m.context.burden program ∧ Exhausted (run k) := by
  obtain ⟨k, names, hbegins, hk⟩ := begins_of_exhausted framed h
  have hplace : m.context.ip < k.context.ip := hbegins.place.symm ▸ forward.of_names names
  exact ⟨k, burden_lt_of_frames here hbegins.frames hbegins.room hplace, hk⟩

-- ════════════════════════════════════════════════════════════════════════
-- Runs
-- ════════════════════════════════════════════════════════════════════════

/-- The next instruction and what comes after it do not run out of fuel, if no run with less to do
does. -/
theorem not_exhausted_of_step {fuel : Nat} (forward : env.program.Forward)
    {rest : Instruction → Exec Unit}
    (hrun : ∀ k, k.context.burden env.program < m.context.burden env.program →
      ¬ Exhausted (toCompletion env fuel k))
    (hrest : ∀ i m', m'.context.finished = true
        ∨ m'.context.burden env.program < m.context.burden env.program →
      ¬ Exhausted (rest i m')) :
    ¬ Exhausted
      ((fetch env >>= fun i => execute env (toCompletion env fuel) i >>= fun _ => rest i) m) := by
  have framed := framed_effects.toCompletion env fuel
  have seated := sameSeat_effects.toCompletion env fuel
  have roomy := sameRoom_effects.toCompletion env fuel
  intro hout
  obtain ⟨m', h⟩ := exhausted_iff.1 hout
  rcases bind_eq_error h with hfetch | ⟨i, m₁, hfetch, hcarry⟩
  · exact (sated_fetch env).ne_exhausted hfetch
  obtain ⟨rfl, _, hinstruction⟩ := fetch_eq_ok hfetch
  obtain ⟨hforward, here⟩ := forward.of_instruction hinstruction
  rcases bind_eq_error hcarry with hexecute | ⟨_, m₂, hexecute, hafter⟩
  · have hout : Exhausted (execute env (toCompletion env fuel) i m.haltRead) :=
      exhausted_iff.2 ⟨m', hexecute⟩
    obtain ⟨k, hless, hk⟩ := burden_lt_of_exhausted (m := m.haltRead) hforward here framed hout
    exact hrun k hless hk
  · have room := sameRoom_effects.execute roomy env i m.haltRead
    rw [hexecute] at room
    have hmoves := burden_lt_of_moves (m := m.haltRead) hforward here room
      (moves_of_execute framed seated hexecute)
    exact hrest i m₂ hmoves (exhausted_iff.2 ⟨m', hafter⟩)

/-- A run does not run out of fuel if it has more than its agent has left to do. -/
theorem not_exhausted_toCompletion (forward : env.program.Forward) (fuel : Nat) :
    ∀ m : Machine, m.context.burden env.program < fuel → ¬ Exhausted (toCompletion env fuel m) := by
  induction fuel with
  | zero => exact fun _ h => absurd h (Nat.not_lt_zero _)
  | succ fuel ih =>
    intro m enough
    cases hfinished : m.context.finished with
    | true =>
      rw [toCompletion_of_finished hfinished]
      exact id
    | false =>
      rw [toCompletion_of_running hfinished]
      refine not_exhausted_of_step forward (fun k hk => ih k (by omega)) fun i m' hm' => ?_
      rcases hm' with hdone | hless
      · rw [toCompletion_of_finished hdone]
        exact id
      · exact ih m' (by omega)

/-- Nor does a turn. -/
theorem not_exhausted_untilSwitch (forward : env.program.Forward) (fuel : Nat) :
    ∀ m : Machine, m.context.burden env.program < fuel → ¬ Exhausted (untilSwitch env fuel m) := by
  induction fuel with
  | zero => exact fun _ h => absurd h (Nat.not_lt_zero _)
  | succ fuel ih =>
    intro m enough
    rw [untilSwitch_succ]
    refine not_exhausted_of_step forward
      (fun k hk => not_exhausted_toCompletion forward fuel k (by omega)) fun i m' hm' => ?_
    cases hfinished : m'.context.finished with
    | true =>
      rw [restOfTurn, context_bind, hfinished]
      exact id
    | false =>
      have hless : m'.context.burden env.program < m.context.burden env.program :=
        hm'.resolve_left (by simp [hfinished])
      rw [restOfTurn_of_running fuel i hfinished]
      split
      · intro hout
        obtain ⟨m₁, h⟩ := exhausted_iff.1 hout
        exact (sated_endTurn env).ne_exhausted h
      · exact ih m' (by omega)

end Exec

end Swarm
