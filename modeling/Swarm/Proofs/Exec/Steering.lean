import Swarm.Proofs.Exec.Raised

/-!
# Commands that move on

Most commands do something by themselves and then go to a place that their instruction names; which
one may depend on what came of it. What they do leaves the calls alone and stops as primitives do. So
what is proved of such a computation, and of the places that an instruction names, need not be proved
for each command.

## Main definitions

* `Instruction.Names`: a place that an instruction names
* `Exec.Steers`: a computation that does something by itself and then moves on

## Main results

* `Exec.steers_performUnary`: commands with one argument that run no nested job
* `Exec.steers_goto`, `Exec.steers_countDown`: jumps, and the passes of a counted loop
-/

namespace Swarm

/-- A place that the instruction names. -/
inductive Instruction.Names (i : Instruction) : Nat → Prop where
  | next : i.command.isTerminal = false → Names i i.next
  | offset : i.hasOffset = true → Names i i.offset
  | alternate : i.hasAlternate = true → Names i i.alternate

namespace Exec

variable {i : Instruction}

/-- The computation does something by itself and then goes to a place that the instruction names, or
it fails because the command takes no single argument. -/
inductive Steers (i : Instruction) : Exec Unit → Prop where
  | moves {α : Type} {x : Exec α} {target : α → Nat} : Blind x → Clean x →
    (∀ a, i.Names (target a)) → Steers i (x >>= fun a => goto (target a))
  | refuses (token : String) : Steers i (fail (.ofDefect (.notUnaryCommand token)))

theorem clean_notify (n : Notice) : Clean (notify n) :=
  stopsWith_modify _

theorem steers_branch {otherwise : Nat} (next : i.Names i.next) (names : i.Names otherwise)
    (v : Value) : Steers i (branch i v otherwise) := by
  rw [branch_goto]
  refine .moves (blind_ofExcept _) (clean_ofExcept (Argument.plain_boolean _ v)) fun b => ?_
  cases b with
  | true => exact next
  | false => exact names

/-- A command with one argument moves on, but for those that run nested jobs. -/
theorem steers_performUnary (env : Environment) (run : Exec Unit) (ask : i.command ≠ .ask)
    (create : i.command ≠ .createTurtles) (v : Value) : Steers i (performUnary env run i v) := by
  cases hc : i.command with
  | ask => exact absurd hc ask
  | createTurtles => exact absurd hc create
  | setVariable kind slot =>
    rw [performUnary_setVariable hc]
    exact .moves (Tree.blind_write kind slot _ v) (clean_write kind slot _ v)
      fun _ => .next (by rw [hc]; rfl)
  | letLocal slot =>
    rw [performUnary_letLocal hc]
    exact .moves (blind_setLocal slot v) (clean_setLocal slot v) fun _ => .next (by rw [hc]; rfl)
  | setLocal slot =>
    rw [performUnary_setLocal hc]
    exact .moves (blind_setLocal slot v) (clean_setLocal slot v) fun _ => .next (by rw [hc]; rfl)
  | print =>
    rw [performUnary_print hc]
    exact .moves (blind_notify _) (clean_notify _) fun _ => .next (by rw [hc]; rfl)
  | ifThen =>
    simp only [performUnary, hc]
    exact steers_branch (.next (by rw [hc]; rfl))
      (.offset (by simp [Instruction.hasOffset, hc, Command.blocks])) v
  | ifElse =>
    simp only [performUnary, hc]
    exact steers_branch (.next (by rw [hc]; rfl))
      (.alternate (by simp [Instruction.hasAlternate, hc])) v
  | whileTrue =>
    simp only [performUnary, hc]
    exact steers_branch (.next (by rw [hc]; rfl))
      (.offset (by simp [Instruction.hasOffset, hc, Command.blocks])) v
  | repeatTimes slot =>
    rw [performUnary_repeatTimes hc]
    exact .moves (Tree.blind_startCount slot _ v) (clean_startCount slot _ v)
      fun _ => .next (by rw [hc]; rfl)
  | _ =>
    -- a command that takes no single argument fails, known argument or not
    simp only [performUnary, hc]
    exact .refuses _

theorem steers_goto (command : i.command = .goto) : Steers i (goto i.offset) :=
  .moves (blind_pure ()) (stopsWith_pure ())
    fun _ => .offset (by simp [Instruction.hasOffset, command])

theorem steers_countDown {slot : Nat} (command : i.command = .repeatCheck slot) :
    Steers i (countDown i slot) := by
  rw [countDown_goto]
  refine .moves (Tree.blind_countPass _ slot) (clean_countPass _ slot) fun goesOn => ?_
  cases goesOn with
  | true => exact .next (by rw [command]; rfl)
  | false => exact .offset (by simp [Instruction.hasOffset, command])

end Exec

end Swarm
