import Swarm.Fault.Basic

/-!
# Call frames

Each agent that runs code owns a stack of frames, one for each call it is in. A frame holds the
locals of a procedure, its inputs first, and the instruction of the caller to return to.

## Main definitions

* `Frame`, `Frame.get`, `Frame.set`
* `CallStack`: a stack that always has a top frame
* `CallStack.push`, `CallStack.pop`, `CallStack.unwindTo`
-/

namespace Swarm

/-- One call. -/
structure Frame where
  /-- The place of the running procedure in the program. -/
  procedure : Nat
  locals : Array Value
  /-- The instruction of the caller to go on with. -/
  returnIp : Nat
deriving Inhabited, BEq

namespace Frame

/-- A frame whose locals are all zero. -/
def fresh (procedure locals returnIp : Nat) : Frame :=
  ⟨procedure, Array.replicate locals .zero, returnIp⟩

/-- The value of a local. -/
def get (f : Frame) (slot : Nat) : Except Fault Value :=
  match f.locals[slot]? with
  | some v => .ok v
  | none => .error (.ofDefect (.localSlot slot))

/-- Assign a local. -/
def set (f : Frame) (slot : Nat) (v : Value) : Except Fault Frame :=
  if slot < f.locals.size then .ok { f with locals := f.locals.modify slot fun _ => v }
  else .error (.ofDefect (.localSlot slot))

@[simp]
theorem size_fresh (procedure locals returnIp : Nat) :
    (fresh procedure locals returnIp).locals.size = locals := by
  simp [fresh]

/-- An assignment changes one local and nothing else. -/
theorem eq_of_set {f g : Frame} {slot : Nat} {v : Value} (h : f.set slot v = .ok g) :
    g.procedure = f.procedure ∧ g.returnIp = f.returnIp ∧ g.locals.size = f.locals.size
      ∧ g.get slot = .ok v ∧ ∀ other, other ≠ slot → g.get other = f.get other := by
  unfold set at h
  split at h
  · next hs =>
    cases h
    refine ⟨rfl, rfl, by simp, by simp [get, hs, Array.getElem_modify], fun other ho => ?_⟩
    simp [get, Array.getElem?_modify, Ne.symm ho]
  · cases h

end Frame

/-- A stack of frames. Its depth is kept beside it. -/
structure CallStack where
  top : Frame
  /-- The frames below the top, nearest first. -/
  below : List Frame
  maxDepth : Nat
  depth : Nat
  depth_eq : depth = below.length + 1

/-- Frames an agent may have unless limits say otherwise. -/
def defaultCallDepth : Nat := 256

namespace CallStack

/-- The stack of one frame. -/
def ofFrame (maxDepth : Nat) (base : Frame) : CallStack :=
  ⟨base, [], maxDepth, 1, rfl⟩

/-- All frames, the top first. -/
def frames (s : CallStack) : List Frame :=
  s.top :: s.below

/-- Stacks are equal if their frames and their bounds are. -/
instance : BEq CallStack := ⟨fun s t => s.frames == t.frames && s.maxDepth == t.maxDepth⟩

/-- Enter a call. -/
def push (s : CallStack) (f : Frame) : Except Fault CallStack :=
  if s.maxDepth ≤ s.depth then .error (.ofCause (.callDepth s.maxDepth))
  else .ok ⟨f, s.top :: s.below, s.maxDepth, s.depth + 1, by simp [s.depth_eq]⟩

theorem frames_ne_nil (s : CallStack) : s.frames ≠ [] :=
  List.cons_ne_nil _ _

theorem length_frames (s : CallStack) : s.frames.length = s.depth := by
  simp [frames, s.depth_eq]

theorem depth_pos (s : CallStack) : 0 < s.depth := by
  rw [s.depth_eq]
  omega

/-- A call puts a frame on top of the others. -/
theorem frames_of_push {s t : CallStack} {f : Frame} (h : s.push f = .ok t) :
    t.frames = f :: s.frames ∧ t.maxDepth = s.maxDepth ∧ s.depth < s.maxDepth := by
  unfold push at h
  split at h
  · cases h
  · cases h
    exact ⟨rfl, rfl, by omega⟩

/-- Leave a call. The last frame stays. -/
def pop (s : CallStack) : Except Fault (Frame × CallStack) :=
  match s with
  | ⟨top, next :: rest, maxDepth, depth, h⟩ =>
    .ok (top, ⟨next, rest, maxDepth, depth - 1, by simp [h]⟩)
  | ⟨_, [], _, _, _⟩ => .error (.ofDefect .returnedPastBase)

/-- A return takes the frame on top. -/
theorem frames_of_pop {s t : CallStack} {f : Frame} (h : s.pop = .ok (f, t)) :
    s.frames = f :: t.frames ∧ t.maxDepth = s.maxDepth := by
  obtain ⟨top, below, maxDepth, depth, hd⟩ := s
  cases below with
  | nil => cases h
  | cons next rest =>
    cases h
    exact ⟨rfl, rfl⟩

/-- Drop frames from the top, but never the last one. -/
def dropFrames : Nat → CallStack → CallStack
  | 0, s => s
  | n + 1, s =>
    match s with
    | ⟨_, next :: rest, maxDepth, depth, h⟩ =>
      dropFrames n ⟨next, rest, maxDepth, depth - 1, by simp [h]⟩
    | ⟨top, [], maxDepth, depth, h⟩ => ⟨top, [], maxDepth, depth, h⟩

/-- Drop the frames above a depth, but never the last one. -/
def unwindTo (s : CallStack) (depth : Nat) : CallStack :=
  dropFrames (s.depth - depth) s

/-- Dropping frames leaves the lowest ones as they were. -/
theorem frames_dropFrames (n : Nat) (s : CallStack) (h : n < s.depth) :
    (dropFrames n s).frames = s.frames.drop n ∧ (dropFrames n s).maxDepth = s.maxDepth := by
  induction n generalizing s with
  | zero => exact ⟨rfl, rfl⟩
  | succ n ih =>
    obtain ⟨top, below, maxDepth, depth, hd⟩ := s
    cases below with
    | nil =>
      simp only [List.length_nil] at hd
      simp only [hd] at h
      omega
    | cons next rest =>
      have hr : n < depth - 1 := by
        simp only at h
        omega
      exact ih ⟨next, rest, maxDepth, depth - 1, by simp [hd]⟩ hr

/-- Replace the top frame. -/
def setTop (s : CallStack) (f : Frame) : CallStack :=
  { s with top := f }

end CallStack

end Swarm
