import Std.Data.HashSet
import Swarm.Random.Stream

/-!
# Agents and agent sets

Agents are referred to by kind and number. A job runs over an agent set: a list of agents of one
kind, visited as listed if the set is ordered and in a shuffled order otherwise.

## Main definitions

* `AgentKind`, `AgentRef`, `AgentSet`
* `AgentSet.ofAgent`: the set of one agent
* `AgentSet.insert?`: growing a set agent by agent
* `AgentSet.visitOrder`: the order in which a job visits the set
* `PerKind`: one value for each kind
-/

namespace Swarm

open Swarm.Random (Stream)

/-- The kinds of simulated entities. -/
inductive AgentKind where
  | observer
  | turtle
  | patch
  | link
deriving Repr, DecidableEq, Hashable, Inhabited

namespace AgentKind

/-- All kinds, the observer first. -/
def all : List AgentKind := [.observer, .turtle, .patch, .link]

/-- The name of a kind. -/
def name : AgentKind → String
  | observer => "observer"
  | turtle => "turtle"
  | patch => "patch"
  | link => "link"

/-- The name of a set of the kind. -/
def plural : AgentKind → String
  | observer => "observer"
  | turtle => "turtles"
  | patch => "patches"
  | link => "links"

/-- The kind with a given name. -/
def ofName? (s : String) : Option AgentKind :=
  all.find? fun kind => kind.name == s

end AgentKind

/-- A reference to an agent of the world; the agent need not exist. -/
structure AgentRef where
  kind : AgentKind
  id : Nat
deriving Repr, DecidableEq, Hashable, Inhabited

namespace AgentRef

/-- The one observer. -/
def observer : AgentRef := ⟨.observer, 0⟩

/-- The turtle with a number. -/
def turtle (id : Nat) : AgentRef := ⟨.turtle, id⟩

/-- The patch with a number. -/
def patch (id : Nat) : AgentRef := ⟨.patch, id⟩

/-- The link with a number. -/
def link (id : Nat) : AgentRef := ⟨.link, id⟩

/-- The text of a reference. The observer has no number. -/
def text (a : AgentRef) : String :=
  match a.kind with
  | .observer => "observer"
  | kind => kind.name ++ " " ++ toString a.id

end AgentRef

/-- Agents a job runs over. -/
structure AgentSet where
  kind : AgentKind
  agents : List AgentRef
  /-- Whether the listed order is the order of visit. -/
  ordered : Bool
deriving Repr, DecidableEq, Inhabited

namespace AgentSet

/-- The unordered set without agents. -/
def empty (kind : AgentKind) : AgentSet := ⟨kind, [], false⟩

/-- The set of exactly one agent. -/
def ofAgent (a : AgentRef) : AgentSet := ⟨a.kind, [a], true⟩

/-- Number of entries. -/
def size (s : AgentSet) : Nat := s.agents.length

/-- Add an agent at the end; `none` if its kind is another one or it is already a member. -/
def insert? (s : AgentSet) (a : AgentRef) : Option AgentSet :=
  if a.kind = s.kind ∧ ¬ a ∈ s.agents then some { s with agents := s.agents ++ [a] } else none

/-- The agents of a kind that were not seen before, each once. -/
def newcomers (kind : AgentKind) (seen : Std.HashSet AgentRef) : List AgentRef → List AgentRef
  | [] => []
  | a :: rest =>
    if a.kind = kind ∧ ¬ a ∈ seen then a :: newcomers kind (seen.insert a) rest
    else newcomers kind seen rest

/-- Add, in order, those of the agents that can be added. -/
def insertAll (s : AgentSet) (agents : List AgentRef) : AgentSet :=
  { s with agents := s.agents ++ newcomers s.kind (.ofList s.agents) agents }

theorem append_newcomers (agents : List AgentRef) :
    ∀ (s : AgentSet) (seen : Std.HashSet AgentRef), (∀ a, a ∈ seen ↔ a ∈ s.agents) →
      { s with agents := s.agents ++ newcomers s.kind seen agents } =
        agents.foldl (fun s a => (s.insert? a).getD s) s := by
  induction agents with
  | nil =>
    intro s seen _
    simp [newcomers]
  | cons a rest ih =>
    intro s seen hseen
    rw [List.foldl_cons, newcomers, insert?]
    have hnew : a.kind = s.kind ∧ a ∉ seen ↔ a.kind = s.kind ∧ a ∉ s.agents := by rw [hseen]
    by_cases fresh : a.kind = s.kind ∧ a ∉ s.agents
    · have hseen' : ∀ b, b ∈ seen.insert a ↔ b ∈ s.agents ++ [a] := by
        intro b
        rw [Std.HashSet.mem_insert, beq_iff_eq, hseen, List.mem_append, List.mem_singleton,
          or_comm, eq_comm]
      rw [if_pos (hnew.2 fresh), if_pos fresh, Option.getD_some,
        ← ih { s with agents := s.agents ++ [a] } _ hseen', List.append_assoc]
      rfl
    · rw [if_neg (mt hnew.1 fresh), if_neg fresh, Option.getD_none, ← ih s seen hseen]

/-- The set of those that were seen only saves time: agents are added one by one. -/
theorem insertAll_eq_foldl (s : AgentSet) (agents : List AgentRef) :
    s.insertAll agents = agents.foldl (fun s a => (s.insert? a).getD s) s :=
  append_newcomers agents s _ fun a => by simp [Std.HashSet.mem_ofList]

/-- The order a job visits the set in. Ordered sets, and sets of fewer than two entries, draw
nothing. -/
def visitOrder (s : AgentSet) (r : Stream) : List AgentRef × Stream :=
  if !s.ordered && 1 < s.agents.length then r.shuffle s.agents else (s.agents, r)

/-- The text of a set: its size and kind. -/
def text (s : AgentSet) : String :=
  "(agentset, " ++ toString s.size ++ " " ++ s.kind.plural ++ ")"

end AgentSet

/-- One value for each kind of agent. -/
structure PerKind (α : Type) where
  observer : α
  turtle : α
  patch : α
  link : α

namespace PerKind

variable {α : Type}

/-- The value of a kind. -/
def get (p : PerKind α) : AgentKind → α
  | .observer => p.observer
  | .turtle => p.turtle
  | .patch => p.patch
  | .link => p.link

/-- Apply a function to the value of a kind. -/
def modify (p : PerKind α) (kind : AgentKind) (f : α → α) : PerKind α :=
  match kind with
  | .observer => { p with observer := f p.observer }
  | .turtle => { p with turtle := f p.turtle }
  | .patch => { p with patch := f p.patch }
  | .link => { p with link := f p.link }

@[simp]
theorem get_modify_self (p : PerKind α) (kind : AgentKind) (f : α → α) :
    (p.modify kind f).get kind = f (p.get kind) := by
  cases kind <;> rfl

theorem get_modify_of_ne (p : PerKind α) {kind other : AgentKind} (f : α → α)
    (h : other ≠ kind) : (p.modify kind f).get other = p.get other := by
  cases kind <;> cases other <;> simp_all [modify, get]

end PerKind

end Swarm
