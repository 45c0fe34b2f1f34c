import CheckedLists.Scenario.Harness
import CheckedLists.Payload

/-!
# Fixtures

Three small scenarios that build a list, work on it and destroy it. Two of them
append to the list as long as the choices allow.
-/

namespace CheckedLists

/-- A scenario by name. -/
inductive Fixture (α : Type) where
  /-- Append `data` to a list of two nodes with the value `first`, assume that every node holds
  `data`, and destroy the list. -/
  | appendToPair (first data : α)
  /-- Append `data` to a list of two nodes, overwrite every node with `value`, check that every
  node holds it, and destroy the list. -/
  | appendOverwrite (data value : α)
  /-- Link two nodes with the given values, check both values from the head on, and destroy the
  list. -/
  | twoValues (first second : α)
  deriving DecidableEq, Repr

namespace Fixture

variable {σ α : Type}

open ScenarioM

/-- Create two linked nodes and give the first one back. -/
def pair (first second : α) : ScenarioM σ α Handle := do
  let a ← lists (ArenaM.create first)
  let b ← lists (ArenaM.create second)
  lists (ArenaM.link a b)
  return a

/-- Overwrite the nodes from `place` on, at most `fuel` of them. -/
def overwriteFrom (value : α) : Nat → Option Handle → ScenarioM σ α Unit
  | _, none => return ()
  | 0, some _ => throw (.defect .endlessWalk)
  | fuel + 1, some h => do
    lists (ArenaM.set h value)
    overwriteFrom value fuel (← lists (ArenaM.read fun s => s.next h))

/-- Overwrite every node of a list. -/
def overwrite (value : α) (head : Option Handle) : ScenarioM σ α Unit := do
  overwriteFrom value (← get).harness.arena.store.live head

/-- The scenario of a fixture. -/
def scenario [DecidableEq α] [Payload α] : Fixture α → ScenarioM σ α Unit
  | appendToPair first data => do
    let a ← pair first first
    let head ← whileDrawn (fun head => some <$> lists (ArenaM.append head data)) (some a)
    assumeAll head fun _ v => v = data
    discard <| lists (ArenaM.destroy head)
  | appendOverwrite data value => do
    let a ← pair (Payload.ofInt 0) (Payload.ofInt 0)
    whileDrawn (fun _ => discard <| lists (ArenaM.append (some a) data)) ()
    overwrite value (some a)
    checkAll (some a) "every node holds the overwritten value" fun _ v => v = value
    discard <| lists (ArenaM.destroy (some a))
  | twoValues first second => do
    let a ← pair first second
    let v ← lists (ArenaM.read fun s => s.get a)
    check (v = first) "head holds the first value"
    match ← lists (ArenaM.read fun s => s.next a) with
    | none => stop (.violation ⟨"head links to a second node"⟩)
    | some b =>
      let w ← lists (ArenaM.read fun s => s.get b)
      check (w = second) "second node holds the second value"
      discard <| lists (ArenaM.destroy (some a))

end Fixture

end CheckedLists
