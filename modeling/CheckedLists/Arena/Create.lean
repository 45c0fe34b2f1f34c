import CheckedLists.Arena.Basic

/-!
# Creating nodes

A new node takes the slot on top of the free list, or a new slot if none is free.
Appending finds the last node first, so that a bad head creates nothing.
-/

namespace CheckedLists.ArenaM

variable {α : Type}

/-- A node that neither has a successor nor is one. -/
def freshNode (value : α) (generation : UInt32) (serial : Nat) : Node α :=
  ⟨value, none, false, generation, serial⟩

/-- Put a new node into the free slot `i` and take the slot off the free list. -/
def reuseSlot (i : UInt32) (value : α) : ArenaM α Handle := do
  let s ← store
  match s.slots[i.toNat]? with
  | none => defect .slotOutOfBounds
  | some (.occupied _) => defect .occupiedOnFreeList
  | some (.vacant nextFree generation) =>
    modifyStore fun s =>
      { s.put i.toNat (.occupied (freshNode value generation s.stats.created)) with
        free := nextFree }
    return ⟨i, generation⟩

/-- Put a new node into a new slot behind the others, if it can be numbered and is granted. -/
def growSlot (value : α) : ArenaM α Handle := do
  let s ← store
  abortIf (maxNodes ≤ s.slots.size) (.error .outOfMemory)
  reserve
  modifyStore fun s =>
    { s with slots := s.slots.push (.occupied (freshNode value 0 s.stats.created)) }
  return ⟨s.slots.size.toUInt32, 0⟩

/-- Put a new node into the slot on top of the free list, or into a new one. -/
def fillSlot (value : α) : Option UInt32 → ArenaM α Handle
  | some i => reuseSlot i value
  | none => growSlot value

/-- Create a node with this value and without links. -/
def create (value : α) : ArenaM α Handle := do
  let s ← store
  abortIf (s.limit ≤ s.live) (.error .outOfMemory)
  let h ← fillSlot value s.free
  modifyStore fun s =>
    { s with live := s.live + 1, stats := { s.stats with created := s.stats.created + 1 } }
  emit (.created h)
  return h

/-- Name the defect by which a write to a node that must be there fails. -/
def orDefect {β : Type} (d : Defect) (x : ArenaM α β) : ArenaM α β := fun a =>
  match x a with
  | .error (.error _) a => .error (.defect d) a
  | r => r

/-- Create a node with this value behind the last node of a list. The list starts at `head`
as before, or at the new node if it was empty. -/
def append (head : Option Handle) (value : α) : ArenaM α Handle := do
  match head with
  | none => create value
  | some head =>
    let last ← walk fun s => s.last head
    let h ← create value
    orDefect .tailVanished (update last fun n => { n with next := some h })
    orDefect .nodeVanished (update h fun n => { n with owned := true })
    emit (.appended h last)
    return head

end CheckedLists.ArenaM
