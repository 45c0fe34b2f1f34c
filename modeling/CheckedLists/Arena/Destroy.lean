import CheckedLists.Arena.Basic

/-!
# Destroying lists

A list is destroyed from its head to its end. Each node is replaced by a vacant
slot of the next generation on top of the free list, and its successor is read
off before.
-/

namespace CheckedLists.ArenaM

variable {α : Type}

/-- Release a live node and give back its successor. -/
def release (h : Handle) : ArenaM α (Option Handle) := do
  let s ← store
  match s.slots[h.slot]? with
  | none => defect .slotOutOfBounds
  | some slot =>
    modifyStore fun s => s.put h.slot (.vacant s.free (h.generation + 1))
    match slot with
    | .vacant _ _ => defect .releasedVacant
    | .occupied n =>
      modifyStore fun s => { s with free := some h.index }
      abortIf (s.live = 0) (.defect .liveUnderflow)
      modifyStore fun s =>
        { s with
          live := s.live - 1
          stats := { s.stats with released := s.stats.released + 1 } }
      emit (.released h)
      return n.next

/-- Release the nodes from `place` on, at most `fuel` of them, and count them. -/
def releaseFrom : Nat → Option Handle → ArenaM α Nat
  | _, none => return 0
  | 0, some _ => defect .endlessWalk
  | fuel + 1, some h => do
    let behind ← release h
    return (← releaseFrom fuel behind) + 1

/-- The fault for which a list is not destroyed when looking its head up fails. -/
def destroyFault : Fault → Fault
  | .useAfterRelease h => .doubleRelease h
  | f => f

/-- Release every node of a list and count them. -/
def destroy (head : Option Handle) : ArenaM α Nat := do
  match head with
  | none => return 0
  | some head =>
    let s ← store
    match s.lookup head with
    | .error f => refuse (destroyFault f)
    | .ok n =>
      abortIf n.owned (.error (.notHead head))
      let count ← releaseFrom s.live (some head)
      emit (.destroyed count head)
      return count

end CheckedLists.ArenaM
