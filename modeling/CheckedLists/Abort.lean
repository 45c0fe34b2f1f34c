import CheckedLists.Fault

/-!
# Aborted computations

A computation over a store ends early with an error that its caller can handle,
or with a panic. A panic is either a refusal by an operation that has no error
result, or a defect: the store is not in a state that its operations leave.
-/

namespace CheckedLists

/-- A broken invariant of a store, named by the step that met it. -/
inductive Defect where
  /-- The top of the free list is a slot that holds a node. -/
  | occupiedOnFreeList
  /-- The last node of a list is gone after the creation of its successor. -/
  | tailVanished
  /-- A node is gone right after its creation. -/
  | nodeVanished
  /-- A list in destruction leads to a slot that holds no node. -/
  | releasedVacant
  /-- A list leads to a node that is not live. -/
  | danglingLink
  /-- A slot is addressed beyond the slots. -/
  | slotOutOfBounds
  /-- A node is released while no node is counted as live. -/
  | liveUnderflow
  /-- A walk visits more nodes than are live. -/
  | endlessWalk
  /-- A source of choices answers true more often than it is able to. -/
  | endlessChoice
  deriving DecidableEq, Repr

/-- The wording of a defect. -/
def Defect.message : Defect → String
  | occupiedOnFreeList => "occupied slot on the free list"
  | tailVanished => "tail vanished"
  | nodeVanished => "new node vanished"
  | releasedVacant => "released a vacant slot"
  | danglingLink => "dangling link"
  | slotOutOfBounds => "slot out of bounds"
  | liveUnderflow => "released more nodes than were live"
  | endlessWalk => "endless walk"
  | endlessChoice => "endless choice"

/-- A failure that no caller handles. -/
inductive Panic where
  /-- An operation without an error result is refused. -/
  | refused (f : Fault)
  /-- An invariant is broken. -/
  | defect (d : Defect)
  deriving DecidableEq, Repr

/-- The wording of a panic. -/
def Panic.message : Panic → String
  | refused f => "oxlist: " ++ f.message
  | defect d => "internal error: entered unreachable code: oxlist: " ++ d.message

/-- Why a computation ends early, where `ε` is what its caller handles. -/
inductive Abort (ε : Type) where
  /-- The computation fails. -/
  | error (e : ε)
  /-- The computation panics. -/
  | panic (p : Panic)
  deriving DecidableEq, Repr

/-- The abort with which a broken invariant ends a computation. -/
def Abort.defect {ε : Type} (d : Defect) : Abort ε := .panic (.defect d)

/-- The same abort for a caller that handles errors of another type. -/
def Abort.map {ε δ : Type} (f : ε → δ) : Abort ε → Abort δ
  | .error e => .error (f e)
  | .panic p => .panic p

end CheckedLists
