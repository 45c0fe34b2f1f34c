import CheckedLists.Handle

/-!
# Faults of list operations

A fault is the cause for which an operation is refused. Every cause that
concerns a node carries the handle it was refused for.
-/

namespace CheckedLists

/-- Why a list operation is refused. -/
inductive Fault where
  /-- The bound on live nodes is reached, or the allocator refuses to grow. -/
  | outOfMemory
  /-- The handle's index is beyond the slots. -/
  | invalidHandle (h : Handle)
  /-- The handle's slot does not hold the node that the handle names. -/
  | useAfterRelease (h : Handle)
  /-- The head of a list to be destroyed is not live. -/
  | doubleRelease (h : Handle)
  /-- The node has a successor. -/
  | alreadyLinked (h : Handle)
  /-- The node has a predecessor. -/
  | notHead (h : Handle)
  /-- The link would lead from the end of the list at this head back to the head. -/
  | cycle (h : Handle)
  /-- This many nodes are live where none should be. -/
  | leak (count : Nat)
  deriving DecidableEq, Repr

namespace Fault

/-- The wording of a fault. -/
def message : Fault → String
  | outOfMemory => "out of memory"
  | invalidHandle h => h.text ++ " does not belong to this store"
  | useAfterRelease h => "use of released node " ++ h.text
  | doubleRelease h => "release of already released node " ++ h.text
  | alreadyLinked h => h.text ++ " already has a successor"
  | notHead h => h.text ++ " is owned by a predecessor"
  | cycle h => "link would close a cycle through " ++ h.text
  | leak n => toString n ++ " node(s) still live"

/-- The printed form of a fault. -/
def form : Fault → Form
  | outOfMemory => .atom "OutOfMemory"
  | invalidHandle h => .tuple "InvalidPtr" [h.form]
  | useAfterRelease h => .tuple "UseAfterFree" [h.form]
  | doubleRelease h => .tuple "DoubleFree" [h.form]
  | alreadyLinked h => .tuple "AlreadyLinked" [h.form]
  | notHead h => .tuple "NotHead" [h.form]
  | cycle h => .tuple "Cycle" [h.form]
  | leak n => .tuple "Leak" [.nat n]

/-- The handle that a fault carries. -/
def handle? : Fault → Option Handle
  | outOfMemory | leak _ => none
  | invalidHandle h | useAfterRelease h | doubleRelease h | alreadyLinked h | notHead h
  | cycle h => some h

end Fault

end CheckedLists
