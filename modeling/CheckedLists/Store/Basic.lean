import CheckedLists.Fault

/-!
# Stores of linked nodes

A store is an array of slots. An occupied slot holds a node with its value and
the handle of its successor; a vacant slot holds its successor on the free list
and the generation of the next node that it will hold. Beside the slots stand
the top of the free list, the number of live nodes, the bound on it, and counts
of all nodes that were created and released.

A handle reads and writes a node only while the slot holds a node of the
handle's generation. The lemmas say which slot a write changes.
-/

namespace CheckedLists

variable {α : Type}

/-- A live node. -/
structure Node (α : Type) where
  /-- The payload. -/
  value : α
  /-- The successor. -/
  next : Option Handle
  /-- Whether some node has this one as its successor. -/
  owned : Bool
  /-- The generation of the slot. -/
  generation : UInt32
  /-- How many nodes were created before this one. -/
  serial : Nat
  deriving DecidableEq, Repr

/-- A place for a node. -/
inductive Slot (α : Type) where
  /-- The slot holds a node. -/
  | occupied (node : Node α)
  /-- The slot is on the free list, and its next node will have this generation. -/
  | vacant (nextFree : Option UInt32) (generation : UInt32)
  deriving DecidableEq, Repr

/-- Counts over the whole life of a store. -/
structure Stats where
  /-- Nodes created so far. -/
  created : Nat
  /-- Nodes released so far. -/
  released : Nat
  deriving DecidableEq, Repr

/-- The counts of a fresh store. -/
def Stats.zero : Stats := ⟨0, 0⟩

/-- The printed form of the counts. -/
def Stats.form (s : Stats) : Form :=
  .record "Stats" [.labelled "created" (.nat s.created), .labelled "released" (.nat s.released)]

/-- Slots can be numbered by 32 bits, with one number to spare. -/
def maxNodes : Nat := UInt32.size - 1

/-- Slots of nodes, their free list and their counters. -/
structure Store (α : Type) where
  /-- The slots in the order in which they were first used. -/
  slots : Array (Slot α)
  /-- The top of the free list. -/
  free : Option UInt32
  /-- The number of live nodes. -/
  live : Nat
  /-- No node is created while this many are live. -/
  limit : Nat
  /-- Counts of created and released nodes. -/
  stats : Stats
  deriving DecidableEq, Repr

/-- The counters of a store that its printed form and its listeners show. -/
structure Summary where
  /-- The number of live nodes. -/
  live : Nat
  /-- The number of slots. -/
  slots : Nat
  /-- Counts of created and released nodes. -/
  stats : Stats
  deriving DecidableEq, Repr

/-- The printed form of a store with these counters. -/
def Summary.form (s : Summary) : Form :=
  .record "Store" [.labelled "live" (.nat s.live), .labelled "slots" (.nat s.slots)]

namespace Slot

/-- The node in an occupied slot. -/
def node? : Slot α → Option (Node α)
  | occupied n => some n
  | vacant _ _ => none

end Slot

namespace Store

/-- A store without slots, under no bound of its own. -/
def empty : Store α := ⟨#[], none, 0, maxNodes, .zero⟩

/-- The counters of a store. -/
def summary (s : Store α) : Summary := ⟨s.live, s.slots.size, s.stats⟩

/-- The bound that is in force when the given one is asked for: never above `maxNodes`. -/
def boundedBy : Option Nat → Nat
  | none => maxNodes
  | some n => min n maxNodes

/-- Bound the number of live nodes; nodes beyond the bound stay live. -/
def setLimit (s : Store α) (limit : Option Nat) : Store α :=
  { s with limit := boundedBy limit }

/-- The node that a handle names, or why it names none. -/
def lookup (s : Store α) (h : Handle) : Except Fault (Node α) :=
  match s.slots[h.slot]? with
  | none => .error (.invalidHandle h)
  | some (.vacant _ _) => .error (.useAfterRelease h)
  | some (.occupied n) =>
    if n.generation = h.generation then .ok n else .error (.useAfterRelease h)

/-- Whether a handle names a live node. -/
def isLive (s : Store α) (h : Handle) : Bool := (s.lookup h).isOk

/-- Put new content into a slot. -/
def put (s : Store α) (i : Nat) (slot : Slot α) : Store α :=
  { s with slots := s.slots.setIfInBounds i slot }

/-- Change the node that a handle names. -/
def update (s : Store α) (h : Handle) (f : Node α → Node α) : Except Fault (Store α) :=
  (s.lookup h).map fun n => s.put h.slot (.occupied (f n))

/-- The successor of a node. -/
def next (s : Store α) (h : Handle) : Except Fault (Option Handle) :=
  (s.lookup h).map Node.next

/-- The payload of a node. -/
def get (s : Store α) (h : Handle) : Except Fault α :=
  (s.lookup h).map Node.value

/-- The number of live nodes among those created after the first `created` ones. -/
def liveSince (s : Store α) (created : Nat) : Nat :=
  s.slots.countP fun slot =>
    match slot with
    | .occupied n => created ≤ n.serial
    | .vacant _ _ => false

/-- A handle finds a node exactly if its slot holds a node of its generation. -/
theorem lookup_eq_ok_iff {s : Store α} {h : Handle} {n : Node α} :
    s.lookup h = .ok n ↔
      s.slots[h.slot]? = some (.occupied n) ∧ n.generation = h.generation := by
  unfold lookup
  split <;> rename_i he
  · simp [he]
  · simp [he]
  · simp only [he, Option.some.injEq, Slot.occupied.injEq]
    split <;> rename_i hg <;> simp only [Except.ok.injEq, reduceCtorEq, false_iff, not_and]
    · exact ⟨fun h => ⟨h, h ▸ hg⟩, And.left⟩
    · exact fun h => h ▸ hg

/-- A slot holds what was put into it, and the other slots what they held. -/
theorem getElem?_put (s : Store α) (i j : Nat) (slot : Slot α) :
    (s.put i slot).slots[j]? =
      if i = j then (if i < s.slots.size then some slot else none) else s.slots[j]? := by
  simp [put, Array.getElem?_setIfInBounds]

/-- Putting content into a slot makes no slot. -/
@[simp] theorem size_put (s : Store α) (i : Nat) (slot : Slot α) :
    (s.put i slot).slots.size = s.slots.size := by
  simp [put]

end Store

end CheckedLists
