import CheckedLists.Arena.Create
import CheckedLists.Arena.Link
import CheckedLists.Arena.Destroy

/-!
# Operations as data

Everything that can be asked of an arena is an operation, and performing it
answers with a reply, a fault or a panic. Operations are data so that histories
of a store can be written down, performed and reasoned about. The argument `μ`
stands for a list, which may be empty, and `η` for a node.
-/

namespace CheckedLists

/-- An operation on an arena. -/
inductive Op (μ η α : Type) where
  /-- Create a node. -/
  | create (value : α)
  /-- Create a node and panic if that is refused. -/
  | createOrPanic (value : α)
  /-- Append a node to a list. -/
  | append (head : μ) (value : α)
  /-- Append a node to a list and panic if that is refused. -/
  | appendOrPanic (head : μ) (value : α)
  /-- Release every node of a list. -/
  | destroy (head : μ)
  /-- Make `b` the successor of `a`. -/
  | link (a b : η)
  /-- Read the successor of a node. -/
  | next (h : η)
  /-- Read the value of a node. -/
  | get (h : η)
  /-- Replace the value of a node. -/
  | set (h : η) (value : α)
  /-- Change the value of a node in place. -/
  | amend (h : η) (f : α → α)
  /-- Step a cursor over a list. -/
  | iterate (head : μ) (steps : Nat)
  /-- Ask about every value of a list; `p n` answers the question number `n`. -/
  | all (head : μ) (p : Nat → α → Bool)
  /-- Count the nodes of a list. -/
  | length (head : μ)
  /-- Collect the values of a list. -/
  | values (head : μ)
  /-- Whether a handle names a live node. -/
  | isLive (h : η)
  /-- The number of live nodes. -/
  | live
  /-- The counts of created and released nodes. -/
  | stats
  /-- The number of live nodes among those created after the first `created` ones. -/
  | liveSince (created : Nat)
  /-- The bound on live nodes. -/
  | limit
  /-- Bound the number of live nodes, or remove the bound. -/
  | setLimit (limit : Option Nat)
  /-- Print the store. -/
  | describe (tall : Bool)

/-- What an operation answers. -/
inductive Reply (α : Type) where
  /-- The operation was carried out and has nothing to say. -/
  | done
  /-- A node. -/
  | node (h : Handle)
  /-- A list, which may be empty. -/
  | list (head : Option Handle)
  /-- A number. -/
  | count (n : Nat)
  /-- A truth value. -/
  | flag (b : Bool)
  /-- A value of a node. -/
  | value (v : α)
  /-- The values of a list. -/
  | values (vs : List α)
  /-- A fresh cursor and its answers, each with the place behind it. -/
  | steps (start : Cursor) (answers : List (Option α × Cursor))
  /-- Whether all values passed, and how many were asked about. -/
  | verdict (holds : Bool) (asked : Nat)
  /-- Counts of created and released nodes. -/
  | stats (s : Stats)
  /-- A text. -/
  | text (t : String)
  /-- A kind of allocator and the slots that it refused. -/
  | allocator (kind : String) (refused : Nat)
  deriving DecidableEq, Repr

/-- The list or node of a reply, if it has one. -/
def Reply.list? {α : Type} : Reply α → Option (Option Handle)
  | .node h => some (some h)
  | .list head => some head
  | _ => none

/-- A question that is asked about one value after the other, with the number of questions
asked as its state. -/
def numbered {α : Type} (p : Nat → α → Bool) (v : α) : StateM Nat Bool :=
  fun asked => (p asked v, asked + 1)

namespace Op

variable {μ η α μ' η' : Type}

/-- Look the arguments of an operation up, one after the other. -/
def resolve {m : Type → Type} [Monad m] (list : μ → m μ') (node : η → m η') :
    Op μ η α → m (Op μ' η' α)
  | create v => return create v
  | createOrPanic v => return createOrPanic v
  | append l v => return append (← list l) v
  | appendOrPanic l v => return appendOrPanic (← list l) v
  | destroy l => return destroy (← list l)
  | link a b => return link (← node a) (← node b)
  | next h => return next (← node h)
  | get h => return get (← node h)
  | set h v => return set (← node h) v
  | amend h f => return amend (← node h) f
  | iterate l n => return iterate (← list l) n
  | all l p => return all (← list l) p
  | length l => return length (← list l)
  | values l => return values (← list l)
  | isLive h => return isLive (← node h)
  | live => return live
  | stats => return stats
  | liveSince n => return liveSince n
  | limit => return limit
  | setLimit n => return setLimit n
  | describe t => return describe t

/-- Perform an operation. -/
def perform : Op (Option Handle) Handle α → ArenaM α (Reply α)
  | create v => .node <$> ArenaM.create v
  | createOrPanic v => .node <$> ArenaM.orPanic (ArenaM.create v)
  | append head v => .node <$> ArenaM.append head v
  | appendOrPanic head v => .node <$> ArenaM.orPanic (ArenaM.append head v)
  | destroy head => .count <$> ArenaM.destroy head
  | link a b => (fun _ => .done) <$> ArenaM.link a b
  | next h => .list <$> ArenaM.read fun s => s.next h
  | get h => .value <$> ArenaM.read fun s => s.get h
  | set h v => (fun _ => .done) <$> ArenaM.set h v
  | amend h f => .value <$> ArenaM.amend h f
  | iterate head n => (fun w => .steps w.1 w.2) <$> ArenaM.walk fun s => s.iterate head n
  | all head p => do
    match (← ArenaM.store).all head (numbered p) 0 with
    | .ok holds asked => return .verdict holds asked
    | .error e _ => throw e
  | length head => .count <$> ArenaM.walk fun s => s.length head
  | values head => .values <$> ArenaM.walk fun s => s.values head
  | isLive h => do return .flag ((← ArenaM.store).isLive h)
  | live => do return .count (← ArenaM.store).live
  | stats => do return .stats (← ArenaM.store).stats
  | liveSince n => do return .count ((← ArenaM.store).liveSince n)
  | limit => do return .count (← ArenaM.store).limit
  | setLimit n => do
    ArenaM.modifyStore fun s => s.setLimit n
    return .count (← ArenaM.store).limit
  | describe t => do return .text ((← ArenaM.store).summary.form.layout t)

end Op

end CheckedLists
