/-!
# Allocators

An allocator grants the slots of a store one by one. It is asked only when no
free slot is left, and nothing is ever given back to it.
-/

namespace CheckedLists

/-- Where the slots of a store come from. -/
inductive Allocator where
  /-- The memory of the process, which grants every slot. -/
  | global
  /-- A growing region, which grants every slot. -/
  | bump
  /-- A region with `capacity` slots. It grants no slot beyond them unless it is `relaxed`,
  and counts the slots that it refused. -/
  | fixed (capacity : Nat) (relaxed : Bool) (refused : Nat)
  deriving DecidableEq, Repr

namespace Allocator

/-- Whether a store of `slots` slots is granted one more. -/
def grants (slots : Nat) : Allocator → Bool
  | global | bump => true
  | fixed capacity relaxed _ => relaxed || decide (slots < capacity)

/-- Count a refused slot. -/
def refuse : Allocator → Allocator
  | global => global
  | bump => bump
  | fixed capacity relaxed refused => fixed capacity relaxed (refused + 1)

/-- Let the allocator grant every slot from now on. -/
def relax : Allocator → Allocator
  | global => global
  | bump => bump
  | fixed capacity _ refused => fixed capacity true refused

/-- How many slots were refused. -/
def refusals : Allocator → Nat
  | global | bump => 0
  | fixed _ _ refused => refused

/-- The name of the kind of allocator. -/
def kind : Allocator → String
  | global => "global"
  | bump => "bump"
  | fixed _ _ _ => "fixed"

end Allocator

end CheckedLists
