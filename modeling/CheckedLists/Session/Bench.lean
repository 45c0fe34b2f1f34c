import CheckedLists.Session.Command

/-!
# Benches

A bench has several arenas side by side and one set of registers, so that a
handle of one store can be shown to another one.
-/

namespace CheckedLists

variable {α : Type} {n : Nat}

/-- `n` arenas that share their registers. -/
structure Bench (n : Nat) (α : Type) where
  /-- The registers. -/
  registers : Registers
  /-- The arenas. -/
  arenas : Vector (Arena α) n

namespace Bench

/-- The given arenas side by side, with no register set. -/
def ofList (arenas : List (Arena α)) : Bench arenas.length α :=
  ⟨.empty, ⟨arenas.toArray, by simp⟩⟩

/-- Carry a command out on one of the arenas and note what it did. -/
def enter (i : Fin n) (c : Command α) : StateM (Bench n α) (Entry α) := fun b =>
  let (entry, d) := c.enter ⟨b.registers, b.arenas[i]⟩
  (entry, ⟨d.registers, b.arenas.set i d.arena⟩)

/-- Carry commands out one after the other. -/
def enterAll : List (Fin n × Command α) → StateM (Bench n α) (List (Entry α))
  | [] => return []
  | c :: cs => return (← enter c.1 c.2) :: (← enterAll cs)

/-- Ask every store about every register. -/
def audit (b : Bench n α) : List (List (String × Option (Finding α))) :=
  b.arenas.toList.map fun a => b.registers.audit a.store

end Bench

end CheckedLists
