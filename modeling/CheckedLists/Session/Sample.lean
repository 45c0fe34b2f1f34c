import CheckedLists.Arena.Create
import CheckedLists.Arena.Destroy

/-!
# Sample stores

A handle that is written out need not belong to any store in use. A sample store
issues it: nodes are created up to the slot of the handle, and the last one is
destroyed and created anew until the generation is reached. What the sample
store records is heard by whoever asked for the handle.
-/

namespace CheckedLists.Sample

/-- Create `before` nodes and then one more, which is given back. -/
def createBehind : (before : Nat) → ArenaM Unit Handle
  | 0 => ArenaM.create ()
  | before + 1 => do
    discard <| ArenaM.create ()
    createBehind before

/-- Destroy a node and create one in its slot, `times` times in all. -/
def renew : (times : Nat) → Handle → ArenaM Unit Handle
  | 0, h => return h
  | times + 1, h => do
    discard <| ArenaM.destroy (some h)
    renew times (← ArenaM.create ())

/-- Have a store issue the handle `h`. -/
def issue (h : Handle) : ArenaM Unit Handle := do
  renew h.generation.toNat (← createBehind h.slot)

/-- What a sample store records until it issues `h`. -/
def records (h : Handle) : Array Record :=
  match issue h (.empty .global) with
  | .ok _ a | .error _ a => a.journal

/-- What sample stores record until they issue the handle of a stop that is written out. -/
def recordsOfStop (s : Stop) : Array Record :=
  match s.handle? with
  | none => #[]
  | some h => records h

/-- The sample store issues the handle that it is asked for. -/
example : (match issue ⟨2, 3⟩ (.empty .global) with
    | .ok h _ => some h
    | .error _ _ => none) = some ⟨2, 3⟩ := by decide

end CheckedLists.Sample
