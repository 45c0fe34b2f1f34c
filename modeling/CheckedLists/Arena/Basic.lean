import CheckedLists.Store.Walk
import CheckedLists.Journal
import CheckedLists.Arena.Allocator

/-!
# Arenas

An arena is a store together with the allocator that grants its slots and the
journal of what was done to it. Operations are state transformers over an arena:
one that ends early leaves the arena as it stood at that step, so that a refused
operation can be shown to have changed nothing.
-/

namespace CheckedLists

/-- A store, its allocator and its history. -/
structure Arena (α : Type) where
  /-- The nodes. -/
  store : Store α
  /-- Where further slots come from. -/
  allocator : Allocator
  /-- What was done, oldest first. -/
  journal : Array Record
  deriving DecidableEq, Repr

/-- An arena without nodes. -/
def Arena.empty {α : Type} (allocator : Allocator) : Arena α := ⟨.empty, allocator, #[]⟩

/-- A computation that changes an arena and may be refused or panic on the way. -/
abbrev ArenaM (α : Type) := EStateM (Abort Fault) (Arena α)

namespace ArenaM

variable {α β : Type}

/-- The store as it stands. -/
def store : ArenaM α (Store α) := do return (← get).store

/-- Change the store. -/
def modifyStore (f : Store α → Store α) : ArenaM α Unit :=
  modify fun a => { a with store := f a.store }

/-- Write a record into the journal. -/
def emit (r : Record) : ArenaM α Unit :=
  modify fun a => { a with journal := a.journal.push r }

/-- End with a fault. -/
def refuse (f : Fault) : ArenaM α β := throw (.error f)

/-- End with a defect. -/
def defect (d : Defect) : ArenaM α β := throw (.defect d)

/-- End early if a condition holds. -/
def abortIf (c : Prop) [Decidable c] (e : Abort Fault) : ArenaM α Unit :=
  if c then throw e else return ()

/-- Ask the allocator for one more slot. -/
def reserve : ArenaM α Unit := fun a =>
  if a.allocator.grants a.store.slots.size then .ok () a
  else .error (.error .outOfMemory) { a with allocator := a.allocator.refuse }

/-- Read something off the store that may not be there. -/
def read (f : Store α → Except Fault β) : ArenaM α β := do
  match f (← store) with
  | .ok b => return b
  | .error e => refuse e

/-- Walk along a list of the store. -/
def walk (f : Store α → Except (Abort Fault) β) : ArenaM α β := do
  match f (← store) with
  | .ok b => return b
  | .error e => throw e

/-- Change the node that a handle names. -/
def update (h : Handle) (f : Node α → Node α) : ArenaM α Unit := do
  let s ← read fun s => s.update h f
  modifyStore fun _ => s

/-- Panic where the operation would be refused. -/
def orPanic (x : ArenaM α β) : ArenaM α β := fun a =>
  match x a with
  | .error (.error f) a => .error (.panic (.refused f)) a
  | r => r

/-- A sequence ends early where its first part does, and else goes on from there. -/
theorem bind_apply {γ : Type} (x : ArenaM α β) (f : β → ArenaM α γ) (a : Arena α) :
    (x >>= f) a = match x a with
      | .ok b a => f b a
      | .error e a => .error e a := by
  change EStateM.bind x f a = _
  unfold EStateM.bind
  cases x a <;> rfl

@[simp] theorem pure_apply (b : β) (a : Arena α) : (pure b : ArenaM α β) a = .ok b a := rfl

@[simp] theorem store_apply (a : Arena α) : store a = .ok a.store a := rfl

@[simp] theorem modifyStore_apply (f : Store α → Store α) (a : Arena α) :
    modifyStore f a = .ok () { a with store := f a.store } := rfl

@[simp] theorem emit_apply (r : Record) (a : Arena α) :
    emit r a = .ok () { a with journal := a.journal.push r } := rfl

@[simp] theorem refuse_apply (f : Fault) (a : Arena α) :
    (refuse f : ArenaM α β) a = .error (.error f) a := rfl

@[simp] theorem defect_apply (d : Defect) (a : Arena α) :
    (defect d : ArenaM α β) a = .error (.defect d) a := rfl

/-- An abort leaves the arena as it is. -/
theorem abortIf_apply (c : Prop) [Decidable c] (e : Abort Fault) (a : Arena α) :
    abortIf c e a = if c then .error e a else .ok () a := by
  unfold abortIf
  split <;> rfl

/-- Reading leaves the arena as it is, whether or not it finds anything. -/
theorem read_apply (f : Store α → Except Fault β) (a : Arena α) :
    read f a = match f a.store with
      | .ok b => .ok b a
      | .error e => .error (.error e) a := by
  rw [read, bind_apply, store_apply]
  cases h : f a.store <;> simp [h]

/-- Walking leaves the arena as it is, whether or not it comes to an end. -/
theorem walk_apply (f : Store α → Except (Abort Fault) β) (a : Arena α) :
    walk f a = match f a.store with
      | .ok b => .ok b a
      | .error e => .error e a := by
  rw [walk, bind_apply, store_apply]
  cases h : f a.store with
  | ok b => simp [h]
  | error e => simp [h]; rfl

/-- An update of a node that is not there is refused and changes nothing. -/
theorem update_apply (h : Handle) (f : Node α → Node α) (a : Arena α) :
    update h f a = match a.store.update h f with
      | .ok s => .ok () { a with store := s }
      | .error e => .error (.error e) a := by
  rw [update, bind_apply, read_apply]
  cases a.store.update h f <;> simp

end ArenaM

end CheckedLists
