import CheckedLists.Arena.Basic

/-!
# Linking lists

A link puts the list at `b` behind the last node `a` of another list. Three
guards keep the lists disjoint and finite: `a` has no successor, `b` has no
predecessor, and `a` is not on the list at `b`.
-/

namespace CheckedLists.ArenaM

variable {α : Type}

/-- Make `b` the successor of `a`. -/
def link (a b : Handle) : ArenaM α Unit := do
  let first ← read fun s => s.lookup a
  abortIf first.next.isSome (.error (.alreadyLinked a))
  let second ← read fun s => s.lookup b
  abortIf second.owned (.error (.notHead b))
  let closed ← walk fun s => s.reaches b a
  abortIf closed (.error (.cycle b))
  update a fun n => { n with next := some b }
  update b fun n => { n with owned := true }
  emit (.linked a b)

/-- Replace the value of a node. -/
def set (h : Handle) (value : α) : ArenaM α Unit :=
  update h fun n => { n with value := value }

/-- Change the value of a node in place and give the new value back. -/
def amend (h : Handle) (f : α → α) : ArenaM α α := do
  let n ← read fun s => s.lookup h
  modifyStore fun s => s.put h.slot (.occupied { n with value := f n.value })
  return f n.value

end CheckedLists.ArenaM
