import CheckedLists.Store.Basic
import CheckedLists.Abort

/-!
# Walks along lists

Walks follow the links of a store from a node to its successors. As many nodes
may be visited as are live; a walk that wants more has met a cycle or a node
twice, and ends with a defect. Each walk reads the store once a node and keeps
nothing but its place.

A cursor is the place of a walk over the values of a list. It is checked once,
when it is put on the head; a link that leads nowhere afterwards is a defect.
-/

namespace CheckedLists

variable {α σ : Type}

namespace Store

/-- The last node of the list from `h` on, at most `fuel` links away. -/
def lastFrom (s : Store α) : Nat → Handle → Except (Abort Fault) Handle
  | fuel, h =>
    match s.lookup h with
    | .error f => .error (.error f)
    | .ok n =>
      match n.next, fuel with
      | none, _ => .ok h
      | some _, 0 => .error (.defect .endlessWalk)
      | some q, fuel + 1 => s.lastFrom fuel q

/-- The last node of the list from `h` on. -/
def last (s : Store α) (h : Handle) : Except (Abort Fault) Handle :=
  s.lastFrom s.live h

/-- Whether `target` is among the next `fuel` nodes from `place` on. -/
def reachesFrom (s : Store α) (target : Handle) :
    Nat → Option Handle → Except (Abort Fault) Bool
  | _, none => .ok false
  | 0, some _ => .error (.defect .endlessWalk)
  | fuel + 1, some q =>
    if q = target then .ok true
    else
      match s.lookup q with
      | .error f => .error (.error f)
      | .ok n => s.reachesFrom target fuel n.next

/-- Whether `target` is `h` or comes behind it in its list. -/
def reaches (s : Store α) (h target : Handle) : Except (Abort Fault) Bool :=
  s.reachesFrom target s.live (some h)

end Store

/-- A place in a list. -/
structure Cursor where
  /-- The node whose value comes next. -/
  next : Option Handle
  deriving DecidableEq, Repr

/-- The printed form of a cursor. -/
def Cursor.form (c : Cursor) : Form :=
  .tuple "Iter" [.optional (c.next.map Handle.form)]

namespace Store

/-- A cursor on the head of a list. -/
def cursor (s : Store α) : Option Handle → Except Fault Cursor
  | none => .ok ⟨none⟩
  | some h => (s.lookup h).map fun _ => ⟨some h⟩

/-- The value at a cursor, if the list has not ended, and the place behind it. -/
def advance (s : Store α) (c : Cursor) : Except (Abort Fault) (Option α × Cursor) :=
  match c.next with
  | none => .ok (none, c)
  | some h =>
    match s.lookup h with
    | .error _ => .error (.defect .danglingLink)
    | .ok n => .ok (some n.value, ⟨n.next⟩)

/-- The first `steps` answers of a cursor, each with the place behind it. -/
def advances (s : Store α) : Nat → Cursor → Except (Abort Fault) (List (Option α × Cursor))
  | 0, _ => .ok []
  | steps + 1, c => do
    let step ← s.advance c
    let rest ← s.advances steps step.2
    return step :: rest

/-- Count the values from a cursor on. -/
def countFrom (s : Store α) : Nat → Cursor → Except (Abort Fault) Nat
  | fuel, c => do
    match ← s.advance c with
    | (none, _) => return 0
    | (some _, behind) =>
      match fuel with
      | 0 => throw (.defect .endlessWalk)
      | fuel + 1 => return (← s.countFrom fuel behind) + 1

/-- Collect the values from a cursor on. -/
def collectFrom (s : Store α) : Nat → Cursor → Except (Abort Fault) (List α)
  | fuel, c => do
    match ← s.advance c with
    | (none, _) => return []
    | (some v, behind) =>
      match fuel with
      | 0 => throw (.defect .endlessWalk)
      | fuel + 1 => return v :: (← s.collectFrom fuel behind)

/-- Ask `p` about the values from a cursor on, up to the first one that it denies. -/
def allFrom (s : Store α) (p : α → StateM σ Bool) :
    Nat → Cursor → EStateM (Abort Fault) σ Bool
  | fuel, c => do
    match s.advance c with
    | .error e => throw e
    | .ok (none, _) => return true
    | .ok (some v, behind) =>
      let holds ← modifyGet (p v)
      if holds then
        match fuel with
        | 0 => throw (.defect .endlessWalk)
        | fuel + 1 => s.allFrom p fuel behind
      else
        return false

/-- The error side of a lookup as the error side of a walk. -/
def checked {β : Type} : Except Fault β → Except (Abort Fault) β :=
  Except.mapError .error

/-- The number of nodes of a list. -/
def length (s : Store α) (head : Option Handle) : Except (Abort Fault) Nat := do
  s.countFrom s.live (← checked (s.cursor head))

/-- The values of a list in link order. -/
def values (s : Store α) (head : Option Handle) : Except (Abort Fault) (List α) := do
  s.collectFrom s.live (← checked (s.cursor head))

/-- A cursor on the head of a list together with its first `steps` answers. -/
def iterate (s : Store α) (head : Option Handle) (steps : Nat) :
    Except (Abort Fault) (Cursor × List (Option α × Cursor)) := do
  let start ← checked (s.cursor head)
  return (start, ← s.advances steps start)

/-- Whether `p` holds of every value of a list; `p` may keep a state of its own. -/
def all (s : Store α) (head : Option Handle) (p : α → StateM σ Bool) :
    EStateM (Abort Fault) σ Bool :=
  match s.cursor head with
  | .error f => throw (.error f)
  | .ok c => s.allFrom p s.live c

end Store

end CheckedLists
