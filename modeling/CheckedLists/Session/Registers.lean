import CheckedLists.Session.Sample

/-!
# Registers

Registers keep lists under names between commands. An operand is a way to name a
list in a command: it is the empty list, the content of a register, or a handle
that is written out.
-/

namespace CheckedLists

/-- The registers that are set, in the order of their names. -/
structure Registers where
  /-- Each name with the list that it stands for. -/
  entries : List (String × Option Handle)
  deriving DecidableEq, Repr

namespace Registers

/-- No register is set. -/
def empty : Registers := ⟨[]⟩

/-- Put a name with its list in its place among the others. -/
def insert (name : String) (head : Option Handle) :
    List (String × Option Handle) → List (String × Option Handle)
  | [] => [(name, head)]
  | e :: es =>
    if name = e.1 then (name, head) :: es
    else if name < e.1 then (name, head) :: e :: es
    else e :: insert name head es

/-- Set a register. -/
def set (r : Registers) (name : String) (head : Option Handle) : Registers :=
  ⟨insert name head r.entries⟩

/-- Set a register if a name is given. -/
def set? (r : Registers) (name : Option String) (head : Option Handle) : Registers :=
  match name with
  | none => r
  | some name => r.set name head

/-- The content of a register that is set. -/
def get? (r : Registers) (name : String) : Option (Option Handle) :=
  r.entries.lookup name

end Registers

/-- A list as it is named in a command. -/
inductive Operand where
  /-- The empty list. -/
  | nothing
  /-- What a register stands for. -/
  | register (name : String)
  /-- The list at this handle. -/
  | literal (h : Handle)
  deriving DecidableEq, Repr

/-- A search for operands, which may fail, with the records of the sample stores that issued
handles for it. -/
abbrev Lookup := OptionT (StateM (Array Record))

namespace Operand

/-- The list that an operand stands for; a register has to be set. -/
def list (r : Registers) : Operand → Lookup (Option Handle)
  | nothing => return none
  | register name => OptionT.mk (pure (r.get? name))
  | literal h => do
    modify fun samples => samples ++ Sample.records h
    return some h

/-- The node that an operand stands for; the empty list has none. -/
def node (r : Registers) (o : Operand) : Lookup Handle := do
  match ← o.list r with
  | none => failure
  | some h => return h

end Operand

/-- The end of a search, and the records that it led to. -/
def Lookup.find {β : Type} (x : Lookup β) : Option β × Array Record := x.run #[]

/-- What a store tells about the handle in a register. -/
structure Finding (α : Type) where
  /-- The handle. -/
  handle : Handle
  /-- Whether it names a live node. -/
  live : Bool
  /-- The value of the node. -/
  value : Except Fault α
  /-- The successor of the node. -/
  next : Except Fault (Option Handle)

/-- Ask a store about every register. -/
def Registers.audit {α : Type} (r : Registers) (s : Store α) :
    List (String × Option (Finding α)) :=
  r.entries.map fun e => (e.1, e.2.map fun h => ⟨h, s.isLive h, s.get h, s.next h⟩)

end CheckedLists
