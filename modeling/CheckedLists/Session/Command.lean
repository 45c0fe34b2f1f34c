import CheckedLists.Arena.Operation
import CheckedLists.Session.Registers

/-!
# Commands

A command is an operation whose arguments are operands, or one of a few
questions about operands and allocators. A command whose operands cannot all be
found answers that it is unbound and leaves everything alone. The list of a
reply goes into a register if the command names one. Operands are looked up
before anything else, so the records of sample stores come first.
-/

namespace CheckedLists

variable {α : Type}

/-- A command to an arena with registers. -/
inductive Command (α : Type) where
  /-- Perform an operation, and keep the list of its reply in a register. -/
  | call (op : Op Operand Operand α) (into : Option String)
  /-- Append `count` values one after the other, up to the first one that is refused. -/
  | fill (head : Operand) (count : Nat) (value : Nat → α) (into : Option String)
  /-- Whether two operands stand for the same list. -/
  | same (a b : Operand)
  /-- How many different lists the operands stand for. -/
  | distinct (operands : List Operand)
  /-- Let the allocator grant every slot, if asked to, and tell about it. -/
  | allocator (relax : Bool)

/-- What a command answers. -/
inductive Response (α : Type) where
  /-- The command was carried out. -/
  | reply (r : Reply α)
  /-- The command was refused. -/
  | fault (f : Fault)
  /-- The command panicked. -/
  | panic (p : Panic)
  /-- An operand of the command cannot be found. -/
  | unbound
  /-- The command stops the scenario unless the stop is ignored. -/
  | stopped (s : Stop)
  /-- A nested run ended. -/
  | ended (o : Outcome)
  deriving DecidableEq, Repr

/-- The response to a computation that ended early. -/
def Response.ofAbort : Abort Fault → Response α
  | .error f => .fault f
  | .panic p => .panic p

/-- Registers and the arena that they are used with. -/
structure Desk (α : Type) where
  /-- The registers. -/
  registers : Registers
  /-- The arena. -/
  arena : Arena α

/-- A response together with the state that it leaves behind. -/
structure Entry (α : Type) where
  /-- What the command answered. -/
  response : Response α
  /-- The counters of the store afterwards. -/
  summary : Summary
  /-- What was recorded since the entry before. -/
  records : Array Record

/-- Append the values `value i`, `value (i + 1)`, … to a list. The list as it then is comes
with the reason for which a value was refused, if one was. -/
def fillFrom (value : Nat → α) :
    (count i : Nat) → Option Handle → Arena α → Option (Abort Fault) × Option Handle × Arena α
  | 0, _, head, a => (none, head, a)
  | count + 1, i, head, a =>
    match ArenaM.append head (value i) a with
    | .ok h a => fillFrom value count (i + 1) (some h) a
    | .error e a => (some e, head, a)

namespace Command

/-- Carry a command out. The records are those of sample stores. -/
def run (c : Command α) (d : Desk α) : Response α × Array Record × Desk α :=
  match c with
  | call op into =>
    match (op.resolve (Operand.list d.registers) (Operand.node d.registers)).find with
    | (none, samples) => (.unbound, samples, d)
    | (some op, samples) =>
      match op.perform d.arena with
      | .error e a => (.ofAbort e, samples, { d with arena := a })
      | .ok r a =>
        match r.list? with
        | none => (.reply r, samples, { d with arena := a })
        | some head => (.reply r, samples, ⟨d.registers.set? into head, a⟩)
  | fill head count value into =>
    match (head.list d.registers).find with
    | (none, samples) => (.unbound, samples, d)
    | (some head, samples) =>
      let (refusal, head, a) := fillFrom value count 0 head d.arena
      let d := ⟨d.registers.set? into head, a⟩
      match refusal with
      | none => (.reply (.list head), samples, d)
      | some e => (.ofAbort e, samples, d)
  | same a b =>
    match (do return (← a.list d.registers) = (← b.list d.registers) : Lookup Bool).find with
    | (none, samples) => (.unbound, samples, d)
    | (some equal, samples) => (.reply (.flag equal), samples, d)
  | distinct operands =>
    match (operands.mapM (Operand.list d.registers)).find with
    | (none, samples) => (.unbound, samples, d)
    | (some heads, samples) => (.reply (.count heads.eraseDups.length), samples, d)
  | allocator relax =>
    let a := if relax then d.arena.allocator.relax else d.arena.allocator
    (.reply (.allocator a.kind a.refusals), #[],
      { d with arena := { d.arena with allocator := a } })

/-- Carry a command out and note what it did. -/
def enter (c : Command α) : StateM (Desk α) (Entry α) := fun d =>
  let size := d.arena.journal.size
  let (response, samples, d) := c.run d
  let records := samples ++ d.arena.journal.extract size d.arena.journal.size
  (⟨response, d.arena.store.summary, records⟩, d)

/-- Carry commands out one after the other. -/
def enterAll : List (Command α) → StateM (Desk α) (List (Entry α))
  | [] => return []
  | c :: cs => return (← c.enter) :: (← enterAll cs)

end Command

end CheckedLists
