import CheckedLists.Outcome

/-!
# The journal

Operations and runs record what they did. The journal keeps every record in
order; a listener chooses the level from which records are passed on to it.
-/

namespace CheckedLists

/-- How much a record matters, the most urgent level first. -/
inductive Level where
  | error
  | warn
  | info
  | debug
  | trace
  deriving DecidableEq, Repr

namespace Level

/-- The place of a level, counted from the most urgent one. -/
def rank : Level → Nat
  | error => 0
  | warn => 1
  | info => 2
  | debug => 3
  | trace => 4

/-- The name of a level. -/
def name : Level → String
  | error => "ERROR"
  | warn => "WARN"
  | info => "INFO"
  | debug => "DEBUG"
  | trace => "TRACE"

end Level

/-- What an operation or a run did. -/
inductive Record where
  /-- A node was created. -/
  | created (h : Handle)
  /-- A new node was put behind the last node of a list. -/
  | appended (h last : Handle)
  /-- A node was given a successor. -/
  | linked (a b : Handle)
  /-- A node was released. -/
  | released (h : Handle)
  /-- A list of `count` nodes was destroyed. -/
  | destroyed (count : Nat) (head : Handle)
  /-- A scenario reached its end with `count` of its nodes live. -/
  | leaked (count : Nat)
  /-- A scenario stopped with a fault. -/
  | faulted (f : Fault)
  /-- A run ended after `taken` answers in all. -/
  | ended (outcome : Outcome) (taken : Nat)
  deriving DecidableEq, Repr

namespace Record

/-- The level of a record: single steps, then summaries, then findings. -/
def level : Record → Level
  | created _ | appended _ _ | linked _ _ | released _ => .trace
  | destroyed _ _ | ended _ _ => .debug
  | leaked _ | faulted _ => .warn

/-- What a record reports. -/
def report : Record → String
  | created h => "create " ++ h.text
  | appended h last => "append " ++ h.text ++ " after " ++ last.text
  | linked a b => "link " ++ a.text ++ " -> " ++ b.text
  | released h => "release " ++ h.text
  | destroyed n h => "destroyed " ++ toString n ++ " node(s) from " ++ h.text
  | leaked n => "scenario leaked " ++ toString n ++ " node(s)"
  | faulted f => "scenario faulted: " ++ f.message
  | ended o n => "scenario " ++ o.message ++ " after " ++ toString n ++ " choice(s)"

/-- The line that a record is written as. -/
def line (r : Record) : String := r.level.name ++ " oxlist: " ++ r.report

end Record

/-- The records that a listener at level `max` is passed. -/
def audible (max : Level) (records : Array Record) : Array Record :=
  records.filter fun r => r.level.rank ≤ max.rank

end CheckedLists
