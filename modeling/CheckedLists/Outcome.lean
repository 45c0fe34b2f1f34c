import CheckedLists.Fault
import CheckedLists.Text.Quoted

/-!
# Stops and outcomes of scenarios

A scenario either runs to its end or stops: it is pruned by an assumption, a
check of it is violated, or a list operation faults. The outcome of a run is the
stop it ended with, or completion, or a fault that reports leaked nodes.
-/

namespace CheckedLists

/-- A failed check. -/
structure Violation where
  /-- What was checked. -/
  label : String
  deriving DecidableEq, Repr

/-- Why a scenario stops early. -/
inductive Stop where
  /-- An assumption does not hold, so the run is discarded. -/
  | pruned
  /-- A check fails. -/
  | violation (v : Violation)
  /-- A list operation is refused. -/
  | fault (f : Fault)
  deriving DecidableEq, Repr

/-- How a run ended. -/
inductive Outcome where
  /-- The scenario reached its end and released every node that it created. -/
  | completed
  /-- An assumption discarded the run. -/
  | pruned
  /-- A check failed. -/
  | violated (v : Violation)
  /-- A list operation was refused, or nodes were leaked. -/
  | fault (f : Fault)
  deriving DecidableEq, Repr

/-- The wording of a violation. -/
def Violation.message (v : Violation) : String := "invariant violated: " ++ v.label

/-- The printed form of a violation. -/
def Violation.form (v : Violation) : Form :=
  .record "Violation" [.labelled "label" (Quoted.form v.label)]

/-- The printed form of a stop. -/
def Stop.form : Stop → Form
  | .pruned => .atom "Pruned"
  | .violation v => .tuple "Violation" [v.form]
  | .fault f => .tuple "Fault" [f.form]

/-- The handle that a stop carries. -/
def Stop.handle? : Stop → Option Handle
  | .pruned | .violation _ => none
  | .fault f => f.handle?

namespace Outcome

/-- The wording of an outcome. -/
def message : Outcome → String
  | completed => "completed"
  | pruned => "pruned"
  | violated v => v.message
  | fault f => "fault: " ++ f.message

/-- The printed form of an outcome. -/
def form : Outcome → Form
  | completed => .atom "Completed"
  | pruned => .atom "Pruned"
  | violated v => .tuple "ViolationDetected" [v.form]
  | fault f => .tuple "Fault" [f.form]

end Outcome

end CheckedLists
