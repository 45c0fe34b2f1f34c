import CheckedLists.Scenario.Explore
import CheckedLists.Scenario.Program

/-!
# Reports on programs

A report tells how the run of a program ended and what its steps did. Programs
are run one after the other on one harness, or each on fresh ones; in an
exploration, what a run recorded behind its last step is reported with the first
step that follows in a later run.
-/

namespace CheckedLists

variable {α : Type}

/-- How the run of a program went. -/
structure Report (α : Type) where
  /-- How the run ended. -/
  outcome : Outcome
  /-- What the steps did. -/
  trace : List (Moment α)
  /-- What was recorded behind the last entry of the trace. -/
  records : Array Record
  /-- How many answers had been drawn at the end. -/
  taken : Nat
  /-- The printed form of the harness at the end. -/
  harness : Form

/-- Report on a run from what it left behind. -/
def Report.of (outcome : Outcome) (s : Stage (Scope α) α) : Report α where
  outcome := outcome
  trace := s.scope.trace.toList
  records := s.harness.arena.journal.extract s.scope.noted s.harness.arena.journal.size
  taken := s.harness.taken
  harness := s.harness.form

/-- Forget the trace and take all records as noted, as each run begins. -/
def Stage.clear (s : Stage (Scope α) α) : Stage (Scope α) α :=
  { s with scope := ⟨s.scope.registers, #[], s.harness.arena.journal.size⟩ }

/-- Run programs one after the other on one harness. -/
def runAll [DecidableEq α] [Payload α] :
    List (Program α) → EStateM Panic (Stage (Scope α) α) (List (Report α))
  | [] => return []
  | p :: ps => do
    modify Stage.clear
    let outcome ← runScenario p.scenario
    let report := Report.of outcome (← get)
    return report :: (← runAll ps)

/-- Commands before and after a series of runs on the arena that they use. -/
structure Rehearsal (α : Type) where
  /-- The arena to begin with. -/
  arena : Arena α
  /-- Commands before the runs. -/
  setup : List (Command α)
  /-- The choices for all the runs. -/
  choices : Choices
  /-- The scenarios to be run. -/
  runs : List (Program α)
  /-- Commands after the runs. -/
  after : List (Command α)

/-- How a rehearsal went. -/
structure Minutes (α : Type) where
  /-- What the commands before the runs did. -/
  setup : List (Entry α)
  /-- How the runs went. -/
  runs : List (Report α)
  /-- What the commands after the runs did. -/
  after : List (Entry α)
  /-- What the store tells about the registers at the end. -/
  audit : List (String × Option (Finding α))

/-- Hold a rehearsal. -/
def Rehearsal.hold [DecidableEq α] [Payload α] (r : Rehearsal α) : Except Panic (Minutes α) :=
  let (setup, desk) := Command.enterAll r.setup ⟨.empty, r.arena⟩
  let stage : Stage (Scope α) α := ⟨.ofArena desk.arena r.choices, ⟨desk.registers, #[], 0⟩⟩
  match runAll r.runs stage with
  | .error p _ => .error p
  | .ok reports stage =>
    let (after, desk) := Command.enterAll r.after ⟨stage.scope.registers, stage.harness.arena⟩
    .ok ⟨setup, reports, after, desk.registers.audit desk.arena.store⟩

/-- Run a program once on a fresh harness. -/
def Program.report [DecidableEq α] [Payload α] (p : Program α) (choices : Choices) :
    Except Panic (Report α) :=
  (trial choices .empty p.scenario).map fun t => .of t.outcome t.stage

/-- Move the records behind the last step of each report to the first step that follows in a
later report. Records that no step follows come last. -/
def carryRecords : Array Record → List (Nat × Report α) → List (Nat × Report α) × Array Record
  | pending, [] => ([], pending)
  | pending, (n, r) :: rest =>
    match r.trace with
    | [] =>
      let (rest, behind) := carryRecords (pending ++ r.records) rest
      ((n, { r with records := #[] }) :: rest, behind)
    | m :: ms =>
      let (rest, behind) := carryRecords r.records rest
      let trace := { m with records := pending ++ m.records } :: ms
      ((n, { r with trace := trace, records := #[] }) :: rest, behind)

/-- Report on the exploration of a program, with the records that no step follows. -/
def Program.explore [DecidableEq α] [Payload α] (p : Program α) (lo hi : Nat) :
    Except Panic (List (Nat × Report α) × Array Record) := do
  let trials ← CheckedLists.explore lo hi .empty p.scenario
  return carryRecords #[] (trials.map fun t => (t.1, .of t.2.outcome t.2.stage))

end CheckedLists
