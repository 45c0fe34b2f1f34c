import CheckedLists.Scenario.Fixture
import CheckedLists.Session.Command

/-!
# Programs for scenarios

A program is a scenario as data: steps in sequence, loops and branches that are
driven by the choices, attempts whose stops are ignored, and nested runs. It
uses registers, and enters into a trace what each step did. A handle that is
written out, as an operand or in a stop, is issued by a sample store when the
step is taken.
-/

namespace CheckedLists

variable {α : Type}

/-- A step of a program. -/
inductive Step (α : Type) where
  /-- Carry a command out; a fault of it stops. -/
  | command (c : Command α)
  /-- Prune the run unless a condition holds. -/
  | assume (condition : Bool)
  /-- Report a violation unless a condition holds. -/
  | check (condition : Bool) (label : String)
  /-- Prune the run unless every value of a list passes. -/
  | assumeAll (head : Operand) (p : Nat → α → Bool)
  /-- Report a violation unless every value of a list passes. -/
  | checkAll (head : Operand) (label : String) (p : Nat → α → Bool)
  /-- Report a violation unless a node holds a value. -/
  | checkGet (h : Operand) (value : α) (label : String)
  /-- Stop. -/
  | stop (s : Stop)
  /-- Go through a fixture. -/
  | fixture (f : Fixture α)
  /-- Draw an answer. -/
  | draw
  /-- Print the harness. -/
  | describe (tall : Bool)

/-- A scenario as data. -/
inductive Program (α : Type) where
  /-- The end. -/
  | done
  /-- Take a step. -/
  | step (s : Step α) (rest : Program α)
  /-- Go through a body and ignore its stop if it has one. -/
  | attempt (body rest : Program α)
  /-- Repeat a body as long as the answer drawn before it is yes. -/
  | loop (body rest : Program α)
  /-- Draw an answer and choose one of two bodies by it. -/
  | branch (yes no rest : Program α)
  /-- Run a body as a scenario of its own. -/
  | nested (body rest : Program α)

/-- An entry in the trace of a program. -/
structure Moment (α : Type) extends Entry α where
  /-- How many answers were drawn so far. -/
  taken : Nat

/-- What a program keeps beside the harness. -/
structure Scope (α : Type) where
  /-- The registers. -/
  registers : Registers
  /-- What the steps did. -/
  trace : Array (Moment α)
  /-- How many records of the journal were noted, in the trace or elsewhere. -/
  noted : Nat

/-- No register is set and nothing was traced or recorded. -/
def Scope.empty : Scope α := ⟨.empty, #[], 0⟩

/-- A computation of a program. -/
abbrev ProgramM (α : Type) := ScenarioM (Scope α) α

namespace ProgramM

/-- Enter a response into the trace, with the records of sample stores and all that was
recorded on the harness since the entry before. -/
def note (response : Response α) (samples : Array Record) : ProgramM α Unit := modify fun s =>
  let arena := s.harness.arena
  let size := arena.journal.size
  let entry : Entry α :=
    ⟨response, arena.store.summary, samples ++ arena.journal.extract s.scope.noted size⟩
  let moment : Moment α := { toEntry := entry, taken := s.harness.taken }
  { s with scope := { s.scope with trace := s.scope.trace.push moment, noted := size } }

/-- Carry a command out. -/
def command (c : Command α) : ProgramM α (Response α × Array Record) := fun s =>
  let (response, samples, d) := c.run ⟨s.scope.registers, s.harness.arena⟩
  .ok (response, samples)
    { s with
      harness := { s.harness with arena := d.arena }
      scope := { s.scope with registers := d.registers } }

/-- Look an operand up, and go on if it is found. -/
def withOperand {β : Type} (x : Registers → Lookup β) (go : β → ProgramM α (Response α)) :
    ProgramM α (Response α × Array Record) := do
  match (x (← get).scope.registers).find with
  | (none, samples) => return (.unbound, samples)
  | (some b, samples) => return (← go b, samples)

/-- The response to a computation that may stop. -/
def settle (x : ProgramM α Unit) : ProgramM α (Response α) := fun s =>
  match x s with
  | .ok () s => .ok (.reply .done) s
  | .error (.error stop) s => .ok (.stopped stop) s
  | .error (.panic p) s => .error (.panic p) s

/-- Go through a computation and ignore its stop if it has one. -/
def attempt (x : ProgramM α Unit) : ProgramM α Unit := do
  discard <| settle x

end ProgramM

/-- The stop that a response stands for, if it stands for one. -/
def Response.stop? : Response α → Option Stop
  | .fault f => some (.fault f)
  | .stopped s => some s
  | _ => none

open ProgramM

/-- What a step answers, and the records of sample stores. -/
def Step.respond [DecidableEq α] [Payload α] :
    Step α → ProgramM α (Response α × Array Record)
  | command c => ProgramM.command c
  | assume condition => return (← settle (ScenarioM.assume condition), #[])
  | check condition label => return (← settle (ScenarioM.check condition label), #[])
  | assumeAll head p =>
    withOperand (fun r => head.list r) fun head => settle (ScenarioM.assumeAll head p)
  | checkAll head label p =>
    withOperand (fun r => head.list r) fun head => settle (ScenarioM.checkAll head label p)
  | checkGet h value label =>
    withOperand (fun r => h.node r) fun h => settle do
      let v ← ScenarioM.lists (ArenaM.read fun s => s.get h)
      ScenarioM.check (v = value) label
  | stop s => return (← settle (ScenarioM.stop s), Sample.recordsOfStop s)
  | fixture f => return (← settle f.scenario, #[])
  | draw => return (.reply (.flag (← ScenarioM.draw)), #[])
  | describe tall => return (.reply (.text ((← get).harness.form.layout tall)), #[])

/-- Take a step, enter it into the trace, and stop if it says so. -/
def Step.take [DecidableEq α] [Payload α] (s : Step α) : ProgramM α Unit := do
  let (response, samples) ← s.respond
  note response samples
  match response.stop? with
  | none => return ()
  | some why => ScenarioM.stop why

/-- The scenario that a program describes. -/
def Program.scenario [DecidableEq α] [Payload α] : Program α → ProgramM α Unit
  | done => return ()
  | step s rest => do
    s.take
    rest.scenario
  | attempt body rest => do
    ProgramM.attempt body.scenario
    rest.scenario
  | loop body rest => do
    ScenarioM.whileDrawn (fun _ => body.scenario) ()
    note (.reply (.text "end")) #[]
    rest.scenario
  | branch yes no rest => do
    let answer ← ScenarioM.draw
    note (.reply (.text (if answer then "then" else "else"))) #[]
    if answer then yes.scenario else no.scenario
    rest.scenario
  | nested body rest => do
    let outcome ← ScenarioM.unstopped (runScenario body.scenario)
    note (.ended outcome) #[]
    rest.scenario

end CheckedLists
