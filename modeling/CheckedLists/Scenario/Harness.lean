import CheckedLists.Arena.Operation
import CheckedLists.Choices

/-!
# Scenarios on a harness

A harness is an arena with a source of choices and the answers that were drawn
from it. A scenario is a computation on a harness that may stop; it
keeps whatever else it needs in a scope of its own. Assumptions prune a scenario
and checks report a violation. A run classifies how its scenario ended, where a
scenario that reaches its end must not leave a node of its own live.
-/

namespace CheckedLists

/-- What a scenario works on. -/
structure Harness (α : Type) where
  /-- The lists. -/
  arena : Arena α
  /-- The source of answers. -/
  choices : Choices
  /-- How many answers were drawn. -/
  taken : Nat
  /-- The answers that were drawn, oldest first. -/
  answers : Array Bool
  deriving DecidableEq, Repr

namespace Harness

variable {α : Type}

/-- A harness over an arena, from which no answer was drawn. -/
def ofArena (arena : Arena α) (choices : Choices) : Harness α := ⟨arena, choices, 0, #[]⟩

/-- A harness over an arena without nodes. -/
def fresh (choices : Choices) : Harness α := ofArena (.empty .global) choices

/-- The printed form of a harness. -/
def form (h : Harness α) : Form :=
  .record "Harness"
    [.labelled "store" h.arena.store.summary.form, .labelled "taken" (.nat h.taken)]

end Harness

/-- A harness together with the scope of a scenario. -/
structure Stage (σ α : Type) where
  /-- The harness. -/
  harness : Harness α
  /-- What the scenario keeps beside it. -/
  scope : σ

/-- A computation of a scenario, which may stop or panic. -/
abbrev ScenarioM (σ α : Type) := EStateM (Abort Stop) (Stage σ α)

namespace ScenarioM

variable {σ α β : Type}

/-- Perform an operation on the arena. A fault of it stops the scenario. -/
def lists (x : ArenaM α β) : ScenarioM σ α β := fun s =>
  match x s.harness.arena with
  | .ok b a => .ok b { s with harness := { s.harness with arena := a } }
  | .error e a => .error (e.map .fault) { s with harness := { s.harness with arena := a } }

/-- Stop. -/
def stop (s : Stop) : ScenarioM σ α β := throw (.error s)

/-- Draw an answer. -/
def draw : ScenarioM σ α Bool := fun s =>
  let (answer, behind) := s.harness.choices.pick
  let h := s.harness
  let h := { h with choices := behind, taken := h.taken + 1, answers := h.answers.push answer }
  .ok answer { s with harness := h }

/-- Prune the run unless a condition holds. -/
def assume (condition : Bool) : ScenarioM σ α Unit :=
  if condition then return () else stop .pruned

/-- Report a violation unless a condition holds. -/
def check (condition : Bool) (label : String) : ScenarioM σ α Unit :=
  if condition then return () else stop (.violation ⟨label⟩)

/-- Whether every value of a list passes; `p n` answers the question number `n`. -/
def all (head : Option Handle) (p : Nat → α → Bool) : ScenarioM σ α Bool := do
  let s ← get
  match s.harness.arena.store.all head (numbered p) 0 with
  | .ok holds _ => return holds
  | .error e _ => throw (e.map .fault)

/-- Prune the run unless every value of a list passes. -/
def assumeAll (head : Option Handle) (p : Nat → α → Bool) : ScenarioM σ α Unit := do
  assume (← all head p)

/-- Report a violation unless every value of a list passes. -/
def checkAll (head : Option Handle) (label : String) (p : Nat → α → Bool) :
    ScenarioM σ α Unit := do
  check (← all head p) label

/-- Turn after turn, draw an answer and go on if it is yes, at most `fuel` times. -/
def drawnFrom (turn : β → ScenarioM σ α β) : Nat → β → ScenarioM σ α β
  | fuel, b => do
    if ← draw then
      match fuel with
      | 0 => throw (.defect .endlessChoice)
      | fuel + 1 => drawnFrom turn fuel (← turn b)
    else
      return b

/-- Repeat a turn as long as the answer drawn before it is yes. The budget of the choices
bounds the number of turns. -/
def whileDrawn (turn : β → ScenarioM σ α β) (b : β) : ScenarioM σ α β := do
  drawnFrom turn (← get).harness.choices.budget b

/-- Use a computation that does not stop in a scenario. -/
def unstopped (x : EStateM Panic (Stage σ α) β) : ScenarioM σ α β := fun s =>
  match x s with
  | .ok b s => .ok b s
  | .error p s => .error (.panic p) s

end ScenarioM

/-- The outcome of a scenario that left `leaked` of its nodes live, with what is recorded
beside it. -/
def Outcome.classify (leaked : Nat) : Except Stop Unit → Outcome × Array Record
  | .ok () => if leaked = 0 then (.completed, #[]) else (.fault (.leak leaked), #[.leaked leaked])
  | .error .pruned => (.pruned, #[])
  | .error (.violation v) => (.violated v, #[])
  | .error (.fault f) => (.fault f, #[.faulted f])

/-- Classify how a scenario ended that began when `mark` nodes had been created, and record
the outcome. -/
def conclude {σ α : Type} (mark : Nat) (ending : Except Stop Unit) :
    EStateM Panic (Stage σ α) Outcome := fun s =>
  let arena := s.harness.arena
  let (outcome, findings) := Outcome.classify (arena.store.liveSince mark) ending
  let journal := (arena.journal ++ findings).push (.ended outcome s.harness.taken)
  .ok outcome { s with harness := { s.harness with arena := { arena with journal := journal } } }

/-- Run a scenario and classify how it ended. -/
def runScenario {σ α : Type} (scenario : ScenarioM σ α Unit) :
    EStateM Panic (Stage σ α) Outcome := fun s =>
  let mark := s.harness.arena.store.stats.created
  match scenario s with
  | .ok () s => conclude mark (.ok ()) s
  | .error (.error stop) s => conclude mark (.error stop) s
  | .error (.panic p) s => .error p s

end CheckedLists
