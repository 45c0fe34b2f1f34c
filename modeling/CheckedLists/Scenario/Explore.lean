import CheckedLists.Scenario.Harness

/-!
# Single runs and explorations

A scenario is run on a fresh harness, once or once for every number of yeses in
a range.
-/

namespace CheckedLists

variable {σ α : Type}

/-- A run on a fresh harness. -/
structure Trial (σ α : Type) where
  /-- How the run ended. -/
  outcome : Outcome
  /-- What it left behind. -/
  stage : Stage σ α

/-- Run a scenario once on a fresh harness. -/
def trial (choices : Choices) (scope : σ) (scenario : ScenarioM σ α Unit) :
    Except Panic (Trial σ α) :=
  match runScenario scenario ⟨.fresh choices, scope⟩ with
  | .ok outcome stage => .ok ⟨outcome, stage⟩
  | .error p _ => .error p

/-- Run a scenario once for every count from `lo` to `hi`, each time on a fresh harness whose
choices answer yes that many times. -/
def explore (lo hi : Nat) (scope : σ) (scenario : ScenarioM σ α Unit) :
    Except Panic (List (Nat × Trial σ α)) :=
  (List.range' lo (hi + 1 - lo)).mapM fun n => do
    return (n, ← trial (.count n) scope scenario)

end CheckedLists
