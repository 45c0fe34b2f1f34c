import CheckedLists.Text.Form

/-!
# Sources of choices

A source answers yes or no each time it is asked. It answers yes a number of
times, or replays a script; afterwards it answers no for ever, so that every
loop that asks before each turn comes to an end.
-/

namespace CheckedLists

/-- A source of answers. -/
inductive Choices where
  /-- Yes as many times as are left. -/
  | count (left : Nat)
  /-- The answers of a script from a position on. -/
  | script (answers : List Bool) (position : Nat)
  deriving DecidableEq, Repr

namespace Choices

/-- The source that never answers yes. -/
def never : Choices := count 0

/-- The source that replays the given answers. -/
def ofList (answers : List Bool) : Choices := script answers 0

/-- The next answer, and the source that gives those behind it. -/
def pick : Choices → Bool × Choices
  | count 0 => (false, count 0)
  | count (left + 1) => (true, count left)
  | script answers position =>
    match answers[position]? with
    | none => (false, script answers position)
    | some b => (b, script answers (position + 1))

/-- The next `n` answers, and the source that gives those behind them. -/
def picks : Nat → Choices → List Bool × Choices
  | 0, c => ([], c)
  | n + 1, c =>
    let first := c.pick
    let rest := picks n first.2
    (first.1 :: rest.1, rest.2)

/-- How often a source can still answer yes. -/
def budget : Choices → Nat
  | count left => left
  | script answers position => (answers.drop position).count true

/-- The printed form of a source. -/
def form (c : Choices) : Form :=
  .tuple "Choices" [
    match c with
    | count left => .tuple "Repeat" [.nat left]
    | script answers position => .tuple "Script" [.sequence (answers.map .bool), .nat position]]

/-- A yes is taken off the budget, and a no leaves it as it is. -/
theorem budget_pick (c : Choices) :
    c.pick.2.budget + (if c.pick.1 then 1 else 0) = c.budget := by
  cases c with
  | count left => cases left <;> simp [pick, budget]
  | script answers position =>
    cases h : answers[position]? with
    | none => simp [pick, h]
    | some b =>
      obtain ⟨hlt, rfl⟩ := List.getElem?_eq_some_iff.mp h
      simp only [pick, h, budget]
      rw [List.drop_eq_getElem_cons hlt, List.count_cons]
      simp

/-- A source without budget answers no. -/
theorem pick_of_budget_eq_zero {c : Choices} (h : c.budget = 0) : c.pick.1 = false := by
  have := c.budget_pick
  cases hb : c.pick.1 <;> simp_all

end Choices

end CheckedLists
