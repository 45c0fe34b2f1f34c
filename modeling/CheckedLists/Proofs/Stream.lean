import CheckedLists.Choices

/-!
# Streams of answers

A source of choices stands for an endless stream of answers: so many yeses, or a script
from a position on, and nothing but noes behind them. Asking the source reads this stream
off, and what is left of the source depends only on how often it was asked. The budget of
a source is used up by the yeses among the answers.
-/

namespace CheckedLists.Choices

/-- The answer that a source gives behind `k` others. -/
def stream : Choices → Nat → Bool
  | count left, k => decide (k < left)
  | script answers position, k => answers.getD (position + k) false

/-- What is left of a source behind `d` answers. -/
def behind : Choices → Nat → Choices
  | count left, d => count (left - min left d)
  | script answers position, d => script answers (position + min d (answers.length - position))

/-- A source of so many yeses gives them first. -/
theorem stream_count (left k : Nat) : (count left).stream k = decide (k < left) := rfl

/-- A script is read off from its beginning, and noes follow. -/
theorem stream_ofList (answers : List Bool) (k : Nat) :
    (ofList answers).stream k = answers.getD k false := by
  rw [ofList, stream, Nat.zero_add]

/-- The position in a script stays at its end. -/
theorem behind_ofList (answers : List Bool) (d : Nat) :
    (ofList answers).behind d = script answers (min d answers.length) := by
  rw [ofList, behind, Nat.zero_add, Nat.sub_zero]

@[simp] theorem behind_zero (c : Choices) : c.behind 0 = c := by
  cases c <;> simp [behind]

theorem behind_behind (c : Choices) (d e : Nat) : (c.behind d).behind e = c.behind (d + e) := by
  cases c with
  | count left =>
    simp only [behind, count.injEq]
    omega
  | script answers position =>
    simp only [behind, script.injEq, true_and]
    omega

/-- What is left of a source gives the same stream, less the answers before. -/
theorem stream_behind (c : Choices) (d k : Nat) : (c.behind d).stream k = c.stream (d + k) := by
  cases c with
  | count left =>
    simp only [behind, stream, decide_eq_decide]
    omega
  | script answers position =>
    simp only [behind, stream]
    by_cases hd : d ≤ answers.length - position
    · rw [Nat.min_eq_left hd, Nat.add_assoc]
    · -- Both places are behind the end of the script.
      simp only [List.getD_eq_getElem?_getD]
      rw [List.getElem?_eq_none (by omega), List.getElem?_eq_none (by omega)]

/-- A source answers with the first answer of its stream. -/
theorem pick_eq (c : Choices) : c.pick = (c.stream 0, c.behind 1) := by
  cases c with
  | count left => cases left <;> simp [pick, stream, behind]
  | script answers position =>
    rw [pick, stream, behind, List.getD_eq_getElem?_getD, Nat.add_zero]
    cases h : answers[position]? with
    | none =>
      have hle := List.getElem?_eq_none_iff.mp h
      simp [Nat.sub_eq_zero_of_le hle]
    | some b =>
      have hlt := (List.getElem?_eq_some_iff.mp h).choose
      simp only [Option.getD_some, Prod.mk.injEq, script.injEq, true_and]
      omega

/-- The next answers are the first ones of the stream. -/
theorem picks_eq (n : Nat) (c : Choices) :
    c.picks n = ((List.range n).map c.stream, c.behind n) := by
  induction n generalizing c with
  | zero => rw [picks, behind_zero]; rfl
  | succ n ih =>
    rw [picks, ih, pick_eq]
    simp only [behind_behind, List.range_succ_eq_map, List.map_cons, List.map_map]
    rw [Nat.add_comm 1 n]
    congr 2
    refine List.map_congr_left fun k _ => ?_
    rw [stream_behind, Function.comp_apply, Nat.add_comm]

/-- Where two streams are the same, the answers are. -/
theorem picks_congr {c d : Choices} {n : Nat} (hsame : ∀ k < n, c.stream k = d.stream k) :
    (c.picks n).1 = (d.picks n).1 := by
  rw [picks_eq, picks_eq]
  exact List.map_congr_left fun k hk => hsame k (List.mem_range.mp hk)

/-- Answers that are asked for later come behind. -/
theorem picks_add (m n : Nat) (c : Choices) :
    c.picks (m + n) =
      ((c.picks m).1 ++ ((c.picks m).2.picks n).1, ((c.picks m).2.picks n).2) := by
  induction m generalizing c with
  | zero => rw [Nat.zero_add]; rfl
  | succ m ih =>
    rw [Nat.add_right_comm, picks, ih]
    rfl

/-- The budget is used up by the yeses. -/
theorem budget_picks (n : Nat) (c : Choices) :
    (c.picks n).1.count true + (c.picks n).2.budget = c.budget := by
  induction n generalizing c with
  | zero => rw [picks, List.count_nil, Nat.zero_add]
  | succ n ih =>
    have hfirst := c.budget_pick
    have hrest := ih c.pick.2
    simp only [picks, List.count_cons, beq_true]
    omega

/-- How many yeses a source answers before its next no. -/
def yeses : Choices → Nat
  | count left => left
  | script answers position => ((answers.drop position).takeWhile id).length

/-- The leading yeses of a list are followed by a no, or by the end of the list. -/
theorem getD_takeWhile (answers : List Bool) :
    (∀ i < (answers.takeWhile id).length, answers.getD i false = true) ∧
      answers.getD (answers.takeWhile id).length false = false := by
  induction answers with
  | nil => exact ⟨nofun, rfl⟩
  | cons b answers ih =>
    cases b with
    | false => exact ⟨nofun, rfl⟩
    | true =>
      refine ⟨fun i hi => ?_, ih.2⟩
      cases i with
      | zero => rfl
      | succ i => exact ih.1 i (Nat.lt_of_succ_lt_succ hi)

theorem stream_script (answers : List Bool) (position k : Nat) :
    (script answers position).stream k = (answers.drop position).getD k false := by
  rw [stream, List.getD_eq_getElem?_getD, List.getD_eq_getElem?_getD, List.getElem?_drop]

/-- A source answers so many yeses, and then a no. -/
theorem stream_yeses (c : Choices) :
    (∀ k < c.yeses, c.stream k = true) ∧ c.stream c.yeses = false := by
  cases c with
  | count left => exact ⟨fun k hk => decide_eq_true hk, decide_eq_false (Nat.lt_irrefl left)⟩
  | script answers position =>
    simp only [stream_script]
    exact getD_takeWhile (answers.drop position)

end CheckedLists.Choices
