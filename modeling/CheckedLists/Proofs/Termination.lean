import CheckedLists.Proofs.Answer
import Mathlib.Algebra.Order.BigOperators.Group.List
import Mathlib.Algebra.GroupWithZero.Nat
import Mathlib.Algebra.Order.Group.Nat

/-!
# Loops that are driven by answers come to an end

A loop asks before each turn, and no bound of its own says how often it goes round: its
body may draw answers, contain further loops and run other scenarios. What bounds it is
the budget of the source that they all share. No part of a scenario raises the budget, and
every turn of every loop begins with a yes, which takes one off it.

Outlines are evaluated without any bound on the turns: a loop is unrolled as long as the
answers are yes, and the turns of each loop are counted. Every outline is evaluated to
the very result that its scenario has. The turns of all its loops together are no more than
the yeses drawn, and these no more than the budget at the beginning.
-/

namespace CheckedLists

variable {σ α β γ : Type}

/-- The result of a scenario, with the stage that it leaves. -/
abbrev Ending (ε σ α β : Type) := EStateM.Result ε (Stage σ α) β

/-- The stage at an ending. -/
def Ending.stage {ε : Type} : Ending ε σ α β → Stage σ α
  | .ok _ s | .error _ s => s

namespace ScenarioM

variable {s s₁ t : Stage σ α} {x : ScenarioM σ α β} {turn : β → ScenarioM σ α β} {b : β}
  {n : Nat} {r : Ending (Abort Stop) σ α β}

theorem bind_apply (x : ScenarioM σ α β) (f : β → ScenarioM σ α γ) (s : Stage σ α) :
    (x >>= f) s = match x s with
      | .ok b t => f b t
      | .error e t => .error e t := by
  change EStateM.bind x f s = _
  unfold EStateM.bind
  cases x s <;> rfl

theorem tryCatch_apply (x : ScenarioM σ α β) (f : Abort Stop → ScenarioM σ α β)
    (s : Stage σ α) :
    (tryCatch x f) s = match x s with
      | .ok b t => .ok b t
      | .error e t => f e t := by
  change EStateM.tryCatch x f s = _
  unfold EStateM.tryCatch
  cases x s <;> rfl

/-- What a run makes of the ending of its scenario. -/
def closing (mark : Nat) : Ending (Abort Stop) σ α Unit → Ending (Abort Stop) σ α Outcome
  | .ok () t => unstopped (conclude mark (.ok ())) t
  | .error (.error stop) t => unstopped (conclude mark (.error stop)) t
  | .error (.panic p) t => .error (.panic p) t

/-- Closing a run draws no answer. -/
theorem draws_closing {mark : Nat} {answers : List Bool}
    {r : Ending (Abort Stop) σ α Unit} (hs : s.Draws answers r.stage) :
    s.Draws answers (closing mark r).stage := by
  cases r with
  | ok => exact ⟨hs.answers_eq, hs.taken_eq, hs.picks_eq⟩
  | error e => cases e <;> exact ⟨hs.answers_eq, hs.taken_eq, hs.picks_eq⟩

theorem nested_apply (x : ScenarioM σ α Unit) (s : Stage σ α) :
    unstopped (runScenario x) s = closing s.store.stats.created (x s) := by
  unfold unstopped runScenario
  cases x s with
  | ok => rfl
  | error e => cases e <;> rfl

theorem stage_apply (x : ScenarioM σ α β) (s : Stage σ α) : Ending.stage (x s) = x.after s := by
  unfold Ending.stage after
  cases x s <;> rfl

/-- A draw that answers yes takes one off the budget. -/
theorem budget_of_yes (hyes : s.harness.choices.stream 0 = true) :
    s.drawn.budget + 1 = s.budget := by
  have hbudget := s.draws_drawn.budget_eq
  rw [hyes, List.count_singleton_self] at hbudget
  omega

/-- What is made of operations does not raise the budget. -/
theorem Composed.budget_le (hx : x.Composed) (s : Stage σ α) : (x.after s).budget ≤ s.budget := by
  obtain ⟨answers, hanswers⟩ := hx.exists_draws s
  have hbudget := hanswers.budget_eq
  omega

/-- A loop ends at a no. -/
theorem drawnFrom_of_no (hno : s.harness.choices.stream 0 = false) (fuel : Nat) :
    drawnFrom turn fuel b s = .ok b s.drawn := by
  cases fuel <;> rw [drawnFrom, bind_apply, draw_eq, hno] <;> rfl

/-- A loop goes round at a yes. -/
theorem drawnFrom_of_yes (hyes : s.harness.choices.stream 0 = true) (fuel : Nat) :
    drawnFrom turn (fuel + 1) b s = (turn b >>= drawnFrom turn fuel) s.drawn := by
  rw [drawnFrom, bind_apply, draw_eq, hyes]
  rfl

/-- Two bounds on the turns of a loop that are not below the budget make no difference. -/
theorem drawnFrom_eq_of_le (hturn : ∀ b, (turn b).Composed) {fuel other : Nat}
    (hfuel : s.budget ≤ fuel) (hother : s.budget ≤ other) :
    drawnFrom turn fuel b s = drawnFrom turn other b s := by
  induction fuel generalizing other b s with
  | zero =>
    have hno := Choices.pick_of_budget_eq_zero (Nat.le_zero.mp hfuel)
    rw [Choices.pick_eq] at hno
    rw [drawnFrom_of_no hno, drawnFrom_of_no hno]
  | succ fuel ih =>
    cases hanswer : s.harness.choices.stream 0 with
    | false => rw [drawnFrom_of_no hanswer, drawnFrom_of_no hanswer]
    | true =>
      have hbudget := budget_of_yes hanswer
      obtain ⟨other, rfl⟩ := Nat.exists_eq_add_one_of_ne_zero (n := other) (by omega)
      rw [drawnFrom_of_yes hanswer, drawnFrom_of_yes hanswer, bind_apply, bind_apply]
      have hle := (hturn b).budget_le s.drawn
      cases hresult : turn b s.drawn with
      | error e t => rfl
      | ok b' t =>
        rw [after_of_ok hresult] at hle
        exact ih (by omega) (by omega)

theorem whileDrawn_of_no (hno : s.harness.choices.stream 0 = false) :
    whileDrawn turn b s = .ok b s.drawn :=
  drawnFrom_of_no hno _

/-- A loop that goes round is a turn with the same loop behind it. -/
theorem whileDrawn_of_yes (hturn : ∀ b, (turn b).Composed)
    (hyes : s.harness.choices.stream 0 = true) :
    whileDrawn turn b s = (turn b >>= whileDrawn turn) s.drawn := by
  have hbound : whileDrawn turn b s = drawnFrom turn s.budget b s := rfl
  rw [hbound, ← budget_of_yes hyes, drawnFrom_of_yes hyes, bind_apply, bind_apply]
  have hle := (hturn b).budget_le s.drawn
  cases hresult : turn b s.drawn with
  | error e t => rfl
  | ok b' t =>
    rw [after_of_ok hresult] at hle
    exact drawnFrom_eq_of_le hturn hle (Nat.le_refl _)

end ScenarioM

namespace Outline

open ScenarioM (bind_apply tryCatch_apply nested_apply stage_apply after_lists after_of_ok draw_eq
  draw_eq_ok_iff draws_closing budget_of_yes whileDrawn_of_no whileDrawn_of_yes)

variable {s : Stage σ α} {p : Outline σ α β} {turns : List Nat} {r : Ending (Abort Stop) σ α β}

/-- A loop in an outline goes round at a yes. -/
theorem scenario_whileDrawn_of_yes {turn : β → Outline σ α β} {b : β}
    (hyes : s.harness.choices.stream 0 = true) :
    (whileDrawn turn b).scenario s = match (turn b).scenario s.drawn with
      | .ok b' t => (whileDrawn turn b').scenario t
      | .error e t => .error e t := by
  rw [scenario, whileDrawn_of_yes (fun b => (turn b).driven.composed) hyes, bind_apply]
  rfl

/-- An outline is evaluated to an ending. The loops on the way are listed with the numbers of their
turns, each loop before those in its turns. A loop is unrolled turn by turn, without a bound on
their number. -/
inductive Evaluates : {β : Type} → Outline σ α β → Stage σ α → List Nat →
    Ending (Abort Stop) σ α β → Prop where
  | consult {β : Type} {g : Stage σ α → β × σ} {s : Stage σ α}
      (hg : ∀ s c, g (s.withChoices c) = g s) :
      Evaluates (.consult g hg) s [] (ScenarioM.consult g s)
  | throw {β : Type} {e : Abort Stop} {s : Stage σ α} :
      Evaluates (.throw e : Outline σ α β) s [] (.error e s)
  | lists {β : Type} {c : ArenaM α β} {s : Stage σ α} (hc : c.Operates) :
      Evaluates (.lists c hc) s [] (ScenarioM.lists c s)
  | draw {s : Stage σ α} : Evaluates .draw s [] (ScenarioM.draw s)
  /-- The second part of a sequence comes behind the first one. -/
  | bind {β γ : Type} {x : Outline σ α β} {f : β → Outline σ α γ} {s t : Stage σ α} {b : β}
      {ms ns : List Nat} {r : Ending (Abort Stop) σ α γ} :
      Evaluates x s ms (.ok b t) → Evaluates (f b) t ns r → Evaluates (x.bind f) s (ms ++ ns) r
  /-- Where the first part ends early, the sequence does. -/
  | abort {β γ : Type} {x : Outline σ α β} {f : β → Outline σ α γ} {s t : Stage σ α}
      {e : Abort Stop} {ms : List Nat} :
      Evaluates x s ms (.error e t) → Evaluates (x.bind f) s ms (.error e t)
  /-- A part that does not end early needs nothing behind it. -/
  | tried {β : Type} {x : Outline σ α β} {f : Abort Stop → Outline σ α β} {s t : Stage σ α}
      {b : β} {ms : List Nat} :
      Evaluates x s ms (.ok b t) → Evaluates (x.tryCatch f) s ms (.ok b t)
  /-- Another part goes on where the first one ends early. -/
  | caught {β : Type} {x : Outline σ α β} {f : Abort Stop → Outline σ α β}
      {s t : Stage σ α} {e : Abort Stop} {ms ns : List Nat} {r : Ending (Abort Stop) σ α β} :
      Evaluates x s ms (.error e t) → Evaluates (f e) t ns r →
      Evaluates (x.tryCatch f) s (ms ++ ns) r
  /-- A run is closed where its scenario ends. -/
  | nested {x : Outline σ α Unit} {s : Stage σ α} {ms : List Nat}
      {r : Ending (Abort Stop) σ α Unit} :
      Evaluates x s ms r →
      Evaluates x.nested s ms (ScenarioM.closing s.store.stats.created r)
  /-- A loop ends at a no. -/
  | done {β : Type} {turn : β → Outline σ α β} {b : β} {s t : Stage σ α} :
      ScenarioM.draw s = .ok false t → Evaluates (.whileDrawn turn b) s [0] (.ok b t)
  /-- At a yes a turn comes first. Where it ends early, the loop does. -/
  | quit {β : Type} {turn : β → Outline σ α β} {b : β} {s t u : Stage σ α} {e : Abort Stop}
      {ms : List Nat} :
      ScenarioM.draw s = .ok true t → Evaluates (turn b) t ms (.error e u) →
      Evaluates (.whileDrawn turn b) s (1 :: ms) (.error e u)
  /-- Otherwise the loop goes on behind it. -/
  | turn {β : Type} {turn : β → Outline σ α β} {b b' : β} {s t u : Stage σ α} {n : Nat}
      {ms ns : List Nat} {r : Ending (Abort Stop) σ α β} :
      ScenarioM.draw s = .ok true t → Evaluates (turn b) t ms (.ok b' u) →
      Evaluates (.whileDrawn turn b') u (n :: ns) r →
      Evaluates (.whileDrawn turn b) s ((n + 1) :: (ms ++ ns)) r

namespace Evaluates

/-- An outline is evaluated to no other ending than the result of its scenario. -/
theorem eq_apply (hp : p.Evaluates s turns r) : r = p.scenario s := by
  induction hp with
  | consult | throw | lists | draw => rfl
  | bind _ _ ihx ihf => rw [scenario, bind_apply, ← ihx, ihf]
  | abort _ ih => rw [scenario, bind_apply, ← ih]
  | tried _ ih => rw [scenario, tryCatch_apply, ← ih]
  | caught _ _ ihx ihf => rw [scenario, tryCatch_apply, ← ihx, ihf]
  | nested _ ih => rw [scenario, nested_apply, ← ih]
  | done hdraw =>
    obtain ⟨hno, rfl⟩ := draw_eq_ok_iff.mp hdraw
    rw [scenario, whileDrawn_of_no hno]
  | quit hdraw _ ih =>
    obtain ⟨hyes, rfl⟩ := draw_eq_ok_iff.mp hdraw
    rw [scenario_whileDrawn_of_yes hyes, ← ih]
  | turn hdraw _ _ ihturn ihloop =>
    obtain ⟨hyes, rfl⟩ := draw_eq_ok_iff.mp hdraw
    rw [scenario_whileDrawn_of_yes hyes, ← ihturn, ihloop]

/-- The turns of all loops together are no more than the yeses that are drawn. -/
theorem exists_draws (hp : p.Evaluates s turns r) :
    ∃ answers, s.Draws answers r.stage ∧ turns.sum ≤ answers.count true := by
  induction hp with
  | consult | throw => exact ⟨[], Stage.draws_nil rfl rfl rfl, Nat.le_refl 0⟩
  | @lists _ c s =>
    rw [stage_apply, after_lists]
    exact ⟨[], Stage.draws_nil rfl rfl rfl, Nat.le_refl 0⟩
  | @draw s =>
    rw [draw_eq]
    exact ⟨_, s.draws_drawn, Nat.zero_le _⟩
  | bind _ _ ihx ihf | caught _ _ ihx ihf =>
    obtain ⟨first, hfirst, hms⟩ := ihx
    obtain ⟨rest, hrest, hns⟩ := ihf
    refine ⟨_, hfirst.trans hrest, ?_⟩
    rw [List.count_append, List.sum_append]
    exact Nat.add_le_add hms hns
  | abort _ ih | tried _ ih => exact ih
  | nested _ ih =>
    obtain ⟨answers, hanswers, hms⟩ := ih
    exact ⟨answers, draws_closing hanswers, hms⟩
  | @done _ _ _ s _ hdraw =>
    obtain ⟨_, rfl⟩ := draw_eq_ok_iff.mp hdraw
    exact ⟨_, s.draws_drawn, Nat.zero_le _⟩
  | @quit _ _ _ s _ _ _ _ hdraw _ ih =>
    obtain ⟨hyes, rfl⟩ := draw_eq_ok_iff.mp hdraw
    obtain ⟨answers, hanswers, hms⟩ := ih
    refine ⟨_, s.draws_drawn.trans hanswers, ?_⟩
    rw [List.singleton_append, hyes, List.count_cons_self, List.sum_cons]
    omega
  | @turn _ _ _ _ s _ _ _ _ _ _ hdraw _ _ ihturn ihloop =>
    obtain ⟨hyes, rfl⟩ := draw_eq_ok_iff.mp hdraw
    obtain ⟨first, hfirst, hms⟩ := ihturn
    obtain ⟨rest, hrest, hns⟩ := ihloop
    refine ⟨_, s.draws_drawn.trans (hfirst.trans hrest), ?_⟩
    rw [List.sum_cons] at hns
    rw [List.singleton_append, hyes, List.count_cons_self, List.count_append, List.sum_cons,
      List.sum_append]
    omega

end Evaluates

/-- A loop whose turns are evaluated is evaluated. The budget decreases with every turn. -/
theorem exists_evaluates_whileDrawn {turn : β → Outline σ α β}
    (heval : ∀ b s, ∃ turns, (turn b).Evaluates s turns ((turn b).scenario s)) (b : β)
    (s : Stage σ α) :
    ∃ n ns, (whileDrawn turn b).Evaluates s (n :: ns) ((whileDrawn turn b).scenario s) := by
  induction hbudget : s.budget using Nat.strongRecOn generalizing b s with
  | ind k ih =>
    cases hanswer : s.harness.choices.stream 0 with
    | false =>
      rw [scenario, whileDrawn_of_no hanswer]
      exact ⟨0, [], .done (draw_eq_ok_iff.mpr ⟨hanswer, rfl⟩)⟩
    | true =>
      have hdraw : ScenarioM.draw s = .ok true s.drawn := draw_eq_ok_iff.mpr ⟨hanswer, rfl⟩
      have hless := budget_of_yes hanswer
      have hle := (turn b).driven.composed.budget_le s.drawn
      obtain ⟨ms, hms⟩ := heval b s.drawn
      rw [scenario_whileDrawn_of_yes hanswer]
      cases hresult : (turn b).scenario s.drawn with
      | error e t =>
        rw [hresult] at hms
        exact ⟨1, ms, .quit hdraw hms⟩
      | ok b' t =>
        rw [hresult] at hms
        rw [after_of_ok hresult] at hle
        obtain ⟨n, ns, hns⟩ := ih t.budget (by omega) b' t rfl
        exact ⟨n + 1, ms ++ ns, .turn hdraw hms hns⟩

/-- Every outline is evaluated in finitely many turns, to the result of its scenario. -/
theorem exists_evaluates (p : Outline σ α β) (s : Stage σ α) :
    ∃ turns, p.Evaluates s turns (p.scenario s) := by
  induction p generalizing s with
  | consult g hg => exact ⟨[], .consult hg⟩
  | throw e => exact ⟨[], .throw⟩
  | lists c hc => exact ⟨[], .lists hc⟩
  | draw => exact ⟨[], .draw⟩
  | bind x f ihx ihf =>
    obtain ⟨ms, hms⟩ := ihx s
    rw [scenario, bind_apply]
    cases hresult : x.scenario s with
    | error e t =>
      rw [hresult] at hms
      exact ⟨ms, hms.abort⟩
    | ok b t =>
      rw [hresult] at hms
      obtain ⟨ns, hns⟩ := ihf b t
      exact ⟨ms ++ ns, hms.bind hns⟩
  | tryCatch x f ihx ihf =>
    obtain ⟨ms, hms⟩ := ihx s
    rw [scenario, tryCatch_apply]
    cases hresult : x.scenario s with
    | ok b t =>
      rw [hresult] at hms
      exact ⟨ms, hms.tried⟩
    | error e t =>
      rw [hresult] at hms
      obtain ⟨ns, hns⟩ := ihf e t
      exact ⟨ms ++ ns, hms.caught hns⟩
  | whileDrawn turn b ih =>
    obtain ⟨n, ns, hns⟩ := exists_evaluates_whileDrawn ih b s
    exact ⟨n :: ns, hns⟩
  | nested x ih =>
    obtain ⟨ms, hms⟩ := ih s
    rw [scenario, nested_apply]
    exact ⟨ms, hms.nested⟩

end Outline

/-- A scenario that is driven by answers comes to an end, from whatever stage it begins and whatever
its choices are. Every such scenario has an outline, and that of a program has the loops and runs
that the program has. Evaluated without any bound on its loops, an outline has an ending after
finitely many turns, and no other one than the result of its scenario. The turns of all loops
together are no more than the yeses drawn, these together with the budget that is left are the
budget at the beginning, and no single loop has more turns than that. Nor are more yeses drawn up to
the beginning of any part of the scenario. -/
theorem loops_end_within_the_budget :
    (∀ x : ScenarioM σ α β, x.Driven → ∃ p : Outline σ α β, p.scenario = x) ∧
    (∀ (δ : Type) [DecidableEq δ] [Payload δ] (q : Program δ),
      q.outline.scenario = q.scenario) ∧
    ∀ (p : Outline σ α β) (s : Stage σ α),
      (∃ turns, p.Evaluates s turns (p.scenario s)) ∧
      (∀ turns r, p.Evaluates s turns r →
        r = p.scenario s ∧
        ∃ answers, s.Draws answers r.stage ∧ turns.sum ≤ answers.count true ∧
          answers.count true + r.stage.budget = s.budget ∧ ∀ n ∈ turns, n ≤ s.budget) ∧
      ∀ (γ : Type) (y : ScenarioM σ α γ) s₁, y.Begins s₁ p.scenario s →
        ∃ answers, s.Draws answers s₁ ∧ answers.count true ≤ s.budget := by
  refine ⟨fun x hx => hx.exists_outline, fun δ _ _ q => q.scenario_outline, fun p s =>
    ⟨p.exists_evaluates s, fun turns r hp => ⟨hp.eq_apply, ?_⟩, fun γ y s₁ hy => ?_⟩⟩
  · obtain ⟨answers, hanswers, hturns⟩ := hp.exists_draws
    have hbudget := hanswers.budget_eq
    refine ⟨answers, hanswers, hturns, hbudget, fun n hn => ?_⟩
    have hle := List.le_sum_of_mem hn
    omega
  · obtain ⟨answers, hanswers⟩ := hy.exists_draws
    have hbudget := hanswers.budget_eq
    exact ⟨answers, hanswers, by omega⟩

/-- A loop that draws up to a no. -/
def drawUp : Outline Unit Nat Unit := .whileDrawn (fun _ => .pure ()) ()

/-- A loop that runs another one in each of its turns. -/
def drawUpAgain : Outline Unit Nat Unit := .whileDrawn (fun _ => drawUp.nested.discard) ()

/-- A harness whose script lets the inner loop go round twice, then the outer loop go on and the
inner one not go round, and last has a yes that is not drawn. -/
def fourYeses : Stage Unit Nat :=
  ⟨.fresh (.ofList [true, true, true, false, true, false, false, true]), ()⟩

/-- The outer loop has two turns, the inner one two in the first of them and none in the second.
Seven answers are drawn, with a budget of five yeses at the beginning and one of them left. -/
theorem drawUpAgain_ends :
    drawUpAgain.Evaluates fourYeses [2, 2, 0] (drawUpAgain.scenario fourYeses) ∧
    (drawUpAgain.scenario.after fourYeses).harness.taken = 7 ∧
    fourYeses.budget = 5 ∧ (drawUpAgain.scenario.after fourYeses).budget = 1 := by
  obtain ⟨_, _, hends⟩ := loops_end_within_the_budget (σ := Unit) (α := Nat) (β := Unit)
  obtain ⟨_, hall, _⟩ := hends drawUpAgain fourYeses
  have hround {t u : Stage Unit Nat} {n : Nat} {r : Ending (Abort Stop) Unit Nat Unit}
      (hdraw : ScenarioM.draw t = .ok true u) (hloop : drawUp.Evaluates u [n] r) :
      drawUp.Evaluates t ((n + 1) :: ([] ++ [])) r := .turn hdraw (.consult _) hloop
  have hagain {t u v : Stage Unit Nat} {n : Nat} (ms ns : List Nat)
      {r : Ending (Abort Stop) Unit Nat Unit} (hdraw : ScenarioM.draw t = .ok true u)
      (hloop : drawUp.Evaluates u ms (.ok () v))
      (hrest : drawUpAgain.Evaluates
        (ScenarioM.closing u.store.stats.created (.ok () v)).stage (n :: ns) r) :
      drawUpAgain.Evaluates t ((n + 1) :: (ms ++ [] ++ ns)) r :=
    .turn hdraw (.bind (.nested hloop) (.consult _)) hrest
  have heval : drawUpAgain.Evaluates fourYeses [2, 2, 0] _ :=
    hagain [2] [0] rfl (hround rfl (hround rfl (.done rfl)))
      (hagain [0] [] rfl (.done rfl) (.done rfl))
  obtain ⟨hresult, _⟩ := hall _ _ heval
  exact ⟨hresult ▸ heval, by decide +kernel, rfl, by decide +kernel⟩

end CheckedLists
