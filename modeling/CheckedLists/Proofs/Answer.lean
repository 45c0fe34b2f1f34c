import CheckedLists.Proofs.Stream
import CheckedLists.Proofs.Programs

/-!
# Answers are read off the choices

Whatever a scenario does between two answers, and wherever it stops or begins another
run, the answers that it draws are the next ones of its source, one after the other. They
are counted, and the source is left as so many answers leave it. On a harness that was
made with a source, any number of runs therefore reads the stream of this source off from
its beginning, without a gap and without a second reading.

The parts of a scenario begin at the stages that it goes through, so that a statement on
all parts is one on the whole course of the scenario.
-/

namespace CheckedLists

variable {σ α β γ : Type}

namespace Stage

variable {s t u : Stage σ α} {answers more : List Bool}

/-- How often the source of the harness can still answer yes. -/
abbrev budget (s : Stage σ α) : Nat := s.harness.choices.budget

/-- From one stage to a later one these answers were drawn. -/
structure Draws (s : Stage σ α) (answers : List Bool) (t : Stage σ α) : Prop where
  /-- The answers are kept behind the earlier ones. -/
  answers_eq : t.harness.answers = s.harness.answers ++ answers.toArray
  /-- The answers are counted. -/
  taken_eq : t.harness.taken = s.harness.taken + answers.length
  /-- The answers are the next ones of the source, which is left as they leave it. -/
  picks_eq : s.harness.choices.picks answers.length = (answers, t.harness.choices)

/-- Where nothing but the arena and the scope changes, no answer is drawn. -/
theorem draws_nil (hanswers : t.harness.answers = s.harness.answers)
    (htaken : t.harness.taken = s.harness.taken)
    (hchoices : t.harness.choices = s.harness.choices) : s.Draws [] t where
  answers_eq := hanswers.trans Array.append_empty.symm
  taken_eq := htaken
  picks_eq := by rw [hchoices]; rfl

theorem Draws.trans (hs : s.Draws answers t) (ht : t.Draws more u) :
    s.Draws (answers ++ more) u where
  answers_eq := by
    rw [ht.answers_eq, hs.answers_eq]
    simp
  taken_eq := by rw [ht.taken_eq, hs.taken_eq, List.length_append, Nat.add_assoc]
  picks_eq := by rw [List.length_append, Choices.picks_add, hs.picks_eq, ht.picks_eq]

/-- Notes in the journal do not matter. -/
theorem Draws.noting (hs : s.Draws answers t) (records : List Record) :
    s.Draws answers (t.noting records) :=
  ⟨hs.answers_eq, hs.taken_eq, hs.picks_eq⟩

/-- What was drawn between two stages is determined by them. -/
theorem Draws.unique (hs : s.Draws answers t) (hs' : s.Draws more t) : answers = more := by
  have hlength : answers.length = more.length := by
    have htaken := hs.taken_eq.symm.trans hs'.taken_eq
    omega
  have hpicks := hs.picks_eq
  rw [hlength, hs'.picks_eq] at hpicks
  exact (congrArg Prod.fst hpicks).symm

/-- The yeses are taken off the budget. -/
theorem Draws.budget_eq (hs : s.Draws answers t) : answers.count true + t.budget = s.budget := by
  have hbudget := Choices.budget_picks answers.length s.harness.choices
  rwa [hs.picks_eq] at hbudget

/-- The stage behind the next answer. -/
def drawn (s : Stage σ α) : Stage σ α :=
  { s with
    harness := { s.harness with
      choices := s.harness.choices.behind 1
      taken := s.harness.taken + 1
      answers := s.harness.answers.push (s.harness.choices.stream 0) } }

theorem draws_drawn (s : Stage σ α) : s.Draws [s.harness.choices.stream 0] s.drawn where
  answers_eq := Array.push_eq_append
  taken_eq := rfl
  picks_eq := Choices.picks_eq 1 _

/-- A harness has read the choices off from their beginning. -/
structure Follows (s : Stage σ α) (choices : Choices) : Prop where
  /-- All answers so far are counted. -/
  taken_eq : s.harness.taken = s.harness.answers.size
  /-- The answers are those of the stream, from the first one on. -/
  answer_eq : ∀ k < s.harness.taken, s.harness.answers[k]? = some (choices.stream k)
  /-- The source is left as so many answers leave it. -/
  choices_eq : s.harness.choices = choices.behind s.harness.taken

/-- The answers are read off the stream of the source. -/
theorem Draws.getElem?_eq (hs : s.Draws answers t) {k : Nat} (hk : k < answers.length) :
    answers[k]? = some (s.harness.choices.stream k) := by
  have hanswers := congrArg Prod.fst ((Choices.picks_eq _ _).symm.trans hs.picks_eq)
  have hsame := congrArg (·[k]?) hanswers
  simpa only [List.getElem?_map, List.getElem?_range hk, Option.map_some] using hsame.symm

/-- What is drawn from a harness that was just made is read off from the beginning. -/
theorem Draws.follows {arena : Arena α} {choices : Choices} {scope : σ}
    (hs : Draws ⟨.ofArena arena choices, scope⟩ answers t) : t.Follows choices := by
  have hanswers : t.harness.answers = answers.toArray := hs.answers_eq.trans Array.empty_append
  have htaken : t.harness.taken = answers.length := hs.taken_eq.trans (Nat.zero_add _)
  refine ⟨by rw [htaken, hanswers, List.size_toArray], fun k hk => ?_, ?_⟩
  · rw [htaken] at hk
    rw [hanswers, List.getElem?_toArray]
    exact hs.getElem?_eq hk
  · rw [htaken]
    exact congrArg Prod.snd (hs.picks_eq.symm.trans (Choices.picks_eq _ _))

end Stage

namespace ScenarioM

variable {s s₁ t : Stage σ α}

/-- A draw gives the next answer. -/
theorem draw_eq (s : Stage σ α) : draw s = .ok (s.harness.choices.stream 0) s.drawn := by
  rw [draw, Choices.pick_eq]
  rfl

theorem draw_eq_ok_iff {answer : Bool} :
    draw s = .ok answer t ↔ s.harness.choices.stream 0 = answer ∧ s.drawn = t := by
  rw [draw_eq, EStateM.Result.ok.injEq]

/-- Whatever a scenario does, and however it ends, it draws the next answers. -/
theorem Composed.exists_draws {x : ScenarioM σ α β} (hx : x.Composed) (s : Stage σ α) :
    ∃ answers, s.Draws answers (x.after s) := by
  induction hx generalizing s with
  | consult | throw => exact ⟨[], Stage.draws_nil rfl rfl rfl⟩
  | @bind _ _ x f _ _ ihx ihf =>
    obtain ⟨first, hfirst⟩ := ihx s
    rw [after_bind]
    cases hresult : x s with
    | ok b t =>
      rw [after_of_ok hresult] at hfirst
      obtain ⟨rest, hrest⟩ := ihf b t
      exact ⟨_, hfirst.trans hrest⟩
    | error e t =>
      rw [after_of_error hresult] at hfirst
      exact ⟨_, hfirst⟩
  | @tryCatch _ x f _ _ ihx ihf =>
    obtain ⟨first, hfirst⟩ := ihx s
    rw [after_tryCatch]
    cases hresult : x s with
    | ok b t =>
      rw [after_of_ok hresult] at hfirst
      exact ⟨_, hfirst⟩
    | error e t =>
      rw [after_of_error hresult] at hfirst
      obtain ⟨rest, hrest⟩ := ihf e t
      exact ⟨_, hfirst.trans hrest⟩
  | @lists _ c _ =>
    rw [after_lists]
    exact ⟨[], Stage.draws_nil rfl rfl rfl⟩
  | draw =>
    rw [after_of_ok (draw_eq s)]
    exact ⟨_, s.draws_drawn⟩
  | @nested x _ ih =>
    obtain ⟨answers, hinner⟩ := ih s
    obtain ⟨records, hafter, _⟩ := after_nested x s
    rw [hafter]
    exact ⟨answers, hinner.noting records⟩

/-- The part `y` of a scenario begins at `s₁`. Parts are computations, and a scenario that is put
together in another way has other parts: this serves for what holds of all parts, not for the
existence of one. -/
inductive Begins (y : ScenarioM σ α γ) (s₁ : Stage σ α) :
    {β : Type} → ScenarioM σ α β → Stage σ α → Prop where
  /-- The part is the scenario. -/
  | self : Begins y s₁ y s₁
  /-- The part begins in a run of another scenario. -/
  | nested {x : ScenarioM σ α Unit} {s : Stage σ α} :
      Begins y s₁ x s → Begins y s₁ (unstopped (runScenario x)) s
  /-- The part begins in the first one of a sequence. -/
  | first {β γ : Type} {x : ScenarioM σ α β} {f : β → ScenarioM σ α γ} {s : Stage σ α} :
      Begins y s₁ x s → Begins y s₁ (x >>= f) s
  /-- The part begins in the second one of a sequence. -/
  | second {β γ : Type} {x : ScenarioM σ α β} {f : β → ScenarioM σ α γ} {s t : Stage σ α} {b : β} :
      x.Composed → x s = .ok b t → Begins y s₁ (f b) t → Begins y s₁ (x >>= f) s
  /-- The part begins in one that something else may follow where it ends early. -/
  | tried {β : Type} {x : ScenarioM σ α β} {f : Abort Stop → ScenarioM σ α β} {s : Stage σ α} :
      Begins y s₁ x s → Begins y s₁ (tryCatch x f) s
  /-- The part begins in what follows where another one ended early. -/
  | caught {β : Type} {x : ScenarioM σ α β} {f : Abort Stop → ScenarioM σ α β}
      {s t : Stage σ α} {e : Abort Stop} :
      x.Composed → x s = .error e t → Begins y s₁ (f e) t → Begins y s₁ (tryCatch x f) s
  /-- The part begins in a loop that goes round. -/
  | looped {β : Type} {turn : β → ScenarioM σ α β} {b : β} {s t : Stage σ α} :
      draw s = .ok true t → Begins y s₁ (turn b >>= whileDrawn turn) t →
      Begins y s₁ (whileDrawn turn b) s

/-- Up to the beginning of a part the next answers are drawn. -/
theorem Begins.exists_draws {x : ScenarioM σ α β} {y : ScenarioM σ α γ} (hy : y.Begins s₁ x s) :
    ∃ answers, s.Draws answers s₁ := by
  induction hy with
  | self => exact ⟨[], Stage.draws_nil rfl rfl rfl⟩
  | nested _ ih | first _ ih | tried _ ih => exact ih
  | second hx hresult _ ih =>
    obtain ⟨first, hfirst⟩ := hx.exists_draws _
    rw [after_of_ok hresult] at hfirst
    obtain ⟨rest, hrest⟩ := ih
    exact ⟨_, hfirst.trans hrest⟩
  | caught hx hresult _ ih =>
    obtain ⟨first, hfirst⟩ := hx.exists_draws _
    rw [after_of_error hresult] at hfirst
    obtain ⟨rest, hrest⟩ := ih
    exact ⟨_, hfirst.trans hrest⟩
  | looped hdraw _ ih =>
    obtain ⟨_, rfl⟩ := draw_eq_ok_iff.mp hdraw
    obtain ⟨rest, hrest⟩ := ih
    exact ⟨_, (Stage.draws_drawn _).trans hrest⟩

/-- A harness that has read the choices off so far goes on with the answer that comes next in their
stream. -/
theorem draw_of_follows {choices : Choices} (hs : s.Follows choices) :
    draw s = .ok (choices.stream s.harness.taken) s.drawn := by
  rw [draw_eq, hs.choices_eq, Choices.stream_behind, Nat.add_zero]

end ScenarioM

open ScenarioM

/-- Programs that are run one after the other on one harness read the choices off. -/
theorem follows_runAll [DecidableEq α] [Payload α] (ps : List (Program α)) (arena : Arena α)
    (choices : Choices) (scope : Scope α) :
    ((unstopped (runAll ps)).after ⟨.ofArena arena choices, scope⟩).Follows choices := by
  obtain ⟨answers, hanswers⟩ := (driven_runAll ps).composed.exists_draws _
  exact hanswers.follows

/-- Whatever is made of operations, draws, stops and runs, any number of runs on one harness
included: from the making of the harness on, at the beginning of every part and in the end, the
answers so far are counted and are the first ones of the stream of the choices, and the source is
left as so many answers leave it. Every draw gives the answer that comes next in the stream. -/
theorem answers_are_read_off_the_choices {x : ScenarioM σ α β} (hx : x.Composed)
    (arena : Arena α) (choices : Choices) (scope : σ) :
    let s : Stage σ α := ⟨.ofArena arena choices, scope⟩
    (x.after s).Follows choices ∧
    (∀ (γ : Type) (y : ScenarioM σ α γ) s₁, y.Begins s₁ x s → s₁.Follows choices) ∧
    ∀ s₁, draw.Begins s₁ x s → draw s₁ = .ok (choices.stream s₁.harness.taken) s₁.drawn := by
  intro s
  have hparts {γ : Type} {y : ScenarioM σ α γ} {s₁ : Stage σ α} (hy : y.Begins s₁ x s) :
      s₁.Follows choices := by
    obtain ⟨answers, hanswers⟩ := hy.exists_draws
    exact hanswers.follows
  refine ⟨?_, fun γ y s₁ hy => hparts hy, fun s₁ hdraw => draw_of_follows (hparts hdraw)⟩
  obtain ⟨answers, hanswers⟩ := hx.exists_draws s
  exact hanswers.follows

/-- A run that is pruned at the first no behind a yes, and then one that draws up to a no. -/
def prunedThenDrawn : ScenarioM Unit Nat Outcome := do
  let _ ← unstopped (runScenario (whileDrawn (fun _ => do assume (← draw)) ()))
  unstopped (runScenario (whileDrawn (fun _ => return ()) ()))

/-- The first run takes four answers and is pruned. The second one takes the last answer of the
script, and one more behind its end. -/
theorem prunedThenDrawn_answers :
    prunedThenDrawn.Composed ∧
    let script := [true, true, true, false, true]
    let t := prunedThenDrawn.after ⟨.ofArena reusedSlot (.ofList script), ()⟩
    t.harness.taken = 6 ∧ t.harness.answers[4]? = some true ∧
      t.harness.answers[5]? = some false ∧ t.harness.choices = .script script 5 := by
  have hcomposed : prunedThenDrawn.Composed :=
    .bind (.nested (.whileDrawn (fun _ => .bind .draw fun _ => (Driven.assume _).composed) ()))
      fun _ => .nested (.whileDrawn (fun _ => .pure ()) ())
  refine ⟨hcomposed, ?_⟩
  intro script t
  have htaken : t.harness.taken = 6 := by decide +kernel
  have hend : t.Follows (.ofList script) :=
    (answers_are_read_off_the_choices hcomposed reusedSlot (.ofList script) ()).1
  clear_value t
  refine ⟨htaken, ?_, ?_, ?_⟩
  · rw [hend.answer_eq 4 (by rw [htaken]; decide), Choices.stream_ofList]
    rfl
  · rw [hend.answer_eq 5 (by rw [htaken]; decide), Choices.stream_ofList]
    rfl
  · rw [hend.choices_eq, htaken, Choices.behind_ofList]
    rfl

end CheckedLists
