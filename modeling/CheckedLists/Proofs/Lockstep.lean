import CheckedLists.Proofs.Termination
import CheckedLists.Scenario.Explore

/-!
# Runs in lockstep

Two sources that give the same answers for as long as a scenario draws cannot be told
apart by it, be one a count and the other a script. The run with the one goes in lockstep
with the run with the other, through all loops, stops and inner runs, and leaves the same
stage but for what is left of the source.

A scenario that draws no answer behind a no sees no more of a source than how many yeses
come before its first no. Running it once for every count therefore shows what it does
with any source.
-/

namespace CheckedLists

variable {σ α β γ : Type}

namespace Choices

variable {c d : Choices} {first rest : List Bool}

/-- What a source answers in two parts. -/
theorem picks_append (hc : c.picks (first ++ rest).length = (first ++ rest, d)) :
    ∃ e, c.picks first.length = (first, e) ∧ e.picks rest.length = (rest, d) := by
  rw [List.length_append, picks_add, Prod.mk.injEq] at hc
  obtain ⟨hanswers, hd⟩ := hc
  have hlength (n : Nat) (c : Choices) : (c.picks n).1.length = n := by
    rw [picks_eq, List.length_map, List.length_range]
  obtain ⟨hfirst, hrest⟩ := List.append_inj hanswers (hlength _ _)
  exact ⟨_, Prod.ext hfirst rfl, Prod.ext hrest hd⟩

/-- What a source answers when it is asked once. -/
theorem picks_singleton {answer : Bool} (hc : c.picks [answer].length = ([answer], d)) :
    c.stream 0 = answer ∧ c.behind 1 = d := by
  rw [List.length_singleton, picks_eq] at hc
  simpa using hc

end Choices

/-- The same ending, but for the source of choices at its stage. -/
def Ending.withChoices {ε : Type} (c : Choices) : Ending ε σ α β → Ending ε σ α β
  | .ok b s => .ok b (s.withChoices c)
  | .error e s => .error e (s.withChoices c)

namespace ScenarioM

variable {s t : Stage σ α} {c d : Choices} {answers : List Bool} {mark : Nat}

/-- What a scenario sees of its stage does not depend on the source. -/
theorem consult_withChoices {g : Stage σ α → β × σ} (hg : ∀ s c, g (s.withChoices c) = g s)
    (s : Stage σ α) (c : Choices) :
    consult g (s.withChoices c) = Ending.withChoices c (consult g s) := by
  unfold consult
  rw [hg]
  rfl

/-- What a scenario performs does not depend on the source. -/
theorem lists_withChoices (a : ArenaM α β) (s : Stage σ α) (c : Choices) :
    lists a (s.withChoices c) = Ending.withChoices c (lists a s) := by
  have harena : (s.withChoices c).harness.arena = s.harness.arena := rfl
  unfold lists
  rw [harena]
  cases a s.harness.arena <;> rfl

/-- Where the two sources give the same answer, a draw with the other source goes the same way. -/
theorem draw_withChoices (hc : c.stream 0 = s.harness.choices.stream 0) :
    draw (s.withChoices c) =
      .ok (s.harness.choices.stream 0) (s.drawn.withChoices (c.behind 1)) := by
  have hanswer : (s.withChoices c).harness.choices.stream 0 = s.harness.choices.stream 0 := hc
  have hdrawn : (s.withChoices c).drawn = s.drawn.withChoices (c.behind 1) := by
    unfold Stage.drawn
    rw [hanswer]
    rfl
  rw [draw_eq, hanswer, hdrawn]

/-- A run is closed in the same way, whatever is left of the source. -/
theorem closing_withChoices (r : Ending (Abort Stop) σ α Unit) :
    (closing mark r).withChoices c = closing mark (r.withChoices c) := by
  cases r with
  | ok => rfl
  | error e => cases e <;> rfl

/-- Where no answer is drawn, the source is left as it is. -/
theorem eq_of_draws_nil (hnone : s.Draws [] t) (hs : s.Draws answers t)
    (hc : c.picks answers.length = (answers, d)) : c = d := by
  obtain rfl := hnone.unique hs
  exact congrArg Prod.snd hc

/-- A source that gives the answers drawn on two ways one behind the other gives those of the
first way and then those of the second one. -/
theorem exists_picks {first rest : List Bool} {t u : Stage σ α} (hfirst : s.Draws first t)
    (hrest : t.Draws rest u) (hs : s.Draws answers u)
    (hc : c.picks answers.length = (answers, d)) :
    ∃ e, c.picks first.length = (first, e) ∧ e.picks rest.length = (rest, d) := by
  obtain rfl := (hfirst.trans hrest).unique hs
  exact Choices.picks_append hc

end ScenarioM

namespace Outline

open ScenarioM (draw_eq draw_eq_ok_iff stage_apply after_lists draws_closing closing_withChoices
  consult_withChoices lists_withChoices draw_withChoices eq_of_draws_nil exists_picks)

variable {s : Stage σ α} {p : Outline σ α β} {turns : List Nat} {r : Ending (Abort Stop) σ α β}
  {c d : Choices} {answers : List Bool}

/-- An outline that is evaluated with one source is evaluated with another one that gives the same
answers, turn by turn to the same ending. -/
theorem Evaluates.withChoices (hp : p.Evaluates s turns r) (hs : s.Draws answers r.stage)
    (hc : c.picks answers.length = (answers, d)) :
    p.Evaluates (s.withChoices c) turns (r.withChoices d) := by
  induction hp generalizing answers c d with
  | @consult _ g s hg =>
    have hnone : s.Draws [] (Ending.stage (ScenarioM.consult g s)) := Stage.draws_nil rfl rfl rfl
    obtain rfl := eq_of_draws_nil hnone hs hc
    rw [← consult_withChoices hg]
    exact .consult hg
  | throw =>
    obtain rfl := eq_of_draws_nil (Stage.draws_nil rfl rfl rfl) hs hc
    exact .throw
  | @lists _ a s ha =>
    have hnone : s.Draws [] (Ending.stage (ScenarioM.lists a s)) := by
      rw [stage_apply, after_lists]
      exact Stage.draws_nil rfl rfl rfl
    obtain rfl := eq_of_draws_nil hnone hs hc
    rw [← lists_withChoices]
    exact .lists ha
  | @draw s =>
    rw [draw_eq] at hs ⊢
    obtain rfl := s.draws_drawn.unique hs
    obtain ⟨hanswer, rfl⟩ := Choices.picks_singleton hc
    have hdraw := draw_withChoices hanswer
    rw [Ending.withChoices, ← hdraw]
    exact .draw
  | bind hx hf ihx ihf =>
    obtain ⟨first, hfirst, _⟩ := hx.exists_draws
    obtain ⟨rest, hrest, _⟩ := hf.exists_draws
    obtain ⟨e, he, hd⟩ := exists_picks hfirst hrest hs hc
    exact .bind (ihx hfirst he) (ihf hrest hd)
  | abort _ ih => exact .abort (ih hs hc)
  | tried _ ih => exact .tried (ih hs hc)
  | caught hx hf ihx ihf =>
    obtain ⟨first, hfirst, _⟩ := hx.exists_draws
    obtain ⟨rest, hrest, _⟩ := hf.exists_draws
    obtain ⟨e, he, hd⟩ := exists_picks hfirst hrest hs hc
    exact .caught (ihx hfirst he) (ihf hrest hd)
  | nested hx ih =>
    obtain ⟨inner, hinner, _⟩ := hx.exists_draws
    obtain rfl := (draws_closing hinner).unique hs
    rw [closing_withChoices]
    exact .nested (ih hinner hc)
  | @done _ _ _ s _ hdraw =>
    obtain ⟨hno, rfl⟩ := draw_eq_ok_iff.mp hdraw
    obtain rfl := s.draws_drawn.unique hs
    obtain ⟨hanswer, rfl⟩ := Choices.picks_singleton hc
    exact .done ((draw_withChoices hanswer).trans (by rw [hno]))
  | @quit _ _ _ s _ _ _ _ hdraw hturn ih =>
    obtain ⟨hyes, rfl⟩ := draw_eq_ok_iff.mp hdraw
    obtain ⟨rest, hrest, _⟩ := hturn.exists_draws
    obtain ⟨e, he, hd⟩ := exists_picks s.draws_drawn hrest hs hc
    obtain ⟨hanswer, rfl⟩ := Choices.picks_singleton he
    exact .quit ((draw_withChoices hanswer).trans (by rw [hyes])) (ih hrest hd)
  | @turn _ _ _ _ s _ _ _ _ _ _ hdraw hturn hloop ihturn ihloop =>
    obtain ⟨hyes, rfl⟩ := draw_eq_ok_iff.mp hdraw
    obtain ⟨first, hfirst, _⟩ := hturn.exists_draws
    obtain ⟨rest, hrest, _⟩ := hloop.exists_draws
    obtain ⟨e, he, hd⟩ := exists_picks s.draws_drawn (hfirst.trans hrest) hs hc
    obtain ⟨hanswer, rfl⟩ := Choices.picks_singleton he
    obtain ⟨e', hfirstPicks, hrestPicks⟩ := Choices.picks_append hd
    exact .turn ((draw_withChoices hanswer).trans (by rw [hyes])) (ihturn hfirst hfirstPicks)
      (ihloop hrest hrestPicks)

end Outline

namespace ScenarioM

variable {s : Stage σ α} {x : ScenarioM σ α β} {c d : Choices} {answers : List Bool}

/-- What is driven by answers has the same result with every source that gives the answers that it
draws, and leaves the same stage but for the source. -/
theorem Driven.apply_withChoices (hx : x.Driven) (hs : s.Draws answers (x.after s))
    (hc : c.picks answers.length = (answers, d)) :
    x (s.withChoices c) = Ending.withChoices d (x s) := by
  obtain ⟨p, rfl⟩ := hx.exists_outline
  obtain ⟨turns, hturns⟩ := p.exists_evaluates s
  rw [← stage_apply] at hs
  exact (hturns.withChoices hs hc).eq_apply.symm

/-- Where a computation that does not stop is used, it leaves its own stage. -/
theorem after_unstopped (y : EStateM Panic (Stage σ α) β) (s : Stage σ α) :
    (unstopped y).after s = Ending.stage (y s) := by
  unfold after unstopped
  cases y s <;> rfl

/-- A run draws the answers of its scenario. -/
theorem draws_runScenario {x : ScenarioM σ α Unit} (hs : s.Draws answers (x.after s)) :
    s.Draws answers (Ending.stage (runScenario x s)) := by
  rw [← after_unstopped, ← stage_apply, nested_apply]
  exact draws_closing ((stage_apply x s).symm ▸ hs)

/-- Runs go in lockstep, too. -/
theorem Driven.runScenario_withChoices {x : ScenarioM σ α Unit} (hx : x.Driven)
    (hs : s.Draws answers (Ending.stage (runScenario x s)))
    (hc : c.picks answers.length = (answers, d)) :
    runScenario x (s.withChoices c) = Ending.withChoices d (runScenario x s) := by
  rw [← after_unstopped] at hs
  have hsame := hx.nested.apply_withChoices hs hc
  unfold unstopped at hsame
  cases hrun : runScenario x s <;> cases hother : runScenario x (s.withChoices c) <;>
    simp_all [Ending.withChoices]

/-- A scenario draws no answer behind a no. -/
def QuitsAtNo (x : ScenarioM σ α β) (s : Stage σ α) : Prop :=
  ∀ yeses more, s.Draws (yeses ++ false :: more) (x.after s) → more = []

/-- A loop whose turns draw no answers draws none behind a no. -/
theorem quitsAtNo_whileDrawn {turn : β → ScenarioM σ α β} (hturn : ∀ b, (turn b).Composed)
    (hsilent : ∀ b (s : Stage σ α), s.Draws [] ((turn b).after s)) (b : β) (s : Stage σ α) :
    (whileDrawn turn b).QuitsAtNo s := by
  intro yeses more hs
  induction hbudget : s.budget using Nat.strongRecOn generalizing b s yeses with
  | ind k ih =>
    cases hanswer : s.harness.choices.stream 0 with
    | false =>
      rw [after_of_ok (whileDrawn_of_no hanswer)] at hs
      have hsame := s.draws_drawn.unique hs
      obtain _ | ⟨_, _⟩ := yeses <;> simp_all
    | true =>
      -- The turn draws nothing, so that the other answers are those of the loop behind it.
      have hfirst := s.draws_drawn.trans (hsilent b s.drawn)
      have hafter : (whileDrawn turn b).after s = (turn b >>= whileDrawn turn).after s.drawn := by
        unfold after
        rw [whileDrawn_of_yes hturn hanswer]
      rw [hafter, after_bind] at hs
      rw [hanswer] at hfirst
      cases hresult : turn b s.drawn with
      | error e t =>
        rw [hresult] at hs
        rw [after_of_error hresult] at hfirst
        have hsame := hfirst.unique hs
        obtain _ | ⟨_, _⟩ := yeses <;> simp_all
      | ok b' t =>
        rw [hresult] at hs
        rw [after_of_ok hresult] at hfirst
        obtain ⟨rest, hrest⟩ := (Composed.whileDrawn hturn b').exists_draws t
        have hsame := (hfirst.trans hrest).unique hs
        have hless := hfirst.budget_eq
        obtain _ | ⟨_, yeses⟩ := yeses
        · cases hsame
        · obtain ⟨_, rfl⟩ := List.cons.inj hsame
          exact ih t.budget (by simp at hless; omega) b' t yeses hrest rfl

end ScenarioM

/-- The same trial with another source, from which as many answers were drawn. -/
def Trial.withChoices (c : Choices) (t : Trial σ α) : Trial σ α :=
  ⟨t.outcome, t.stage.withChoices (c.behind t.stage.harness.taken)⟩

namespace ScenarioM

variable {x : ScenarioM σ α Unit} {scope : σ} {c d : Choices} {answers : List Bool}

/-- So do trials with two sources that both give the answers drawn with one of them. -/
theorem Driven.trial_withChoices (hx : x.Driven)
    (hs : Stage.Draws ⟨.fresh c, scope⟩ answers (Ending.stage (runScenario x ⟨.fresh c, scope⟩)))
    (hd : (d.picks answers.length).1 = answers) :
    trial d scope x = (trial c scope x).map (Trial.withChoices d) := by
  have hbehind : d.picks answers.length = (answers, d.behind answers.length) :=
    Prod.ext hd (by rw [Choices.picks_eq])
  have hsame := hx.runScenario_withChoices hs hbehind
  have htaken := hs.taken_eq
  change runScenario x ⟨.fresh d, scope⟩ = _ at hsame
  unfold trial
  rw [hsame]
  cases hrun : runScenario x ⟨.fresh c, scope⟩ with
  | error => rfl
  | ok outcome t =>
    rw [hrun] at htaken
    replace htaken : t.harness.taken = answers.length := htaken.trans (Nat.zero_add _)
    rw [Ending.withChoices, ← htaken]
    rfl

/-- A scenario that draws no answer behind a no draws none behind the first no of its source. -/
theorem QuitsAtNo.length_le {s : Stage σ α} {k : Nat} (hquits : x.QuitsAtNo s)
    (hs : s.Draws answers (x.after s)) (hno : s.harness.choices.stream k = false) :
    answers.length ≤ k + 1 := by
  by_contra hlong
  have hk : k < answers.length := by omega
  have hanswer : answers[k] = false := by
    rw [← hno]
    exact Option.some.inj ((List.getElem?_eq_getElem hk).symm.trans (hs.getElem?_eq hk))
  have hsplit : answers = answers.take k ++ false :: answers.drop (k + 1) := by
    rw [← hanswer, ← List.drop_eq_getElem_cons hk, List.take_append_drop]
  rw [hsplit] at hs
  have hnone := List.drop_eq_nil_iff.mp (hquits _ _ hs)
  omega

/-- The trial of a scenario that draws no answer behind a no is that of a count, the number of yeses
that come before the first no. -/
theorem QuitsAtNo.trial_count {k : Nat} (hquits : x.QuitsAtNo ⟨.fresh c, scope⟩) (hx : x.Driven)
    (hyes : ∀ i < k, c.stream i = true) (hno : c.stream k = false) :
    trial (.count k) scope x = (trial c scope x).map (Trial.withChoices (.count k)) := by
  obtain ⟨answers, hanswers⟩ := hx.composed.exists_draws ⟨.fresh c, scope⟩
  have hlength := hquits.length_le hanswers hno
  have hstreams : ∀ i < answers.length, (Choices.count k).stream i = c.stream i := by
    intro i hi
    rw [Choices.stream_count]
    obtain hless | rfl := Nat.lt_or_eq_of_le (show i ≤ k by omega)
    · rw [hyes i hless, decide_eq_true hless]
    · rw [hno, decide_eq_false (Nat.lt_irrefl i)]
  refine hx.trial_withChoices (draws_runScenario hanswers) ?_
  rw [Choices.picks_congr hstreams]
  exact congrArg Prod.fst hanswers.picks_eq

end ScenarioM

section Explorations

variable {ε A B : Type} {f : A → Except ε B}

/-- A walk over a list succeeds when it does so at all elements, with what is found there. -/
theorem mapM_eq_ok_iff {xs : List A} {ys : List B} :
    xs.mapM f = .ok ys ↔ xs.map f = ys.map .ok := by
  induction xs generalizing ys with
  | nil => cases ys <;> simp [pure, Except.pure]
  | cons a xs ih =>
    rw [List.mapM_cons]
    cases hfirst : f a <;> cases hrest : xs.mapM f <;> cases ys <;>
      simp [bind, Except.bind, pure, Except.pure, ← ih, hfirst, hrest]

/-- A walk over a list fails as it does at one of the elements. -/
theorem exists_of_mapM_eq_error {xs : List A} {e : ε} (hxs : xs.mapM f = .error e) :
    ∃ a ∈ xs, f a = .error e := by
  induction xs with
  | nil => simp [pure, Except.pure] at hxs
  | cons a xs ih =>
    rw [List.mapM_cons] at hxs
    cases hfirst : f a with
    | error e' =>
      rw [hfirst] at hxs
      cases hxs
      exact ⟨a, List.mem_cons_self, hfirst⟩
    | ok b =>
      cases hrest : xs.mapM f with
      | ok ys => simp [bind, Except.bind, pure, Except.pure, hfirst, hrest] at hxs
      | error e' =>
        obtain rfl : e' = e := by
          simpa [bind, Except.bind, hfirst, hrest] using hxs
        obtain ⟨a', ha', he⟩ := ih hrest
        exact ⟨a', List.mem_cons_of_mem a ha', he⟩

end Explorations

open ScenarioM

variable {x : ScenarioM σ α Unit} {scope : σ} {lo hi k : Nat}

/-- The trial of a count, paired with it. -/
theorem pairing_eq_ok_iff {n : Nat} {entry : Nat × Trial σ α} :
    (do return (n, ← trial (.count n) scope x) : Except Panic (Nat × Trial σ α)) = .ok entry ↔
      trial (.count n) scope x = .ok entry.2 ∧ n = entry.1 := by
  cases trial (.count n) scope x <;>
    simp [bind, Except.bind, pure, Except.pure, Prod.ext_iff, and_comm]

/-- An exploration that gives a result pairs every count in its range with its trial. -/
theorem exists_mem_explore {trials : List (Nat × Trial σ α)}
    (htrials : explore lo hi scope x = .ok trials) (hlo : lo ≤ k) (hhi : k ≤ hi) :
    ∃ t, trial (.count k) scope x = .ok t ∧ ∀ u, (k, u) ∈ trials ↔ u = t := by
  rw [explore, mapM_eq_ok_iff] at htrials
  have hk : k ∈ List.range' lo (hi + 1 - lo) := List.mem_range'_1.mpr (by omega)
  have hmem (u : Trial σ α) : (k, u) ∈ trials ↔ trial (.count k) scope x = .ok u := by
    rw [← List.mem_map_of_injective (fun _ _ => Except.ok.inj), ← htrials, List.mem_map]
    simp only [pairing_eq_ok_iff]
    constructor
    · rintro ⟨n, _, htrial, rfl⟩
      exact htrial
    · exact fun htrial => ⟨k, hk, htrial, rfl⟩
  have hentry := List.mem_map_of_mem (f := fun n => do return (n, ← trial (.count n) scope x)) hk
  rw [htrials, List.mem_map] at hentry
  obtain ⟨⟨n, t⟩, _, htrial⟩ := hentry
  obtain ⟨htrial, rfl⟩ := pairing_eq_ok_iff.mp htrial.symm
  refine ⟨t, htrial, fun u => ?_⟩
  rw [hmem, htrial, Except.ok.injEq, eq_comm]

/-- An exploration panics only where the trial of a count in its range does. -/
theorem exists_of_explore_eq_error {p : Panic} (hpanic : explore lo hi scope x = .error p) :
    ∃ n, lo ≤ n ∧ n ≤ hi ∧ trial (.count n) scope x = .error p := by
  obtain ⟨n, hn, hentry⟩ := exists_of_mapM_eq_error hpanic
  rw [List.mem_range'_1] at hn
  refine ⟨n, hn.1, by omega, ?_⟩
  cases htrial : trial (.count n) scope x with
  | error q => simpa [bind, Except.bind, htrial] using hentry
  | ok u => simp [bind, Except.bind, pure, Except.pure, htrial] at hentry

/-- The outcome of a scenario that is driven by answers depends on its source only through the
answers drawn. From whatever stage it is run, a source that gives the same answers, as many as the
run draws, leads to the same outcome or panic and to the same stage, with its arena and journal, its
scope, and its answers and their count, but for what is left of the source. Where the scenario
draws no answer behind a no, its trial with any source that gives `k` yeses before its first
no is the one that is paired with `k` in every exploration of a range with `k`, but for the source
at its stage; the exploration gives no result only where the trial of one of its counts panics. -/
theorem outcomes_depend_on_the_answers_drawn {x : ScenarioM σ α Unit} (hx : x.Driven) :
    (∀ (s : Stage σ α) (c : Choices) (drawn : Nat),
      (Ending.stage (runScenario x s)).harness.taken = s.harness.taken + drawn →
      (c.picks drawn).1 = (s.harness.choices.picks drawn).1 →
      runScenario x (s.withChoices c) = Ending.withChoices (c.behind drawn) (runScenario x s)) ∧
    ∀ (scope : σ) (lo hi k : Nat) (c : Choices), lo ≤ k → k ≤ hi →
      (∀ i < k, c.stream i = true) → c.stream k = false → x.QuitsAtNo ⟨.fresh c, scope⟩ →
      (∀ trials, explore lo hi scope x = .ok trials →
        ∃ t, trial c scope x = .ok t ∧ ∀ u, (k, u) ∈ trials ↔ u = t.withChoices (.count k)) ∧
      ∀ p, explore lo hi scope x = .error p →
        ∃ n, lo ≤ n ∧ n ≤ hi ∧ trial (.count n) scope x = .error p := by
  constructor
  · intro s c drawn hdrawn hsame
    obtain ⟨answers, hanswers⟩ := hx.nested.composed.exists_draws s
    rw [after_unstopped] at hanswers
    have hlength : answers.length = drawn := by
      have htaken := hanswers.taken_eq
      omega
    subst hlength
    rw [hanswers.picks_eq] at hsame
    exact hx.runScenario_withChoices hanswers (Prod.ext hsame (by rw [Choices.picks_eq]))
  · intro scope lo hi k c hlo hhi hyes hno hquits
    have hsame := hquits.trial_count hx hyes hno
    refine ⟨fun trials htrials => ?_, fun p hpanic => exists_of_explore_eq_error hpanic⟩
    obtain ⟨t, htrial, hmem⟩ := exists_mem_explore htrials hlo hhi
    rw [hsame] at htrial
    cases hother : trial c scope x with
    | error p =>
      rw [hother] at htrial
      cases htrial
    | ok u =>
      rw [hother] at htrial
      obtain rfl := Except.ok.inj htrial
      exact ⟨u, rfl, hmem⟩

/-- A scenario that leaves a node behind for every yes. -/
def nodePerYes : ScenarioM Unit Nat Unit :=
  whileDrawn (fun _ => discard <| lists (ArenaM.create 7)) ()

/-- A script with two yeses before its first no, and one behind it. -/
def twoYeses : Choices := .ofList [true, true, false, true]

/-- Two nodes are left behind with the script, as in the exploration for the count two. The run with
the script goes in lockstep with the one with this count, up to the yes that is not drawn. -/
theorem nodePerYes_outcomes :
    nodePerYes.Driven ∧ nodePerYes.QuitsAtNo ⟨.fresh twoYeses, ()⟩ ∧
    (∃ trials t, explore 1 3 () nodePerYes = .ok trials ∧ trial twoYeses () nodePerYes = .ok t ∧
      t.outcome = .fault (.leak 2) ∧ ∀ u, (2, u) ∈ trials ↔ u = t.withChoices (.count 2)) ∧
    runScenario nodePerYes ⟨.fresh twoYeses, ()⟩ =
      Ending.withChoices (twoYeses.behind 3) (runScenario nodePerYes ⟨.fresh (.count 2), ()⟩) := by
  have hcreate : (lists (ArenaM.create 7) : ScenarioM Unit Nat Handle).Driven :=
    .call (g := .node) (.create 7) rfl
  have hdriven : nodePerYes.Driven := .whileDrawn (fun _ => .discard hcreate) ()
  obtain ⟨hlockstep, hexplore⟩ := outcomes_depend_on_the_answers_drawn hdriven
  have hquits : nodePerYes.QuitsAtNo ⟨.fresh twoYeses, ()⟩ := by
    refine quitsAtNo_whileDrawn (fun _ => (Driven.discard hcreate).composed) (fun _ s => ?_) () _
    change s.Draws [] (((fun _ => ()) <$> lists (ArenaM.create 7)).after s)
    rw [after_map, after_lists]
    exact Stage.draws_nil rfl rfl rfl
  refine ⟨hdriven, hquits, ?_,
    hlockstep ⟨.fresh (.count 2), ()⟩ twoYeses 3 (by decide +kernel) (by decide)⟩
  obtain ⟨hfound, -⟩ :=
    hexplore () 1 3 2 twoYeses (by decide) (by decide) (by decide) (by decide) hquits
  have hok : (explore 1 3 () nodePerYes).isOk = true := by decide +kernel
  cases htrials : explore 1 3 () nodePerYes with
  | error p => simp [htrials, Except.isOk, Except.toBool] at hok
  | ok trials =>
    obtain ⟨t, htrial, hmem⟩ := hfound trials htrials
    have houtcome : (trial twoYeses () nodePerYes).map Trial.outcome = .ok (.fault (.leak 2)) := by
      decide +kernel
    rw [htrial] at houtcome
    exact ⟨trials, t, rfl, htrial, Except.ok.inj houtcome, hmem⟩

end CheckedLists
