import CheckedLists.Proofs.Driven

/-!
# Outlines of scenarios

A scenario is a computation, and two computations may be equal though one has a loop where
the other has not. What is said of the loops of a scenario is therefore said of its outline:
how it is put together from its parts, as data. A loop or a run in an outline is one by the
way that the outline is written, and an outline stands for the scenario that is put together
in the same way.

Every scenario that is driven by answers has an outline, and every scenario with an outline
is driven by answers.
-/

namespace CheckedLists

variable {σ α β γ : Type}

/-- A scenario that is driven by answers, as it is put together. -/
inductive Outline (σ α : Type) : Type → Type 1 where
  /-- Look at what there is beside the choices, and change the scope. -/
  | consult {β : Type} (g : Stage σ α → β × σ) (hg : ∀ s c, g (s.withChoices c) = g s) :
      Outline σ α β
  /-- Stop or panic. -/
  | throw {β : Type} (e : Abort Stop) : Outline σ α β
  /-- Perform operations. -/
  | lists {β : Type} (c : ArenaM α β) (hc : c.Operates) : Outline σ α β
  /-- Draw an answer. -/
  | draw : Outline σ α Bool
  /-- One part comes behind another one and uses its result. -/
  | bind {β γ : Type} (x : Outline σ α β) (f : β → Outline σ α γ) : Outline σ α γ
  /-- One part goes on where another one ends early. -/
  | tryCatch {β : Type} (x : Outline σ α β) (f : Abort Stop → Outline σ α β) : Outline σ α β
  /-- Repeat a turn as long as the answer drawn before it is yes. -/
  | whileDrawn {β : Type} (turn : β → Outline σ α β) (b : β) : Outline σ α β
  /-- Run a scenario in another one. -/
  | nested (x : Outline σ α Unit) : Outline σ α Outcome

namespace Outline

/-- The scenario that an outline stands for. -/
def scenario {β : Type} : Outline σ α β → ScenarioM σ α β
  | consult g _ => ScenarioM.consult g
  | throw e => MonadExcept.throw e
  | lists c _ => ScenarioM.lists c
  | draw => ScenarioM.draw
  | bind x f => x.scenario >>= fun b => (f b).scenario
  | tryCatch x f => MonadExcept.tryCatch x.scenario fun e => (f e).scenario
  | whileDrawn turn b => ScenarioM.whileDrawn (fun b => (turn b).scenario) b
  | nested x => ScenarioM.unstopped (runScenario x.scenario)

/-- What has an outline is driven by answers. -/
theorem driven (p : Outline σ α β) : p.scenario.Driven := by
  induction p with
  | consult g hg => exact .consult hg
  | throw e => exact .throw e
  | lists c hc => exact .lists hc
  | draw => exact .draw
  | bind x f ihx ihf => exact .bind ihx ihf
  | tryCatch x f ihx ihf => exact .tryCatch ihx ihf
  | whileDrawn turn b ih => exact .whileDrawn ih b
  | nested x ih => exact .nested ih

/-- Give a result back. -/
def pure (b : β) : Outline σ α β := .consult (fun s => (b, s.scope)) fun _ _ => rfl

/-- Give an outline the result unit. -/
def discard (p : Outline σ α β) : Outline σ α Unit := p.bind fun _ => pure ()

theorem scenario_discard (p : Outline σ α β) : p.discard.scenario = Functor.discard p.scenario :=
  (bind_pure_comp (fun _ => ()) p.scenario : _)

end Outline

/-- What is driven by answers has an outline. -/
theorem ScenarioM.Driven.exists_outline {x : ScenarioM σ α β} (hx : x.Driven) :
    ∃ p : Outline σ α β, p.scenario = x := by
  induction hx with
  | consult hg => exact ⟨.consult _ hg, rfl⟩
  | @bind _ _ x f _ _ ihx ihf =>
    obtain ⟨p, rfl⟩ := ihx
    choose q hq using ihf
    exact ⟨p.bind q, congrArg (p.scenario >>= ·) (funext hq)⟩
  | throw e => exact ⟨.throw e, rfl⟩
  | @tryCatch _ x f _ _ ihx ihf =>
    obtain ⟨p, rfl⟩ := ihx
    choose q hq using ihf
    exact ⟨p.tryCatch q, congrArg (MonadExcept.tryCatch p.scenario) (funext hq)⟩
  | lists hc => exact ⟨.lists _ hc, rfl⟩
  | draw => exact ⟨.draw, rfl⟩
  | @whileDrawn _ turn _ b ih =>
    choose p hp using ih
    exact ⟨.whileDrawn p b, congrArg (ScenarioM.whileDrawn · b) (funext hp)⟩
  | @nested x _ ih =>
    obtain ⟨p, rfl⟩ := ih
    exact ⟨p.nested, rfl⟩

namespace Outline

variable {x : ScenarioM σ α β}

/-- An outline of a part of a scenario, however it is put together. It serves for the parts that
have neither loops that ask nor runs. -/
noncomputable def part (hx : x.Driven) : Outline σ α β := hx.exists_outline.choose

@[simp] theorem scenario_part (hx : x.Driven) : (part hx).scenario = x :=
  hx.exists_outline.choose_spec

end Outline

end CheckedLists
