import CheckedLists.Proofs.Composed

/-!
# Scenarios that are driven by answers

A scenario does not look into the source of its choices: it learns of it by drawing, and
its loops ask before each turn. What it sees of its stage, what it performs, and how it
stops or catches stops is not restricted otherwise. Such scenarios are made of operations,
and all steps and loops of programs, the fixtures among them, are driven by answers.
-/

namespace CheckedLists

variable {σ α β γ : Type}

/-- The same stage with another source of choices. -/
def Stage.withChoices (s : Stage σ α) (c : Choices) : Stage σ α :=
  { s with harness := { s.harness with choices := c } }

namespace ScenarioM

/-- The scenarios that learn of the choices by drawing answers only. -/
inductive Driven : {β : Type} → ScenarioM σ α β → Prop where
  /-- The scenario looks at what there is beside the choices, and changes its scope. -/
  | consult {β : Type} {g : Stage σ α → β × σ} (hg : ∀ s c, g (s.withChoices c) = g s) :
      Driven (consult g)
  /-- One part comes behind another one and uses its result. -/
  | bind {β γ : Type} {x : ScenarioM σ α β} {f : β → ScenarioM σ α γ} :
      Driven x → (∀ b, Driven (f b)) → Driven (x >>= f)
  /-- The scenario stops or panics. -/
  | throw {β : Type} (e : Abort Stop) : Driven (throw e : ScenarioM σ α β)
  /-- One part goes on where another one ends early. -/
  | tryCatch {β : Type} {x : ScenarioM σ α β} {f : Abort Stop → ScenarioM σ α β} :
      Driven x → (∀ e, Driven (f e)) → Driven (tryCatch x f)
  /-- Operations are performed, and the allocator may become another one. -/
  | lists {β : Type} {c : ArenaM α β} : c.Operates → Driven (ScenarioM.lists c)
  /-- An answer is drawn. -/
  | draw : Driven ScenarioM.draw
  /-- A turn is repeated as long as the answer drawn before it is yes. -/
  | whileDrawn {β : Type} {turn : β → ScenarioM σ α β} (hturn : ∀ b, Driven (turn b)) (b : β) :
      Driven (whileDrawn turn b)
  /-- A scenario is run in another one. -/
  | nested {x : ScenarioM σ α Unit} : Driven x → Driven (unstopped (runScenario x))

namespace Driven

/-- What is driven by answers is made of operations. -/
theorem composed {x : ScenarioM σ α β} (hx : x.Driven) : x.Composed := by
  induction hx with
  | consult => exact .consult _
  | bind _ _ ihx ihf => exact .bind ihx ihf
  | throw e => exact .throw e
  | tryCatch _ _ ihx ihf => exact .tryCatch ihx ihf
  | lists hc => exact .lists hc
  | draw => exact .draw
  | whileDrawn _ b ih => exact .whileDrawn ih b
  | nested _ ih => exact .nested ih

theorem pure (b : β) : (Pure.pure b : ScenarioM σ α β).Driven :=
  .consult (g := fun s => (b, s.scope)) fun _ _ => rfl

/-- A change of the result does not matter. -/
theorem map {x : ScenarioM σ α β} (hx : x.Driven) (g : β → γ) : (g <$> x).Driven := by
  rw [← bind_pure_comp]
  exact hx.bind fun b => pure (g b)

theorem discard {x : ScenarioM σ α β} (hx : x.Driven) : (Functor.discard x).Driven :=
  hx.map fun _ => ()

/-- A part may depend on what is seen beside the choices. -/
theorem look {f : Stage σ α → ScenarioM σ α β} (hf : ∀ s c, f (s.withChoices c) = f s)
    (hdriven : ∀ s, (f s).Driven) : (MonadState.get >>= f).Driven := by
  -- What is seen is the part that goes on, together with the fact that it is driven.
  let g (s : Stage σ α) : { x : ScenarioM σ α β // x.Driven } × σ := (⟨f s, hdriven s⟩, s.scope)
  have hg (s : Stage σ α) (c : Choices) : g (s.withChoices c) = g s :=
    Prod.ext (Subtype.ext (hf s c)) rfl
  exact .bind (x := ScenarioM.consult g) (f := Subtype.val) (.consult hg) Subtype.property

theorem stop (why : Stop) : (ScenarioM.stop why : ScenarioM σ α β).Driven :=
  .throw _

theorem assume (condition : Bool) : (assume condition : ScenarioM σ α Unit).Driven := by
  cases condition with
  | true => exact pure ()
  | false => exact stop .pruned

theorem check (condition : Bool) (label : String) :
    (check condition label : ScenarioM σ α Unit).Driven := by
  cases condition with
  | true => exact pure ()
  | false => exact stop _

/-- A scenario may perform any operation. -/
theorem call {c : ArenaM α β} {g : β → Reply α} (op : Op (Option Handle) Handle α)
    (hc : op.perform = g <$> c) : (ScenarioM.lists c : ScenarioM σ α β).Driven :=
  .lists (ArenaM.operates_of_perform hc)

theorem all (head : Option Handle) (p : Nat → α → Bool) :
    (all head p : ScenarioM σ α Bool).Driven := by
  refine look (fun _ _ => rfl) fun s => ?_
  cases s.harness.arena.store.all head (numbered p) 0 with
  | ok holds => exact pure holds
  | error e => exact .throw _

theorem assumeAll (head : Option Handle) (p : Nat → α → Bool) :
    (assumeAll head p : ScenarioM σ α Unit).Driven :=
  (all head p).bind assume

theorem checkAll (head : Option Handle) (label : String) (p : Nat → α → Bool) :
    (checkAll head label p : ScenarioM σ α Unit).Driven :=
  (all head p).bind fun holds => check holds label

end Driven

end ScenarioM

end CheckedLists
