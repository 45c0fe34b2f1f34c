import CheckedLists.Proofs.Census
import CheckedLists.Scenario.Harness

/-!
# Scenarios made of operations

A scenario changes the store of its harness by operations only. Beside them it draws
answers, stops, catches stops and runs other scenarios; what it computes from all that
it sees is not restricted.

One step of a scenario leads from a reachable store to a reachable store and writes the
records of what it does behind those in the journal. So does a whole scenario, also
where it stops or panics, with the runs of other scenarios in it.
-/

namespace CheckedLists

variable {σ α β γ : Type}

namespace Store

/-- The stores to which operations lead, whatever allocators stand behind them. -/
inductive Reachable : Store α → Prop where
  | empty : Reachable .empty
  | call {a : Arena α} (op : Op (Option Handle) Handle α) :
      Reachable a.store → Reachable (op.perform.after a).store

namespace Reachable

variable {s : Store α} {a : Arena α}

theorem step (ha : a.store.Reachable) (e : Event α) : (a.step e).store.Reachable := by
  cases e with
  | call op => exact .call op ha
  | supply => exact ha

theorem run (ha : a.store.Reachable) (events : List (Event α)) :
    (a.run events).store.Reachable :=
  Arena.run_induction (P := fun a => a.store.Reachable) (fun e ha => ha.step e) ha events

theorem coherent (hs : s.Reachable) : s.Coherent := by
  induction hs with
  | empty => exact .empty
  | call op _ ih => exact Arena.coherent_step (.call op) ih

theorem counted (hs : s.Reachable) : s.Counted := by
  induction hs with
  | empty => exact counted_empty
  | call op ha ih =>
    obtain ⟨records, _, hrecorded⟩ := Arena.recorded_step ha.coherent (.call op)
    exact hrecorded.renews.counted ih

end Reachable

end Store

/-- Runs lead to reachable stores. -/
theorem Arena.Reachable.store {a : Arena α} (ha : a.Reachable) : a.store.Reachable := by
  obtain ⟨allocator, events, rfl⟩ := ha
  exact Store.Reachable.run .empty events

namespace Stage

variable {s t u : Stage σ α} {records : List Record}

/-- The store of the harness. -/
abbrev store (s : Stage σ α) : Store α := s.harness.arena.store

/-- The journal of the harness. -/
abbrev journal (s : Stage σ α) : Array Record := s.harness.arena.journal

/-- What was recorded since an earlier stage. -/
def since (s t : Stage σ α) : List Record := t.journal.toList.drop s.journal.size

/-- Write records into the journal, and leave everything else as it is. -/
def noting (s : Stage σ α) (records : List Record) : Stage σ α :=
  { s with
    harness := { s.harness with
      arena := { s.harness.arena with journal := s.journal ++ records.toArray } } }

/-- A later stage: its store is reachable, and what was recorded since the earlier one tells how
the store has changed. -/
structure Precedes (s t : Stage σ α) : Prop where
  /-- The later store is reachable. -/
  reachable : t.store.Reachable
  /-- The journal has grown. -/
  journal_eq : t.journal = s.journal ++ (s.since t).toArray
  /-- The new records tell how the store has changed. -/
  recorded : s.store.Recorded (s.since t) t.store

theorem since_eq (hj : t.journal = s.journal ++ records.toArray) : s.since t = records := by
  simp [since, hj]

theorem precedes_of_recorded (ht : t.store.Reachable)
    (hj : t.journal = s.journal ++ records.toArray) (hr : s.store.Recorded records t.store) :
    s.Precedes t := by
  have hsince := since_eq hj
  exact ⟨ht, by rw [hsince, hj], by rwa [hsince]⟩

/-- As long as the arena stays as it is, nothing is recorded. -/
theorem precedes_of_eq (hs : s.store.Reachable) (ha : t.harness.arena = s.harness.arena) :
    s.Precedes t := by
  have hstore : t.store = s.store := congrArg Arena.store ha
  have hjournal : t.journal = s.journal := congrArg Arena.journal ha
  refine precedes_of_recorded ?_ (hjournal.trans Array.append_empty.symm) ?_
  · rwa [hstore]
  · rw [hstore]
    exact .nil

/-- From an earlier stage on, what was recorded up to a later one comes first. -/
theorem Precedes.since_trans (hs : s.Precedes t) (ht : t.Precedes u) :
    s.since u = s.since t ++ t.since u := by
  apply since_eq
  rw [ht.journal_eq, hs.journal_eq]
  simp

theorem Precedes.trans (hs : s.Precedes t) (ht : t.Precedes u) : s.Precedes u := by
  refine ⟨ht.reachable, ?_, ?_⟩
  · rw [hs.since_trans ht, ht.journal_eq, hs.journal_eq]
    simp
  · rw [hs.since_trans ht]
    exact hs.recorded.append ht.recorded

/-- Notes that tell of no change lead to a later stage. -/
theorem precedes_noting (hs : s.store.Reachable) (hr : s.store.Recorded records s.store) :
    s.Precedes (s.noting records) :=
  precedes_of_recorded hs rfl hr

end Stage

/-- The outcome of a run is recorded, and nothing else is changed. -/
theorem conclude_eq (mark : Nat) (ending : Except Stop Unit) (s : Stage σ α) :
    ∃ records, conclude mark ending s =
        .ok (Outcome.classify (s.store.liveSince mark) ending).1 (s.noting records) ∧
      s.store.Recorded records s.store := by
  refine ⟨(Outcome.classify (s.store.liveSince mark) ending).2.toList ++
    [.ended (Outcome.classify (s.store.liveSince mark) ending).1 s.harness.taken], ?_, ?_⟩
  · rw [conclude, Stage.noting, ← List.push_toArray, Array.toArray_toList, Array.append_push]
  · refine .snoc ?_ (.ended _ _)
    cases ending with
    | ok =>
      rw [Outcome.classify]
      split
      · exact .nil
      · exact .single (.leaked _)
    | error stop =>
      cases stop with
      | pruned | violation => exact .nil
      | fault f => exact .single (.faulted f)

namespace ArenaM

variable {c : ArenaM α β}

/-- A computation that leaves an arena as some events leave it. -/
def Operates (c : ArenaM α β) : Prop := ∀ a, ∃ events, c.after a = a.run events

/-- An operation leaves an arena as one event does, whatever its result is used for. -/
theorem operates_of_perform {g : β → Reply α} {op : Op (Option Handle) Handle α}
    (hc : op.perform = g <$> c) : c.Operates := fun a => by
  refine ⟨[.call op], ?_⟩
  rw [← after_map g, ← hc]
  rfl

end ArenaM

namespace ScenarioM

variable {s t : Stage σ α}

/-- The stage that a scenario leaves, whether or not it ends early. -/
def after (x : ScenarioM σ α β) (s : Stage σ α) : Stage σ α :=
  match x s with
  | .ok _ s | .error _ s => s

/-- Look at the stage and change the scope. -/
def consult (g : Stage σ α → β × σ) : ScenarioM σ α β := fun s =>
  .ok (g s).1 { s with scope := (g s).2 }

/-- The scenarios that are made of operations. -/
inductive Composed : {β : Type} → ScenarioM σ α β → Prop where
  /-- The scenario looks at what there is and changes its scope. -/
  | consult {β : Type} (g : Stage σ α → β × σ) : Composed (consult g)
  /-- One part comes behind another one and uses its result. -/
  | bind {β γ : Type} {x : ScenarioM σ α β} {f : β → ScenarioM σ α γ} :
      Composed x → (∀ b, Composed (f b)) → Composed (x >>= f)
  /-- The scenario stops or panics. -/
  | throw {β : Type} (e : Abort Stop) : Composed (throw e : ScenarioM σ α β)
  /-- One part goes on where another one ends early. -/
  | tryCatch {β : Type} {x : ScenarioM σ α β} {f : Abort Stop → ScenarioM σ α β} :
      Composed x → (∀ e, Composed (f e)) → Composed (tryCatch x f)
  /-- Operations are performed, and the allocator may become another one. -/
  | lists {β : Type} {c : ArenaM α β} : c.Operates → Composed (ScenarioM.lists c)
  /-- An answer is drawn. -/
  | draw : Composed ScenarioM.draw
  /-- A scenario is run in another one. -/
  | nested {x : ScenarioM σ α Unit} : Composed x → Composed (unstopped (runScenario x))

theorem after_of_ok {x : ScenarioM σ α β} {b : β} (hx : x s = .ok b t) : x.after s = t := by
  rw [after, hx]

theorem after_of_error {x : ScenarioM σ α β} {e : Abort Stop} (hx : x s = .error e t) :
    x.after s = t := by
  rw [after, hx]

/-- A sequence leaves the stage that its second part leaves behind the first one, unless the first
part ends early. -/
theorem after_bind (x : ScenarioM σ α β) (f : β → ScenarioM σ α γ) (s : Stage σ α) :
    (x >>= f).after s = match x s with
      | .ok b t => (f b).after t
      | .error _ t => t := by
  change (match EStateM.bind x f s with | .ok _ t | .error _ t => t) = _
  unfold EStateM.bind after
  cases x s <;> rfl

/-- A change of the result does not matter. -/
theorem after_map (g : β → γ) (x : ScenarioM σ α β) (s : Stage σ α) :
    (g <$> x).after s = x.after s := by
  rw [← bind_pure_comp, after_bind]
  unfold after
  cases x s <;> rfl

theorem after_tryCatch (x : ScenarioM σ α β) (f : Abort Stop → ScenarioM σ α β)
    (s : Stage σ α) :
    (tryCatch x f).after s = match x s with
      | .ok _ t => t
      | .error e t => (f e).after t := by
  change (match EStateM.tryCatch x f s with | .ok _ t | .error _ t => t) = _
  unfold EStateM.tryCatch after
  cases x s <;> rfl

/-- The second part of a sequence leads on from where the first part leads. -/
theorem precedes_bind {x : ScenarioM σ α β} {f : β → ScenarioM σ α γ}
    (hx : (x.after s).store.Reachable)
    (hf : ∀ b {t : Stage σ α}, t.store.Reachable → t.Precedes ((f b).after t)) :
    (x.after s).Precedes ((x >>= f).after s) := by
  rw [after_bind]
  cases hresult : x s with
  | ok b t =>
    rw [after_of_ok hresult] at hx ⊢
    exact hf b hx
  | error e t =>
    rw [after_of_error hresult] at hx ⊢
    exact Stage.precedes_of_eq hx rfl

/-- What goes on where a part ends early leads on from where that part leads. -/
theorem precedes_tryCatch {x : ScenarioM σ α β} {f : Abort Stop → ScenarioM σ α β}
    (hx : (x.after s).store.Reachable)
    (hf : ∀ e {t : Stage σ α}, t.store.Reachable → t.Precedes ((f e).after t)) :
    (x.after s).Precedes ((tryCatch x f).after s) := by
  rw [after_tryCatch]
  cases hresult : x s with
  | ok b t =>
    rw [after_of_ok hresult] at hx ⊢
    exact Stage.precedes_of_eq hx rfl
  | error e t =>
    rw [after_of_error hresult] at hx ⊢
    exact hf e hx

theorem after_lists (c : ArenaM α β) (s : Stage σ α) :
    (lists c).after s =
      { s with harness := { s.harness with arena := c.after s.harness.arena } } := by
  unfold after lists ArenaM.after
  cases c s.harness.arena <;> rfl

/-- A run leaves the stage that its scenario leaves, with notes in the journal that tell of no
change. -/
theorem after_nested (x : ScenarioM σ α Unit) (s : Stage σ α) :
    ∃ records, (unstopped (runScenario x)).after s = (x.after s).noting records ∧
      (x.after s).store.Recorded records (x.after s).store := by
  unfold after unstopped runScenario
  cases hresult : x s with
  | ok _ t =>
    obtain ⟨records, hconclude, hr⟩ := conclude_eq s.store.stats.created (.ok ()) t
    exact ⟨records, by simp only [hconclude], hr⟩
  | error e t =>
    cases e with
    | error stop =>
      obtain ⟨records, hconclude, hr⟩ := conclude_eq s.store.stats.created (.error stop) t
      exact ⟨records, by simp only [hconclude], hr⟩
    | panic p => exact ⟨[], by simp [Stage.noting], .nil⟩

/-- A run in a scenario leads on from where the scenario that is run leads. -/
theorem precedes_nested {x : ScenarioM σ α Unit} (hx : (x.after s).store.Reachable) :
    (x.after s).Precedes ((unstopped (runScenario x)).after s) := by
  obtain ⟨records, hafter, hr⟩ := after_nested x s
  rw [hafter]
  exact Stage.precedes_noting hx hr

namespace Composed

/-- Whatever a scenario does, and however it ends, it leads to a later stage. -/
theorem precedes {x : ScenarioM σ α β} (hx : x.Composed) (hs : s.store.Reachable) :
    s.Precedes (x.after s) := by
  induction hx generalizing s with
  | consult | throw | draw => exact Stage.precedes_of_eq hs rfl
  | bind _ _ ihx ihf =>
    have hfirst := ihx hs
    exact hfirst.trans (precedes_bind hfirst.reachable ihf)
  | tryCatch _ _ ihx ihf =>
    have hfirst := ihx hs
    exact hfirst.trans (precedes_tryCatch hfirst.reachable ihf)
  | lists hc =>
    obtain ⟨events, hevents⟩ := hc s.harness.arena
    obtain ⟨_, records, hjournal, hrecorded⟩ := Arena.exists_recorded_run hs.coherent events
    rw [after_lists, hevents]
    exact Stage.precedes_of_recorded (hs.run events) hjournal hrecorded
  | nested _ ih =>
    have hinner := ih hs
    exact hinner.trans (precedes_nested hinner.reachable)

theorem pure (b : β) : (Pure.pure b : ScenarioM σ α β).Composed :=
  .consult fun s => (b, s.scope)

/-- A change of the result does not matter. -/
theorem map {x : ScenarioM σ α β} (hx : x.Composed) (g : β → γ) : (g <$> x).Composed := by
  rw [← bind_pure_comp]
  exact hx.bind fun b => pure (g b)

theorem discard {x : ScenarioM σ α β} (hx : x.Composed) :
    (Functor.discard x).Composed :=
  hx.map fun _ => ()

theorem get : (MonadState.get : ScenarioM σ α (Stage σ α)).Composed :=
  .consult fun s => (s, s.scope)

/-- A scenario may perform any operation. -/
theorem call {c : ArenaM α β} {g : β → Reply α} (op : Op (Option Handle) Handle α)
    (hc : op.perform = g <$> c) : (ScenarioM.lists c : ScenarioM σ α β).Composed :=
  .lists (ArenaM.operates_of_perform hc)

theorem drawnFrom {turn : β → ScenarioM σ α β} (hturn : ∀ b, (turn b).Composed) (fuel : Nat)
    (b : β) : (drawnFrom turn fuel b).Composed := by
  induction fuel generalizing b with
  | zero =>
    refine .bind .draw fun answer => ?_
    cases answer with
    | true => exact .throw _
    | false => exact pure b
  | succ fuel ih =>
    refine .bind .draw fun answer => ?_
    cases answer with
    | true => exact (hturn b).bind ih
    | false => exact pure b

theorem whileDrawn {turn : β → ScenarioM σ α β} (hturn : ∀ b, (turn b).Composed) (b : β) :
    (whileDrawn turn b).Composed :=
  get.bind fun s => drawnFrom hturn s.harness.choices.budget b

end Composed

end ScenarioM

end CheckedLists
