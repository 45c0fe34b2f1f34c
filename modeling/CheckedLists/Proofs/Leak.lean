import CheckedLists.Proofs.Programs

/-!
# Leaks

A run that reaches the end of its scenario reports the nodes that were created in its
course and not released. It finds them by their serials: the number of live nodes alone
would not do, since old nodes may have been released meanwhile and their slots been used
again. Any other run reports why its scenario stopped, whatever is live by then. The run
itself changes nothing but the journal.

A run in the course of another one is classified by what happened since its own
beginning. What it leaks is a newcomer of the other run too, unless that releases it.
-/

namespace CheckedLists

variable {σ α β γ : Type}

namespace Stage

/-- The nodes that were created since an earlier stage and not released, with their serials. -/
def newcomers (s t : Stage σ α) : List (Handle × Nat) :=
  CheckedLists.newcomers s.store.stats.created (s.since t)

/-- The nodes of an earlier stage that were released since, with their serials. -/
def departed (s t : Stage σ α) : List (Handle × Nat) :=
  s.store.census.filter fun e => .released e.1 ∈ s.since t

end Stage

namespace ScenarioM

variable {s s₁ t : Stage σ α} {x y : ScenarioM σ α Unit}

/-- The run of `x` from `s` has this outcome, and leaves `t` with some notes in the journal. -/
def Concludes (x : ScenarioM σ α Unit) (s : Stage σ α) (outcome : Outcome)
    (t : Stage σ α) : Prop :=
  ∃ records, runScenario x s = .ok outcome (t.noting records)

/-- The run of `x` from `s` is classified by how `x` ends and by the nodes that it leaves. -/
structure Classified (x : ScenarioM σ α Unit) (s : Stage σ α) : Prop where
  /-- Where the scenario reaches its end, its newcomers are counted. -/
  completed : ∀ {t}, x s = .ok () t →
    Concludes x s
      (if (s.newcomers t).length = 0 then .completed else .fault (.leak (s.newcomers t).length)) t
  /-- Where it is pruned, so is the run. -/
  pruned : ∀ {t}, x s = .error (.error .pruned) t → Concludes x s .pruned t
  /-- Where a check fails, the run reports the violation. -/
  violated : ∀ {v t}, x s = .error (.error (.violation v)) t → Concludes x s (.violated v) t
  /-- Where an operation is refused, the run reports the fault. -/
  faulted : ∀ {f t}, x s = .error (.error (.fault f)) t → Concludes x s (.fault f) t
  /-- The nodes that are live in the end are the newcomers and the old nodes not released. -/
  isLive_iff : ∀ {h}, (x.after s).store.isLive h = true ↔
    (∃ k, (h, k) ∈ s.newcomers (x.after s)) ∨
      s.store.isLive h = true ∧ .released h ∉ s.since (x.after s)
  /-- The number of live nodes grows by the newcomers and shrinks by the old nodes released. -/
  live_eq : (x.after s).store.live + (s.departed (x.after s)).length =
    s.store.live + (s.newcomers (x.after s)).length

/-- A run of `y` begins at `s₁` in the course of a scenario. -/
inductive RunsIn (y : ScenarioM σ α Unit) (s₁ : Stage σ α) :
    {β : Type} → ScenarioM σ α β → Stage σ α → Prop where
  /-- The scenario is the run. -/
  | self : y.Composed → RunsIn y s₁ (unstopped (runScenario y)) s₁
  /-- The scenario is another run, in the course of which the run begins. -/
  | nested {x : ScenarioM σ α Unit} {s : Stage σ α} :
      RunsIn y s₁ x s → RunsIn y s₁ (unstopped (runScenario x)) s
  /-- The run begins in the first part of a sequence. -/
  | first {β γ : Type} {x : ScenarioM σ α β} {f : β → ScenarioM σ α γ} {s : Stage σ α} :
      RunsIn y s₁ x s → (∀ b, (f b).Composed) → RunsIn y s₁ (x >>= f) s
  /-- The run begins in the second part of a sequence. -/
  | second {β γ : Type} {x : ScenarioM σ α β} {f : β → ScenarioM σ α γ} {s t : Stage σ α} {b : β} :
      x.Composed → x s = .ok b t → RunsIn y s₁ (f b) t → RunsIn y s₁ (x >>= f) s
  /-- The run begins in a part that something else may follow where it ends early. -/
  | tried {β : Type} {x : ScenarioM σ α β} {f : Abort Stop → ScenarioM σ α β} {s : Stage σ α} :
      RunsIn y s₁ x s → (∀ e, (f e).Composed) → RunsIn y s₁ (tryCatch x f) s
  /-- The run begins in what follows where a part ended early. -/
  | caught {β : Type} {x : ScenarioM σ α β} {f : Abort Stop → ScenarioM σ α β}
      {s t : Stage σ α} {e : Abort Stop} :
      x.Composed → x s = .error e t → RunsIn y s₁ (f e) t → RunsIn y s₁ (tryCatch x f) s

/-- The scenario `x` does not panic from `s` on, and ends so at `t`. -/
def Ends (x : ScenarioM σ α Unit) (s t : Stage σ α) : Except Stop Unit → Prop
  | .ok () => x s = .ok () t
  | .error stop => x s = .error (.error stop) t

/-- A run is concluded where its scenario ends. -/
theorem runScenario_of_ends {ending : Except Stop Unit} (hx : x.Ends s t ending) :
    runScenario x s = conclude s.store.stats.created ending t := by
  unfold runScenario
  cases ending <;> rw [hx]

/-- The outcome of a run tells how its scenario ends, and counts the nodes that are live since its
beginning. -/
theorem Ends.concludes {ending : Except Stop Unit} (hx : x.Ends s t ending) :
    x.Concludes s (Outcome.classify (t.store.liveSince s.store.stats.created) ending).1 t := by
  obtain ⟨records, hconclude, _⟩ := conclude_eq s.store.stats.created ending t
  exact ⟨records, (runScenario_of_ends hx).trans hconclude⟩

/-- The run of a scenario that is made of operations is classified. -/
theorem Composed.classified (hx : x.Composed) (hs : s.store.Reachable) : x.Classified s := by
  have hafter := hx.precedes hs
  have hrenews := hafter.recorded.renews
  have hslots := hafter.reachable.coherent.slotted
  have hcounted := hs.counted
  refine ⟨fun {t} hend => ?_, fun hend => ?_, fun hend => ?_, fun hend => ?_, ?_, ?_⟩
  · have hleak : t.store.liveSince s.store.stats.created = (s.newcomers t).length := by
      rw [← after_of_ok hend]
      exact hrenews.liveSince_eq hcounted hs.coherent.slotted hslots
    have hrun : x.Concludes s (Outcome.classify _ (.ok ())).1 t := Ends.concludes hend
    rw [hleak, Outcome.classify] at hrun
    split at hrun <;> rename_i hn
    · rwa [if_pos hn]
    · rwa [if_neg hn]
  · exact (Ends.concludes hend : x.Concludes s (Outcome.classify _ (.error .pruned)).1 _)
  · exact (Ends.concludes hend : x.Concludes s (Outcome.classify _ (.error (.violation _))).1 _)
  · exact (Ends.concludes hend : x.Concludes s (Outcome.classify _ (.error (.fault _))).1 _)
  · exact hrenews.isLive_iff
  · rw [Stage.departed, ← List.countP_eq_length_filter]
    exact hrenews.live_eq hcounted hs.coherent.slotted hslots

/-- A run that begins in the course of a scenario is the run of a scenario made of operations. It
begins at a later stage, and the scenario goes on to a later stage from where it ends. -/
theorem RunsIn.precedes {x : ScenarioM σ α β} (hy : y.RunsIn s₁ x s) (hs : s.store.Reachable) :
    y.Composed ∧ s.Precedes s₁ ∧ (y.after s₁).Precedes (x.after s) := by
  induction hy with
  | self hy => exact ⟨hy, Stage.precedes_of_eq hs rfl, precedes_nested (hy.precedes hs).reachable⟩
  | nested _ ih =>
    obtain ⟨hy, hbefore, hbehind⟩ := ih hs
    exact ⟨hy, hbefore, hbehind.trans (precedes_nested hbehind.reachable)⟩
  | first _ hf ih =>
    obtain ⟨hy, hbefore, hbehind⟩ := ih hs
    have hrest := precedes_bind hbehind.reachable fun b _ ht => (hf b).precedes ht
    exact ⟨hy, hbefore, hbehind.trans hrest⟩
  | second hx hresult _ ih =>
    have hfirst := hx.precedes hs
    rw [after_of_ok hresult] at hfirst
    obtain ⟨hy, hbefore, hbehind⟩ := ih hfirst.reachable
    rw [after_bind, hresult]
    exact ⟨hy, hfirst.trans hbefore, hbehind⟩
  | tried _ hf ih =>
    obtain ⟨hy, hbefore, hbehind⟩ := ih hs
    have hrest := precedes_tryCatch hbehind.reachable fun e _ ht => (hf e).precedes ht
    exact ⟨hy, hbefore, hbehind.trans hrest⟩
  | caught hx hresult _ ih =>
    have hfirst := hx.precedes hs
    rw [after_of_error hresult] at hfirst
    obtain ⟨hy, hbefore, hbehind⟩ := ih hfirst.reachable
    rw [after_tryCatch, hresult]
    exact ⟨hy, hfirst.trans hbefore, hbehind⟩

/-- A newcomer of an inner run is a newcomer of the scenario unless that releases it. -/
theorem RunsIn.mem_newcomers_iff {x : ScenarioM σ α β} (hy : y.RunsIn s₁ x s)
    (hs : s.store.Reachable) {e : Handle × Nat} (he : e ∈ s₁.newcomers (y.after s₁)) :
    e ∈ s.newcomers (x.after s) ↔ .released e.1 ∉ (y.after s₁).since (x.after s) := by
  obtain ⟨hcomposed, hbefore, hbehind⟩ := hy.precedes hs
  have hinner := hcomposed.precedes hbefore.reachable
  have hmark := hbefore.recorded.renews.created_eq
  unfold Stage.newcomers at he ⊢
  rw [hbefore.since_trans (hinner.trans hbehind), hinner.since_trans hbehind]
  rw [mem_newcomers_append_right, ← hmark]
  · exact mem_newcomers_append_left he
  · rw [← hmark]
    exact (serial_of_mem_newcomers he).1

end ScenarioM

/-- The runs of programs are classified. -/
theorem Program.classified [DecidableEq α] [Payload α] (p : Program α) {s : Stage (Scope α) α}
    (hs : s.store.Reachable) : p.scenario.Classified s :=
  p.driven.composed.classified hs

/-- The run of a scenario that is made of operations is classified from any reachable store on: by
the nodes that it leaves where the scenario reaches its end, and by the stop where it stops. So is
every run that begins in its course, and what that one leaves is left by the whole run as well,
unless it is released behind the inner run. -/
theorem runs_report_the_nodes_they_leave {x : ScenarioM σ α Unit} {s : Stage σ α}
    (hx : x.Composed) (hs : s.store.Reachable) :
    x.Classified s ∧ ∀ (y : ScenarioM σ α Unit) s₁, y.RunsIn s₁ x s →
      y.Classified s₁ ∧ ∀ e ∈ s₁.newcomers (y.after s₁),
        (e ∈ s.newcomers (x.after s) ↔ .released e.1 ∉ (y.after s₁).since (x.after s)) := by
  refine ⟨hx.classified hs, fun y s₁ hy => ⟨?_, fun e he => hy.mem_newcomers_iff hs he⟩⟩
  obtain ⟨hcomposed, hbefore, _⟩ := hy.precedes hs
  exact hcomposed.classified hbefore.reachable

open ScenarioM

/-- Create three nodes, two of them in one list. -/
def shedding : ScenarioM Unit Nat Unit := do
  let head ← lists (ArenaM.create 60)
  let _ ← lists (ArenaM.append (some head) 70)
  discard <| lists (ArenaM.create 80)

/-- Destroy the three nodes of the arena `reusedSlot`, run a scenario that takes their slots again,
and destroy two of its nodes. -/
def turnover : ScenarioM Unit Nat Unit := do
  let _ ← lists (ArenaM.destroy (some ⟨2, 0⟩))
  let _ ← unstopped (runScenario shedding)
  discard <| lists (ArenaM.destroy (some ⟨1, 2⟩))

/-- A harness on the arena `reusedSlot`. -/
def reusedStage : Stage Unit Nat := ⟨.ofArena reusedSlot .never, ()⟩

/-- The inner run leaks three nodes. The outer run releases two of them, and three old ones; it
leaks the last one, although fewer nodes are live than in the beginning. -/
theorem turnover_leaks :
    turnover.Composed ∧ reusedStage.store.Reachable ∧ reusedStage.store.live = 3 ∧
    turnover.Concludes reusedStage (.fault (.leak 1)) (turnover.after reusedStage) ∧
    (turnover.after reusedStage).store.live = 1 ∧
    ∃ s₁, shedding.RunsIn s₁ turnover reusedStage ∧
      shedding.Concludes s₁ (.fault (.leak 3)) (shedding.after s₁) ∧
      (⟨2, 1⟩, 7) ∈ reusedStage.newcomers (turnover.after reusedStage) := by
  have hs : reusedStage.store.Reachable := Arena.Reachable.store ⟨.global, slotReuse, rfl⟩
  have hshedding : shedding.Composed :=
    .bind (.call (.create 60) rfl) fun head =>
      .bind (.call (.append (some head) 70) rfl) fun _ => .discard (.call (.create 80) rfl)
  have hend : (discard (lists (ArenaM.destroy (some ⟨1, 2⟩))) : ScenarioM Unit Nat Unit).Composed :=
    .discard (.call (.destroy (some ⟨1, 2⟩)) rfl)
  have hbegin : (lists (ArenaM.destroy (some ⟨2, 0⟩)) : ScenarioM Unit Nat Nat).Composed :=
    .call (.destroy (some ⟨2, 0⟩)) rfl
  have hturnover : turnover.Composed :=
    .bind hbegin fun _ => .bind (.nested hshedding) fun _ => hend
  obtain ⟨houter, hinner⟩ := runs_report_the_nodes_they_leave hturnover hs
  have hruns : shedding.RunsIn ((lists (ArenaM.destroy (some ⟨2, 0⟩)) :
      ScenarioM Unit Nat Nat).after reusedStage) turnover reusedStage :=
    .second hbegin rfl (.first (.self hshedding) fun _ => hend)
  obtain ⟨hclassified, hkept⟩ := hinner _ _ hruns
  refine ⟨hturnover, hs, rfl, houter.completed rfl, ?_, _, hruns, hclassified.completed rfl, ?_⟩
  · have hlive := houter.live_eq
    have hdeparted : (reusedStage.departed (turnover.after reusedStage)).length = 3 := by
      decide +kernel
    have hnew : (reusedStage.newcomers (turnover.after reusedStage)).length = 1 := by
      decide +kernel
    have hbefore : reusedStage.store.live = 3 := rfl
    omega
  · exact (hkept (⟨2, 1⟩, 7) (by decide +kernel)).mpr (by decide +kernel)

end CheckedLists
