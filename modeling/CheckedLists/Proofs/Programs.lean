import CheckedLists.Proofs.Outline
import CheckedLists.Scenario.Report

/-!
# Fixtures and programs are driven by answers

What a fixture or a program does to a store it does by operations, whatever its steps
are and whatever handles its operands stand for, and it learns of its choices by drawing.
Its outline has a loop, a branch or a run where its text has one. All that holds of the
scenarios that are driven by answers therefore holds of fixtures and programs.
-/

namespace CheckedLists

variable {σ α β γ : Type}

namespace Fixture

open ScenarioM

theorem driven_pair (first second : α) : (pair first second : ScenarioM σ α Handle).Driven :=
  .bind (.call (.create first) rfl) fun a => .bind (.call (.create second) rfl) fun b =>
    .bind (.call (.link a b) rfl) fun _ => .pure a

theorem driven_overwriteFrom (value : α) (fuel : Nat) (place : Option Handle) :
    (overwriteFrom value fuel place : ScenarioM σ α Unit).Driven := by
  induction fuel generalizing place with
  | zero =>
    cases place with
    | none => exact .pure ()
    | some h => exact .throw _
  | succ fuel ih =>
    cases place with
    | none => exact .pure ()
    | some h => exact .bind (.call (.set h value) rfl) fun _ => .bind (.call (.next h) rfl) ih

theorem driven_overwrite (value : α) (head : Option Handle) :
    (overwrite value head : ScenarioM σ α Unit).Driven :=
  .look (fun _ _ => rfl) fun s => driven_overwriteFrom value s.harness.arena.store.live head

theorem driven_twoValues [DecidableEq α] [Payload α] (first second : α) :
    ((twoValues first second).scenario : ScenarioM σ α Unit).Driven := by
  refine .bind (driven_pair first second) fun a => ?_
  refine .bind (.call (.get a) rfl) fun v => ?_
  refine .bind (.check _ _) fun _ => ?_
  refine .bind (.call (.next a) rfl) fun place => ?_
  cases place with
  | none => exact .stop _
  | some b =>
    refine .bind (.call (.get b) rfl) fun w => ?_
    refine .bind (.check _ _) fun _ => ?_
    exact .discard (.call (.destroy (some a)) rfl)

open Outline in
/-- The outline of a fixture. What comes before the loop that asks, in its turns or behind it draws
no answers. -/
noncomputable def outline [DecidableEq α] [Payload α] : Fixture α → Outline σ α Unit
  | appendToPair first data =>
    (part (driven_pair first first)).bind fun a =>
      (whileDrawn (fun head => part (.map (.call (.append head data) rfl) some)) (some a)).bind
        fun head => (part (.assumeAll head fun _ v => v = data)).bind fun _ =>
          part (.discard (.call (.destroy head) rfl))
  | appendOverwrite data value =>
    (part (driven_pair (Payload.ofInt 0) (Payload.ofInt 0))).bind fun a =>
      (whileDrawn (fun _ => part (.discard (.call (.append (some a) data) rfl))) ()).bind fun _ =>
        (part (driven_overwrite value (some a))).bind fun _ =>
          (part (.checkAll (some a) "every node holds the overwritten value"
            fun _ v => v = value)).bind fun _ =>
              part (.discard (.call (.destroy (some a)) rfl))
  | twoValues first second => part (driven_twoValues first second)

theorem scenario_outline [DecidableEq α] [Payload α] (f : Fixture α) :
    (f.outline : Outline σ α Unit).scenario = f.scenario := by
  cases f <;> simp only [outline, scenario, Outline.scenario, Outline.scenario_part]

/-- The fixtures are driven by answers. -/
theorem driven [DecidableEq α] [Payload α] (f : Fixture α) :
    (f.scenario : ScenarioM σ α Unit).Driven :=
  f.scenario_outline ▸ f.outline.driven

end Fixture

/-- Appending some values one after the other leaves an arena as some events leave it. -/
theorem exists_run_fillFrom (value : Nat → α) (count i : Nat) (head : Option Handle)
    (a : Arena α) : ∃ events, (fillFrom value count i head a).2.2 = a.run events := by
  induction count generalizing i head a with
  | zero => exact ⟨[], rfl⟩
  | succ count ih =>
    have hstep : a.step (.call (.append head (value i))) =
        (ArenaM.append head (value i)).after a := ArenaM.after_map _ _ _
    rw [ArenaM.after] at hstep
    rw [fillFrom]
    cases hresult : ArenaM.append head (value i) a with
    | error e b =>
      rw [hresult] at hstep
      exact ⟨[.call (.append head (value i))], hstep.symm⟩
    | ok h b =>
      rw [hresult] at hstep
      obtain ⟨events, hevents⟩ := ih (i + 1) (some h) b
      refine ⟨.call (.append head (value i)) :: events, ?_⟩
      rw [hevents]
      exact congrArg (fun b => b.run events) hstep.symm

/-- A command leaves the arena as some events leave it. -/
theorem Command.exists_run (c : Command α) (d : Desk α) :
    ∃ events, (c.run d).2.2.arena = d.arena.run events := by
  cases c with
  | call op into =>
    rw [run]
    split
    · exact ⟨[], rfl⟩
    · rename_i op _ _
      have hafter : d.arena.step (.call op) = op.perform.after d.arena := rfl
      rw [ArenaM.after] at hafter
      refine ⟨[.call op], ?_⟩
      change _ = d.arena.step (.call op)
      rw [hafter]
      cases hresult : op.perform d.arena with
      | error e a => rfl
      | ok r a => cases hr : r.list? <;> simp [hr]
  | fill head count value into =>
    rw [run]
    split
    · exact ⟨[], rfl⟩
    · rename_i head _ _
      obtain ⟨events, hevents⟩ := exists_run_fillFrom value count 0 head d.arena
      refine ⟨events, ?_⟩
      rw [← hevents]
      dsimp only
      split <;> rfl
  | same a b =>
    rw [run]
    split <;> exact ⟨[], rfl⟩
  | distinct operands =>
    rw [run]
    split <;> exact ⟨[], rfl⟩
  | allocator relax => exact ⟨[.supply _], rfl⟩

namespace ProgramM

open ScenarioM

theorem driven_note (response : Response α) (samples : Array Record) :
    (note response samples).Driven :=
  .consult (g := fun s => ((), ((note response samples).after s).scope)) fun _ _ => rfl

theorem driven_command (c : Command α) : (command c).Driven := by
  let carryOut (r : Registers) : ArenaM α ((Response α × Array Record) × Registers) := fun a =>
    let left := c.run ⟨r, a⟩
    .ok ((left.1, left.2.1), left.2.2.registers) left.2.2.arena
  have hcarry (r : Registers) : (carryOut r).Operates := fun a => c.exists_run ⟨r, a⟩
  let keep (answer : (Response α × Array Record) × Registers) : ProgramM α _ :=
    consult fun s => (answer.1, { s.scope with registers := answer.2 })
  have heq : command c = get >>= fun s => lists (carryOut s.scope.registers) >>= keep := rfl
  rw [heq]
  refine .look (fun _ _ => rfl) fun s => ?_
  exact .bind (.lists (hcarry s.scope.registers)) fun answer => .consult fun _ _ => rfl

/-- Where a computation stops, the response to it goes on with the stop. -/
theorem settle_eq (x : ProgramM α Unit) :
    settle x = tryCatch (do x; return .reply .done) fun e => match e with
      | .error stop => return .stopped stop
      | .panic p => throw (.panic p) := by
  funext s
  change _ = EStateM.tryCatch (EStateM.bind x _) _ s
  unfold settle EStateM.tryCatch EStateM.bind
  cases x s with
  | ok => rfl
  | error e => cases e <;> rfl

open Outline in
/-- The outline of the response to a computation. -/
def settled (p : Outline (Scope α) α Unit) : Outline (Scope α) α (Response α) :=
  (p.bind fun _ => pure (.reply .done)).tryCatch fun e => match e with
    | .error stop => pure (.stopped stop)
    | .panic p => throw (.panic p)

theorem scenario_settled (p : Outline (Scope α) α Unit) :
    (settled p).scenario = settle p.scenario := by
  rw [settle_eq, settled, Outline.scenario]
  congr 1
  funext e
  cases e <;> rfl

theorem driven_settle {x : ProgramM α Unit} (hx : x.Driven) : (settle x).Driven := by
  obtain ⟨p, rfl⟩ := hx.exists_outline
  exact scenario_settled p ▸ (settled p).driven

theorem driven_withOperand {x : Registers → Lookup β} {go : β → ProgramM α (Response α)}
    (hgo : ∀ b, (go b).Driven) : (withOperand x go).Driven := by
  refine .look (fun _ _ => rfl) fun s => ?_
  obtain ⟨found, samples⟩ := (x s.scope.registers).find
  cases found with
  | none => exact .pure _
  | some b => exact (hgo b).bind fun _ => .pure _

end ProgramM

open ProgramM in
theorem Step.driven_respond [DecidableEq α] [Payload α] (s : Step α) : s.respond.Driven := by
  cases s with
  | command c => exact driven_command c
  | assume condition => exact .bind (driven_settle (.assume _)) fun _ => .pure _
  | check condition label => exact .bind (driven_settle (.check _ _)) fun _ => .pure _
  | assumeAll head p =>
    rw [respond]
    exact driven_withOperand fun _ => driven_settle (.assumeAll _ _)
  | checkAll head label p =>
    rw [respond]
    exact driven_withOperand fun _ => driven_settle (.checkAll _ _ _)
  | checkGet h value label =>
    rw [respond]
    refine driven_withOperand fun h => driven_settle ?_
    exact .bind (.call (.get h) rfl) fun _ => .check _ _
  | stop why => exact .bind (driven_settle (.stop why)) fun _ => .pure _
  | fixture f => exact .bind (driven_settle f.driven) fun _ => .pure _
  | draw => exact .bind .draw fun _ => .pure _
  | describe tall =>
    exact .look (fun _ _ => rfl) fun _ => .pure _

/-- Parts that do not stop come one behind the other in a scenario as they do by themselves. -/
theorem ScenarioM.unstopped_bind (x : EStateM Panic (Stage σ α) β)
    (f : β → EStateM Panic (Stage σ α) γ) :
    unstopped (x >>= f) = unstopped x >>= fun b => unstopped (f b) := by
  funext s
  simp only [unstopped, bind, EStateM.bind]
  cases x s <;> rfl

/-- What becomes of the answer of a step. -/
def Step.enter (answer : Response α × Array Record) : ProgramM α Unit := do
  ProgramM.note answer.1 answer.2
  match answer.1.stop? with
  | none => return ()
  | some why => ScenarioM.stop why

theorem Step.driven_enter (answer : Response α × Array Record) : (enter answer).Driven := by
  refine .bind (ProgramM.driven_note _ _) fun _ => ?_
  cases answer.1.stop? with
  | none => exact .pure ()
  | some why => exact .stop why

variable [DecidableEq α] [Payload α]

theorem Step.driven_take (s : Step α) : s.take.Driven :=
  .bind s.driven_respond driven_enter

open Outline ProgramM in
/-- The outline of a step. Only fixtures have loops that ask. -/
noncomputable def Step.outline : Step α → Outline (Scope α) α Unit
  | fixture f => (settled f.outline).bind fun r => part (driven_enter (r, #[]))
  | s => part s.driven_take

theorem Step.scenario_outline (s : Step α) : s.outline.scenario = s.take := by
  cases s with
  | fixture f =>
    simp only [outline, Outline.scenario, ProgramM.scenario_settled, Fixture.scenario_outline,
      Outline.scenario_part]
    change _ = (ProgramM.settle f.scenario >>= fun r => return (r, #[])) >>= enter
    simp only [bind_assoc, pure_bind]
  | _ => simp only [outline, Outline.scenario_part]

open Outline ProgramM in
/-- The outline of a program has the loops, branches and runs that the program has. -/
noncomputable def Program.outline : Program α → Outline (Scope α) α Unit
  | done => pure ()
  | step s rest => s.outline.bind fun _ => rest.outline
  | attempt body rest => (settled body.outline).discard.bind fun _ => rest.outline
  | loop body rest =>
    (whileDrawn (fun _ => body.outline) ()).bind fun _ =>
      (part (driven_note (.reply (.text "end")) #[])).bind fun _ => rest.outline
  | branch yes no rest =>
    draw.bind fun answer =>
      (part (driven_note (.reply (.text (if answer then "then" else "else"))) #[])).bind fun _ =>
        (if answer then yes.outline else no.outline).bind fun _ => rest.outline
  | nested body rest =>
    body.outline.nested.bind fun outcome =>
      (part (driven_note (.ended outcome) #[])).bind fun _ => rest.outline

theorem Program.scenario_outline (p : Program α) : p.outline.scenario = p.scenario := by
  induction p with
  | done => rfl
  | step s rest ih =>
    simp only [outline, scenario, Outline.scenario, Step.scenario_outline, ih]
  | attempt body rest ihbody ih =>
    simp only [outline, scenario, Outline.scenario, Outline.scenario_discard,
      ProgramM.scenario_settled, ihbody, ih]
    rfl
  | loop body rest ihbody ih =>
    simp only [outline, scenario, Outline.scenario, Outline.scenario_part, ihbody, ih]
  | branch yes no rest ihyes ihno ih =>
    simp only [outline, scenario, Outline.scenario, Outline.scenario_part, ih]
    refine congrArg (ScenarioM.draw >>= ·) (funext fun answer => ?_)
    cases answer with
    | true => simp only [if_true, ihyes]
    | false => simp only [Bool.false_eq_true, if_false, ihno]
  | nested body rest ihbody ih =>
    simp only [outline, scenario, Outline.scenario, Outline.scenario_part, ihbody, ih]

/-- Programs are driven by answers. -/
theorem Program.driven (p : Program α) : p.scenario.Driven :=
  p.scenario_outline ▸ p.outline.driven

/-- Any number of runs one after the other on one harness is driven by answers. -/
theorem driven_runAll (ps : List (Program α)) :
    (ScenarioM.unstopped (runAll ps)).Driven := by
  induction ps with
  | nil => exact .pure []
  | cons p ps ih =>
    simp only [runAll, ScenarioM.unstopped_bind]
    refine .bind (.consult (g := fun s => ((), s.clear.scope)) fun _ _ => rfl) fun _ => ?_
    refine .bind (.nested p.driven) fun outcome => ?_
    exact .look (fun _ _ => rfl) fun _ => ih.bind fun _ => .pure _

end CheckedLists
