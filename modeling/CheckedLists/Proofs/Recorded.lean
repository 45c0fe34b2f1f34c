import CheckedLists.Proofs.Run

/-!
# Changes record by record

An effect may write several records: one for each node that it creates, joins or
releases. Taken apart, it is a sequence of small changes with one record each.
What the values and the bound become is not recorded. Between two records of one
effect a store need not be coherent, so that each small change says for itself
what had to hold before.

Everything that the journal tells about a store is proved along these sequences.
-/

namespace CheckedLists

variable {α : Type}

namespace Store

variable {s t u : Store α} {r : Record} {records more : List Record} {h p : Handle}
  {ks : List Handle} {n : Node α}

/-- The live node `a` without successor can be given the live node `b` as its successor, since `b`
is another node and no successor yet. -/
structure Joinable (s : Store α) (a b : Handle) : Prop where
  /-- The first node has no successor. -/
  next_eq : s.next a = .ok none
  /-- The second node is live. -/
  live : s.isLive b = true
  /-- The second node is no successor. -/
  head : ∀ p, ¬ s.Leads p b
  /-- The two nodes differ. -/
  ne : a ≠ b

/-- `t` is what `s` becomes by the change that a record tells of. -/
inductive Reports (s : Store α) : Record → Store α → Prop where
  | created {v : α} {h : Handle} {t : Store α} (hc : s.Created v h t) : Reports s (.created h) t
  | appended {h last : Handle} (hj : s.Joinable last h) :
      Reports s (.appended h last) (s.join last h)
  | linked {a b : Handle} (hj : s.Joinable a b) : Reports s (.linked a b) (s.join a b)
  | released {h : Handle} {n : Node α} (hn : s.lookup h = .ok n) :
      Reports s (.released h) (s.vacate h)
  | destroyed (count : Nat) (head : Handle) : Reports s (.destroyed count head) s
  | leaked (count : Nat) : Reports s (.leaked count) s
  | faulted (f : Fault) : Reports s (.faulted f) s
  | ended (outcome : Outcome) (taken : Nat) : Reports s (.ended outcome taken) s

/-- `t` is what `s` becomes by a change that no record tells of. -/
inductive Unreported (s : Store α) : Store α → Prop where
  | write (h : Handle) (g : Node α → α) : Unreported s (s.alter h fun n => { n with value := g n })
  | bound (limit : Option Nat) : Unreported s (s.setLimit limit)

/-- `t` is what `s` becomes while these records are written. -/
inductive Recorded (s : Store α) : List Record → Store α → Prop where
  | nil : Recorded s [] s
  | quiet {records : List Record} {t u : Store α} :
      Recorded s records t → t.Unreported u → Recorded s records u
  | snoc {records : List Record} {r : Record} {t u : Store α} :
      Recorded s records t → t.Reports r u → Recorded s (records ++ [r]) u

theorem Recorded.single (hr : s.Reports r t) : s.Recorded [r] t := .snoc .nil hr

/-- What is recorded later comes behind. -/
theorem Recorded.append (hs : s.Recorded records t) (ht : t.Recorded more u) :
    s.Recorded (records ++ more) u := by
  induction ht with
  | nil => simpa using hs
  | quiet _ hu ih => exact .quiet ih hu
  | snoc _ hr ih =>
    rw [← List.append_assoc]
    exact .snoc ih hr

/-- Live nodes that are told apart are released one by one, with one record each. -/
theorem recorded_vacateAll (hnodup : ks.Nodup) (hlive : ∀ h ∈ ks, s.isLive h = true) :
    s.Recorded (ks.map .released) (s.vacateAll ks) := by
  induction ks generalizing s with
  | nil => exact .nil
  | cons h ks ih =>
    obtain ⟨n, hn, hks, hrest⟩ := live_behind hnodup hlive
    have hfirst : s.Recorded [.released h] (s.vacate h) := .single (.released hn)
    exact hfirst.append (ih hks hrest)

/-- After a creation the new node can be joined to the last node of a list. -/
theorem Created.joinable {v : α} {last : Handle} (hl : s.Linked none) (hc : s.Created v h t)
    (hlast : s.next last = .ok none) : t.Joinable last h where
  next_eq := hc.next_eq_ok_iff.mpr (.inr hlast)
  live := hc.isLive_iff.mpr (.inl rfl)
  head p hp := by
    obtain ⟨n, hn⟩ := Store.isLive_iff.mp (hl.isLive_of_leads (hc.leads_iff.mp hp))
    exact hc.not_live rfl hn
  ne := hc.ne_of_next hlast

/-- Every effect is a sequence of changes that its records tell of. -/
theorem Effect.recorded (hs : s.Coherent) (he : s.Effect t records) : s.Recorded records t := by
  cases he with
  | idle => exact .nil
  | write h g => exact .quiet .nil (.write h g)
  | bound limit => exact .quiet .nil (.bound limit)
  | create hc => exact .single (.created hc)
  | append hlast hc =>
    have hj := hc.joinable hs.linked hlast
    exact (Recorded.single (.created hc)).append (.single (.appended hj))
  | @link x y ks hx hc hhead hoff =>
    have hne : x ≠ y := by
      rintro rfl
      exact hoff hc.head_mem
    have hlive : s.isLive y = true := hc.isLive hc.head_mem
    exact .single (.linked ⟨hx, hlive, fun p => hs.linked.not_leads hhead, hne⟩)
  | destroy hhead hc =>
    exact (recorded_vacateAll hc.nodup fun _ => hc.isLive).append (.single (.destroyed _ _))

end Store

namespace Arena

variable {a : Arena α}

/-- An event is a sequence of changes that the records it adds to the journal tell of. -/
theorem recorded_step (hs : a.store.Coherent) (e : Event α) :
    ∃ records, (a.step e).journal = a.journal ++ records.toArray ∧
      a.store.Recorded records (a.step e).store := by
  obtain ⟨t, records, heffect, hstore, hjournal⟩ := leaves_step hs e
  refine ⟨records, hjournal, ?_⟩
  rw [hstore]
  exact heffect.recorded hs

/-- Events keep a store coherent and change it as the records tell that they add to the journal. -/
theorem exists_recorded_run (hs : a.store.Coherent) (events : List (Event α)) :
    (a.run events).store.Coherent ∧ ∃ records,
      (a.run events).journal = a.journal ++ records.toArray ∧
        a.store.Recorded records (a.run events).store := by
  refine run_induction (P := fun b : Arena α => b.store.Coherent ∧ ∃ records,
    b.journal = a.journal ++ records.toArray ∧ a.store.Recorded records b.store) ?_
    ⟨hs, [], by simp, .nil⟩ events
  rintro b e ⟨hb, records, hjournal, hrecorded⟩
  obtain ⟨more, hmore, hstep⟩ := recorded_step hb e
  refine ⟨coherent_step e hb, records ++ more, ?_, hrecorded.append hstep⟩
  rw [hmore, hjournal]
  simp

/-- The journal of a run tells of all changes since the empty store. -/
theorem recorded_run (allocator : Allocator) (events : List (Event α)) :
    (Store.empty : Store α).Recorded ((empty allocator).run events).journal.toList
      ((empty allocator).run events).store := by
  obtain ⟨_, records, hjournal, hrecorded⟩ :=
    exists_recorded_run (a := empty allocator) .empty events
  have hall : ((empty allocator).run events).journal = records.toArray := by
    rw [hjournal]
    simp [empty]
  rw [hall]
  exact hrecorded

end Arena

end CheckedLists
