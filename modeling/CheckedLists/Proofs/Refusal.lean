import CheckedLists.Proofs.Run

/-!
# Refused operations

An operation that is refused or panics leaves no trace: store and journal stay as
they are, since every operation looks at all that could stand in its way before
it writes. Only the allocator may count that it was asked. A question about the
values of a list is not even begun where it is refused. The operations that panic
where another one is refused panic with the wording of its fault, and differ from
it in nothing else.
-/

namespace CheckedLists

variable {α : Type} {a b : Arena α} {op : Op (Option Handle) Handle α} {e : Abort Fault}

/-- An operation on a coherent arena that ends early was refused, and it leaves the store and the
journal as they were. -/
theorem Op.unchanged_of_error (hs : a.store.Coherent) (herror : op.perform a = .error e b) :
    e.Refusal ∧ b.store = a.store ∧ b.journal = a.journal := by
  obtain ⟨_, _, hok, _⟩ | ⟨e', allocator, hrefused, hr⟩ := op.settles_perform hs
  · rw [hok] at herror
    contradiction
  · rw [hrefused] at herror
    obtain ⟨rfl, rfl⟩ := EStateM.Result.error.inj herror
    exact ⟨hr, rfl, rfl⟩

/-- A question about all values of a list that is refused is asked about none of them: whoever asks
is left in the same state, and any other question is refused as well. -/
theorem Store.unasked_of_error {s : Store α} (hs : s.Coherent) {σ : Type} {head : Option Handle}
    {p : α → StateM σ Bool} {asked asked' : σ} (herror : s.all head p asked = .error e asked') :
    asked' = asked ∧
      ∀ (τ : Type) (q : α → StateM τ Bool) (t : τ), s.all head q t = .error e t := by
  obtain ⟨ks, hc⟩ | ⟨h, f, rfl, hf⟩ := hs.chain_or_error head
  · rw [hs.all_eq hc] at herror
    contradiction
  · rw [Store.all_of_error hf] at herror
    obtain ⟨rfl, rfl⟩ := EStateM.Result.error.inj herror
    exact ⟨rfl, fun τ q t => Store.all_of_error hf q t⟩

/-- An append, and likewise a creation, does not panic by itself. -/
theorem ArenaM.append_ne_panic (hs : a.store.Coherent) (head : Option Handle) (v : α) (p : Panic)
    (b : Arena α) : append head v a ≠ .error (.panic p) b := by
  intro hpanic
  cases head with
  | none =>
    have hcreate : create v a = .error (.panic p) b := hpanic
    by_cases hx : a.Exhausted
    · obtain ⟨_, _, hrefused⟩ := create_of_exhausted hx v
      cases hrefused.symm.trans hcreate
    · obtain ⟨_, _, _, hok⟩ := create_of_not_exhausted hs.slotted hx v
      cases hok.symm.trans hcreate
  | some head =>
    obtain ⟨_, _, hrefused⟩ | ⟨_, _, _, _, _, _, _, hok⟩ := append_cases hs head v
    · cases hrefused.symm.trans hpanic
    · cases hok.symm.trans hpanic

/-- The operation `forced` panics on an arena exactly where `tried` is refused, and with the wording
of its fault. Elsewhere they answer the same and leave the same arena. -/
structure Op.Forces (a : Arena α) (forced tried : Op (Option Handle) Handle α) : Prop where
  /-- The two are carried out alike. -/
  ok_iff : ∀ {r b}, forced.perform a = .ok r b ↔ tried.perform a = .ok r b
  /-- A fault of the one is a panic of the other. -/
  panic_iff : ∀ {message b},
    (∃ p : Panic, forced.perform a = .error (.panic p) b ∧ p.message = message) ↔
      ∃ f : Fault, tried.perform a = .error (.error f) b ∧ "oxlist: " ++ f.message = message
  /-- No fault is left for the caller. -/
  ne_fault : ∀ {f b}, forced.perform a ≠ .error (.error f) b

/-- An operation that panics where another one is refused forces it, if the other one does not
panic by itself. -/
theorem Op.forces_of_orPanic {β : Type} {c : ArenaM α β} {g : β → Reply α}
    {forced tried : Op (Option Handle) Handle α} (hforced : forced.perform = g <$> c.orPanic)
    (htried : tried.perform = g <$> c) (hc : ∀ p b, c a ≠ .error (.panic p) b) :
    Op.Forces a forced tried := by
  have hf : forced.perform a = (g <$> c.orPanic) a := by rw [hforced]
  have ht : tried.perform a = (g <$> c) a := by rw [htried]
  rw [ArenaM.map_apply] at hf ht
  unfold ArenaM.orPanic at hf
  cases hresult : c a with
  | ok x b =>
    simp only [hresult] at hf ht
    exact ⟨by simp [hf, ht], by simp [hf, ht], by simp [hf]⟩
  | error e b =>
    cases e with
    | panic p => exact absurd hresult (hc p b)
    | error f =>
      simp only [hresult] at hf ht
      refine ⟨by simp [hf, ht], fun {m b'} => ⟨?_, ?_⟩, by simp [hf]⟩
      · rintro ⟨p, hpanic, rfl⟩
        cases hf.symm.trans hpanic
        exact ⟨f, ht, rfl⟩
      · rintro ⟨f', hfault, rfl⟩
        cases ht.symm.trans hfault
        exact ⟨.refused f, hf, rfl⟩

/-- In every arena that a run leads to, an operation that is refused or panics leaves the store and
the journal as they are; a question about the values of a list that is refused is not asked at all;
and the operations that panic do so exactly where their other forms are refused, with the wording of
the fault. -/
theorem refused_operations_change_nothing (ha : a.Reachable) :
    (∀ (op : Op (Option Handle) Handle α) e b, op.perform a = .error e b →
      b.store = a.store ∧ b.journal = a.journal) ∧
    (∀ (σ : Type) head (p : α → StateM σ Bool) asked e asked',
      a.store.all head p asked = .error e asked' →
      asked' = asked ∧
        ∀ (τ : Type) (q : α → StateM τ Bool) t, a.store.all head q t = .error e t) ∧
    (∀ v, Op.Forces a (.createOrPanic v) (.create v)) ∧
    ∀ head v, Op.Forces a (.appendOrPanic head v) (.append head v) := by
  have hs := ha.coherent
  refine ⟨fun op e b herror => (Op.unchanged_of_error hs herror).2,
    fun σ head p asked e asked' herror => Store.unasked_of_error hs herror, fun v => ?_,
    fun head v => ?_⟩
  · exact Op.forces_of_orPanic rfl rfl (ArenaM.append_ne_panic hs none v)
  · exact Op.forces_of_orPanic rfl rfl (ArenaM.append_ne_panic hs head v)

/-- The arena `reusedSlot` when no more nodes are allowed than are live. -/
def fullSlots : Arena Nat := reusedSlot.step (.call (.setLimit (some 3)))

/-- An append to the list of three nodes is refused behind the walk to its end, and changes nothing.
As a panic it reads the same. A question about a destroyed list is not asked. -/
theorem fullSlots_unchanged :
    fullSlots.Reachable ∧
    (∃ b, (Op.append (some ⟨2, 0⟩) 60).perform fullSlots = .error (.error .outOfMemory) b ∧
      b.store = fullSlots.store ∧ b.journal = fullSlots.journal) ∧
    (∃ p b, (Op.appendOrPanic (some ⟨2, 0⟩) 60).perform fullSlots = .error (.panic p) b ∧
      p.message = "oxlist: out of memory") ∧
    ∀ (q : Nat → StateM Nat Bool) t, fullSlots.store.all (some ⟨0, 0⟩) q t =
      .error (.error (.useAfterRelease ⟨0, 0⟩)) t := by
  have ha : fullSlots.Reachable := ⟨.global, slotReuse ++ [.call (.setLimit (some 3))], rfl⟩
  obtain ⟨hunchanged, hunasked, _, hforces⟩ := refused_operations_change_nothing ha
  have happend : (Op.append (some ⟨2, 0⟩) 60).perform fullSlots =
      .error (.error .outOfMemory) fullSlots := rfl
  refine ⟨ha, ⟨_, happend, hunchanged _ _ _ happend⟩, ?_, fun q t => ?_⟩
  · obtain ⟨p, hp, hm⟩ := (hforces (some ⟨2, 0⟩) 60).panic_iff.mpr ⟨_, happend, rfl⟩
    exact ⟨p, _, hp, hm.trans rfl⟩
  · exact (hunasked Nat (some ⟨0, 0⟩) (numbered fun _ _ => true) 0 _ 0 rfl).2 Nat q t

end CheckedLists
